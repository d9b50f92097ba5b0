import AssetIntegrity.Proofs.Check.Kinds
import AssetIntegrity.Proofs.Index.Contents
import AssetIntegrity.Proofs.Pointer.GuidSites
import AssetIntegrity.Proofs.Stream.MarkerLine
import AssetIntegrity.Proofs.Stream.Sections
/-!
# GUID owners — the cut into documents and the GUID values

The GUID values of the preamble and of the bodies, one behind the other, are the GUID values of the whole text, and the
owner of each is the document of the last marker line above its own line (`mentions_readAt`).  For a marker line holds
no GUID value (`guids_of_parse?`), and every other line is a whole line of the preamble or of a body.
-/
namespace AssetIntegrity

open Text

/-- The id on the last marker line among lines. -/
def lastDeclared (lines : List Text) : Option String := (lines.filterMap Marker.parse?).getLast?.map (·.id)

theorem lastDeclared_concat_marker {line : Text} {marker : Marker} (h : Marker.parse? line = some marker)
    (lines : List Text) : lastDeclared (lines ++ [line]) = some marker.id := by
  unfold lastDeclared
  rw [List.filterMap_append, List.filterMap_cons_some h, List.filterMap_nil, List.getLast?_concat, Option.map_some]

theorem lastDeclared_concat_plain {line : Text} (h : Marker.parse? line = none) (lines : List Text) :
    lastDeclared (lines ++ [line]) = lastDeclared lines := by
  unfold lastDeclared
  rw [List.filterMap_append, List.filterMap_cons_none h, List.filterMap_nil, List.append_nil]

/-- **A marker line holds no GUID value.** -/
theorem guids_of_parse? {line : Text} {marker : Marker} (h : Marker.parse? line = some marker) : guids line = [] := by
  have hletters : ∀ c ∈ line, c.toLower ≠ 'g' := by
    intro c hc hlower
    have hmarker := Marker.isMarkerChar_of_parse? h c hc
    rcases eq_of_toLower_eq hlower with rfl | rfl
    · exact absurd hmarker (by decide)
    · exact absurd hmarker (by decide)
  unfold guids
  rw [guidEntries_eq_nil true hletters]
  rfl

/-- The mention of a GUID value with this many line feeds in front of it. -/
def mentionAt (lines : List Text) (site : Nat × String) : GuidMention := ⟨site.2, lastDeclared (lines.take site.1)⟩

/-- The mentions of a stream, when what stands in its preamble belongs to `owner`. -/
def ownedMentions (owner : Option String) (stream : Stream) : List GuidMention :=
  (guids stream.preamble).map (⟨·, owner⟩) ++ stream.documents.flatMap Document.guidMentions

theorem ownedMentions_marker (owner : Option String) (position : Position) {line : Text} {marker : Marker}
    (h : Marker.parse? line = some marker) (lines : List Text) :
    ownedMentions owner (Stream.readAt position (line :: lines)) =
      ownedMentions (some marker.id) (Stream.readAt (position.afterLine line) lines) := by
  unfold ownedMentions
  rw [Stream.readAt_marker position h, List.flatMap_cons, guids_nil]
  rfl

theorem ownedMentions_plain (owner : Option String) (position : Position) {line : Text} (h : Marker.parse? line = none)
    {lines : List Text} (hcut : WellCut (line :: lines)) :
    ownedMentions owner (Stream.readAt position (line :: lines)) =
      (guids line).map (⟨·, owner⟩) ++ ownedMentions owner (Stream.readAt (position.afterLine line) lines) := by
  have hfront : WellCut (line :: lines.takeWhile fun l => !Marker.isMarkerLine l) := by
    rw [← List.takeWhile_append_dropWhile (p := fun l => !Marker.isMarkerLine l) (l := lines),
      ← List.cons_append] at hcut
    exact hcut.left
  unfold ownedMentions
  rw [Stream.readAt_plain position h, Stream.preamble_readAt, guids_cons hfront, List.map_append, List.append_assoc]

/-- **The cut into documents keeps every GUID value**, in order, with the last marker line above it; the lines of the
stream come behind the lines `above`. -/
theorem mentions_readAt : ∀ {lines : List Text} (above : List Text) (position : Position), WellCut lines →
    ownedMentions (lastDeclared above) (Stream.readAt position lines) =
      (numberedGuids above.length lines.flatten).map (mentionAt (above ++ lines))
  | [], above, position, _ => by
    rw [Stream.readAt_nil, List.flatten_nil, numberedGuids_nil, ownedMentions, Stream.empty, guids_nil]
    rfl
  | line :: lines, above, position, hcut => by
    have hmore : WellCut lines := WellCut.right (a := [line]) hcut
    have ih := mentions_readAt (above ++ [line]) (position.afterLine line) hmore
    rw [List.length_append, List.length_singleton, ← List.append_cons] at ih
    have hline : ((guids line).map (above.length, ·)).map (mentionAt (above ++ line :: lines)) =
        (guids line).map (⟨·, lastDeclared above⟩) := by
      rw [List.map_map]
      refine List.map_congr_left fun value _ => ?_
      rw [Function.comp_apply, mentionAt, List.take_left]
    rw [List.flatten_cons, numberedGuids_cons above.length hcut, List.map_append, hline, ← ih]
    cases h : Marker.parse? line with
    | some marker =>
      rw [ownedMentions_marker _ position h, lastDeclared_concat_marker h, guids_of_parse? h]
      rfl
    | none => rw [ownedMentions_plain _ position h hcut, lastDeclared_concat_plain h]

theorem guids_ofText (text : Text) :
    (Index.ofStream (Stream.ofText text)).guids = (numberedGuids 0 text).map (mentionAt text.lines) := by
  have h := mentions_readAt [] .start (wellCut_lines text)
  rw [flatten_lines] at h
  rw [Index.guids_ofStream]
  exact h

theorem Profile.issueOf_invalidGuid (profile : Profile) (value : String) (owner : Option String) :
    profile.issueOf (.invalidGuid value owner) =
      { kind := .invalidGuid
        severity := match profile.mode with
          | .blocking => .error
          | .advisory => .warning
        message := s!"Invalid GUID format: {value}"
        documentId := owner } := by
  unfold issueOf severityOf
  cases profile.mode <;> rfl

/-- **The cut into documents neither loses nor adds nor moves a GUID value.**  The values of the index are those of the
whole text in order, each with the id on the last marker line above its own line; and a profile that examines GUIDs
reports each value that is not a GUID once, in the order of the text, with that owner. -/
theorem guids_of_whole_text (profile : Profile) (text : Text) :
    (Index.ofStream (Stream.ofText text)).guids.map (·.value) = guids text ∧
    (numberedGuids 0 text).map (·.2) = guids text ∧
    (Index.ofStream (Stream.ofText text)).guids =
      (numberedGuids 0 text).map (fun (n, value) => ⟨value, lastDeclared (text.lines.take n)⟩) ∧
    (profile.check text).ofKind .invalidGuid =
      if profile.examinesGuids then
        ((numberedGuids 0 text).filter fun (_, value) => !isGuid value).map fun (n, value) =>
          { kind := .invalidGuid
            severity := match profile.mode with
              | .blocking => .error
              | .advisory => .warning
            message := s!"Invalid GUID format: {value}"
            documentId := lastDeclared (text.lines.take n) }
      else [] := by
  have hvalues := map_snd_numberedGuids 0 text
  refine ⟨?_, hvalues, guids_ofText text, ?_⟩
  · rw [guids_ofText, List.map_map]
    exact hvalues
  · rw [Profile.ofKind_invalidGuid, Index.invalidGuids, guids_ofText]
    cases profile.examinesGuids with
    | false => rfl
    | true =>
      rw [if_pos rfl, if_pos rfl, List.filter_map, List.map_map, List.map_map]
      exact List.map_congr_left fun site _ => Profile.issueOf_invalidGuid profile site.2 _

end AssetIntegrity
