import AssetIntegrity.Proofs.Stream.Pass
/-!
# Partitions — a stream is its text, cut at the marker lines

The preamble and, document by document, the marker line with the body behind it are the text again
(`preamble_append_pieces`), and a document stands where its marker line begins (`placed_readAt`).  Neither the preamble
nor a body holds a marker line (`parse?_of_mem_preamble`, `parse?_of_mem_body`).  `Partition` says all this of a stream
and a text, and the stream of every text is such a partition (`scan?_partition`).
-/
namespace AssetIntegrity

open Text

namespace Stream

/-- What stands behind the preamble: each marker line with the body behind it. -/
def pieces (stream : Stream) (lines : List Text) : List Text :=
  List.zipWith (fun line document => line ++ document.body) (lines.filter Marker.isMarkerLine) stream.documents

/-- What stands in front of the marker line of the document at an index. -/
def before (stream : Stream) (lines : List Text) (i : Nat) : Text :=
  stream.preamble ++ ((stream.pieces lines).take i).flatten

theorem pieces_marker (position : Position) {line : Text} {marker : Marker} (h : Marker.parse? line = some marker)
    (lines : List Text) :
    (readAt position (line :: lines)).pieces (line :: lines) =
      (line ++ (readAt (position.afterLine line) lines).preamble)
        :: (readAt (position.afterLine line) lines).pieces lines := by
  unfold pieces
  rw [List.filter_cons_of_pos (by simp [Marker.isMarkerLine, h]), readAt_marker position h, List.zipWith_cons_cons]

theorem pieces_plain (position : Position) {line : Text} (h : Marker.parse? line = none) (lines : List Text) :
    (readAt position (line :: lines)).pieces (line :: lines) =
      (readAt (position.afterLine line) lines).pieces lines := by
  unfold pieces
  rw [List.filter_cons_of_neg (by simp [Marker.isMarkerLine, h]), readAt_plain position h]

/-- **Nothing is lost**: the preamble and the pieces are the lines. -/
theorem preamble_append_pieces : ∀ (lines : List Text) (position : Position),
    (readAt position lines).preamble ++ ((readAt position lines).pieces lines).flatten = lines.flatten
  | [], _ => rfl
  | line :: lines, position => by
    have ih := preamble_append_pieces lines (position.afterLine line)
    cases h : Marker.parse? line with
    | some marker =>
      rw [pieces_marker position h, readAt_marker position h, List.flatten_cons, List.flatten_cons, List.append_assoc,
        ih, List.nil_append]
    | none => rw [pieces_plain position h, readAt_plain position h, List.flatten_cons, List.append_assoc, ih]

theorem before_plain (position : Position) {line : Text} (h : Marker.parse? line = none) (lines : List Text) (i : Nat) :
    (readAt position (line :: lines)).before (line :: lines) i =
      line ++ (readAt (position.afterLine line) lines).before lines i := by
  unfold before
  rw [pieces_plain position h, readAt_plain position h, List.append_assoc]

theorem before_marker (position : Position) {line : Text} {marker : Marker} (h : Marker.parse? line = some marker)
    (lines : List Text) (i : Nat) :
    (readAt position (line :: lines)).before (line :: lines) (i + 1) =
      line ++ (readAt (position.afterLine line) lines).before lines i := by
  unfold before
  rw [pieces_marker position h, readAt_marker position h, List.take_succ_cons, List.flatten_cons, List.nil_append,
    List.append_assoc]

/-- A line in front of a document has its line feed, so counting it is counting its bytes and its line feed. -/
theorem afterLine_of_document {line : Text} {lines : List Text} (hcut : WellCut (line :: lines)) {position p : Position}
    {d : Document} {i : Nat} (hd : (readAt p lines).documents[i]? = some d) :
    position.afterLine line = position.after line := by
  have hne : lines ≠ [] := by
    rintro rfl
    cases hd
  exact position.afterLine_eq_after (hcut.nonempty line List.mem_cons_self) (hcut.unbroken line List.mem_cons_self)
    (WellCut.endsLine_of_append (a := [line]) hcut hne line List.mem_cons_self)

/-- **A document stands where its marker line begins**, and its body is what follows that line. -/
theorem placed_readAt : ∀ {lines : List Text} {position : Position} {i : Nat} {d : Document}, WellCut lines →
    (readAt position lines).documents[i]? = some d →
    d.position = position.after ((readAt position lines).before lines i) ∧
      ∃ line rest, (lines.filter Marker.isMarkerLine)[i]? = some line ∧ Marker.parse? line = some d.toMarker ∧
        (readAt position lines).before lines i ++ line ++ d.body ++ rest = lines.flatten
  | [], _, _, _, _, hd => by cases hd
  | line :: lines, position, i, d, hcut, hd => by
    have htail : WellCut lines := WellCut.right (a := [line]) hcut
    have hrec : ∀ {j}, (readAt (position.afterLine line) lines).documents[j]? = some d →
        d.position = position.after (line ++ (readAt (position.afterLine line) lines).before lines j) ∧
          ∃ marked rest, (lines.filter Marker.isMarkerLine)[j]? = some marked ∧ Marker.parse? marked = some d.toMarker ∧
            line ++ (readAt (position.afterLine line) lines).before lines j ++ marked ++ d.body ++ rest
              = (line :: lines).flatten := by
      intro j hj
      obtain ⟨hposition, marked, rest, hmarked, hmarks, hflat⟩ := placed_readAt htail hj
      refine ⟨?_, marked, rest, hmarked, hmarks, ?_⟩
      · rw [hposition, afterLine_of_document hcut hj, Position.after_append]
      · rw [List.flatten_cons, ← hflat]
        simp only [List.append_assoc]
    cases h : Marker.parse? line with
    | none =>
      rw [readAt_plain position h] at hd
      rw [before_plain position h, List.filter_cons_of_neg (by simp [Marker.isMarkerLine, h])]
      exact hrec hd
    | some marker =>
      rw [List.filter_cons_of_pos (by simp [Marker.isMarkerLine, h])]
      cases i with
      | zero =>
        have hwhole := preamble_append_pieces lines (position.afterLine line)
        rw [readAt_marker position h, List.getElem?_cons_zero, Option.some.injEq] at hd
        subst hd
        have hbefore : (readAt position (line :: lines)).before (line :: lines) 0 = [] := by
          rw [before, readAt_marker position h, List.take_zero]
          rfl
        rw [hbefore, Position.after_nil]
        refine ⟨rfl, line, ((readAt (position.afterLine line) lines).pieces lines).flatten, rfl, h, ?_⟩
        rw [List.nil_append, List.append_assoc, hwhole, List.flatten_cons]
      | succ i =>
        rw [readAt_marker position h, List.getElem?_cons_succ] at hd
        rw [before_marker position h, List.getElem?_cons_succ]
        exact hrec hd

theorem parse?_of_mem_preamble {lines : List Text} (hcut : WellCut lines) (position : Position) :
    ∀ line ∈ Text.lines (readAt position lines).preamble, Marker.parse? line = none := by
  have hsplit := List.takeWhile_append_dropWhile (p := fun line => !Marker.isMarkerLine line) (l := lines)
  rw [preamble_readAt, lines_flatten (WellCut.left (hsplit ▸ hcut))]
  intro line hline
  have := List.all_eq_true.1 List.all_takeWhile line hline
  rw [Bool.not_eq_true'] at this
  exact Marker.isMarkerLine_eq_false.1 this

theorem parse?_of_mem_body {lines : List Text} (hcut : WellCut lines) {position : Position} {d : Document}
    (hd : d ∈ (readAt position lines).documents) : ∀ line ∈ Text.lines d.body, Marker.parse? line = none := by
  obtain ⟨s, rfl⟩ := mem_documents_readAt.1 hd
  have hbody : WellCut s.body := by
    have := s.lines_eq ▸ hcut
    exact WellCut.left (WellCut.right (a := [s.line]) (WellCut.right this))
  intro line hline
  rw [Section.document, lines_flatten hbody] at hline
  exact s.plain line hline

/-- **A stream that is its text, cut at the marker lines.** -/
structure Partition (text : Text) (stream : Stream) : Prop where
  /-- The documents declare what the marker lines of the text declare, in order. -/
  declared : stream.documents.map Document.toMarker = text.lines.filterMap Marker.parse?
  /-- The preamble and each marker line with its body are the text. -/
  whole : stream.preamble ++ (stream.pieces text.lines).flatten = text
  /-- The place of a document counts the bytes and the line feeds in front of its marker line. -/
  placed : ∀ i d, stream.documents[i]? = some d →
    d.position.offset = (stream.before text.lines i).byteLength ∧
      d.position.line = 1 + (stream.before text.lines i).count '\n'
  /-- Its marker line stands there, and behind it the body. -/
  begins : ∀ i d, stream.documents[i]? = some d →
    ∃ line rest, (text.lines.filter Marker.isMarkerLine)[i]? = some line ∧ Marker.parse? line = some d.toMarker ∧
      stream.before text.lines i ++ line ++ d.body ++ rest = text
  preamble_plain : ∀ line ∈ Text.lines stream.preamble, Marker.parse? line = none
  body_plain : ∀ d ∈ stream.documents, ∀ line ∈ Text.lines d.body, Marker.parse? line = none
  /-- Only a text without documents is its own preamble. -/
  preamble_eq_iff : stream.preamble = text ↔ stream.documents = []

theorem preamble_eq_flatten_iff {lines : List Text} (hcut : WellCut lines) (position : Position) :
    (readAt position lines).preamble = lines.flatten ↔ (readAt position lines).documents = [] := by
  constructor
  · intro h
    cases hdocuments : (readAt position lines).documents with
    | nil => rfl
    | cons d more =>
      obtain ⟨-, line, rest, -, hmarks, hflat⟩ := placed_readAt (i := 0) (d := d) hcut (by rw [hdocuments]; rfl)
      rw [before, List.take_zero, List.flatten_nil, List.append_nil, ← h, List.append_assoc, List.append_assoc,
        List.append_right_eq_self, List.append_eq_nil_iff] at hflat
      exact absurd hflat.1 (Marker.ne_nil_of_parse? hmarks)
  · intro h
    rw [← preamble_append_pieces lines position, pieces, h, List.zipWith_nil_right, List.flatten_nil, List.append_nil]

/-- **The cut of a text loses nothing and adds nothing**: every slice that one pass takes exists, and the stream that it
returns is a partition of the text. -/
theorem scan?_partition (text : Text) : scan? text = some (ofText text) ∧ Partition text (ofText text) := by
  have hcut := wellCut_lines text
  have hflat := flatten_lines text
  refine ⟨scan?_eq text, ?_⟩
  exact {
    declared := markers_readAt _ _
    whole := by
      have := preamble_append_pieces text.lines .start
      rwa [hflat] at this
    placed := by
      intro i d hd
      obtain ⟨hposition, -⟩ := placed_readAt hcut hd
      rw [hposition]
      exact ⟨Nat.zero_add _, rfl⟩
    begins := by
      intro i d hd
      obtain ⟨-, line, rest, hline, hmarks, hwhole⟩ := placed_readAt hcut hd
      exact ⟨line, rest, hline, hmarks, hwhole.trans hflat⟩
    preamble_plain := parse?_of_mem_preamble hcut .start
    body_plain := fun d hd => parse?_of_mem_body hcut hd
    preamble_eq_iff := by
      have := preamble_eq_flatten_iff hcut .start
      rwa [hflat] at this }

end Stream
end AssetIntegrity
