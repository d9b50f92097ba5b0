import AssetIntegrity.Proofs.Text.Lines
import AssetIntegrity.Stream.Basic
/-!
# Sections — the documents of a stream, seen on its lines

A stream is read from lines, the first of them at a given place (`Stream.readAt`).  In two parts:
- the preamble is what stands before the first marker line (`preamble_readAt`), and the documents declare what the
  marker lines declare, in order (`markers_readAt`);
- the documents are exactly the sections of the lines, a marker line with the lines behind it up to the next one
  (`mem_documents_readAt`).
-/
namespace AssetIntegrity

open Text

/-- Whether a line begins a document. -/
def Marker.isMarkerLine (line : Text) : Bool := (Marker.parse? line).isSome

theorem Marker.isMarkerLine_eq_false {line : Text} : isMarkerLine line = false ↔ Marker.parse? line = none := by
  unfold isMarkerLine
  rw [Option.isSome_eq_false_iff, Option.isNone_iff_eq_none]

theorem Marker.ne_nil_of_parse? {line : Text} {marker : Marker} (h : Marker.parse? line = some marker) : line ≠ [] := by
  rintro rfl
  cases h

/-- What stands in front of the first marker line of a text. -/
def Text.aboveMarkers (text : Text) : Text := (text.lines.takeWhile fun line => !Marker.isMarkerLine line).flatten

theorem Text.prefix_aboveMarkers (text : Text) : text.aboveMarkers <+: text := by
  have hsplit := List.takeWhile_append_dropWhile (p := fun line => !Marker.isMarkerLine line) (l := text.lines)
  refine ⟨(text.lines.dropWhile fun line => !Marker.isMarkerLine line).flatten, ?_⟩
  rw [aboveMarkers, ← List.flatten_append, hsplit, flatten_lines]

/-- The ids on the marker lines of a text, in order. -/
def Text.declaredIds (text : Text) : List String := (text.lines.filterMap Marker.parse?).map (·.id)

namespace Stream

/-- The stream of lines, the first of which begins at `position`. -/
def readAt (position : Position) (lines : List Text) : Stream := ofLines (Line.locate position lines) empty

theorem readAt_nil (position : Position) : readAt position [] = empty := rfl

theorem readAt_marker (position : Position) {line : Text} {marker : Marker} (h : Marker.parse? line = some marker)
    (lines : List Text) :
    readAt position (line :: lines) =
      ⟨[], ⟨marker, position, (readAt (position.afterLine line) lines).preamble⟩
        :: (readAt (position.afterLine line) lines).documents⟩ := by
  unfold readAt
  rw [Line.locate, ofLines, List.foldr_cons, cons, h]
  rfl

theorem readAt_plain (position : Position) {line : Text} (h : Marker.parse? line = none) (lines : List Text) :
    readAt position (line :: lines) =
      ⟨line ++ (readAt (position.afterLine line) lines).preamble,
        (readAt (position.afterLine line) lines).documents⟩ := by
  unfold readAt
  rw [Line.locate, ofLines, List.foldr_cons, cons, h]
  rfl

theorem readAt_singleton_marker (position : Position) {line : Text} {marker : Marker}
    (h : Marker.parse? line = some marker) : readAt position [line] = ⟨[], [⟨marker, position, []⟩]⟩ :=
  readAt_marker position h []

theorem readAt_singleton_plain (position : Position) {line : Text} (h : Marker.parse? line = none) :
    readAt position [line] = ⟨line, []⟩ := by
  rw [readAt_plain position h, readAt_nil, empty, List.append_nil]

/-- **The preamble is what stands before the first marker line.** -/
theorem preamble_readAt : ∀ (lines : List Text) (position : Position),
    (readAt position lines).preamble = (lines.takeWhile fun line => !Marker.isMarkerLine line).flatten
  | [], _ => rfl
  | line :: lines, position => by
    cases h : Marker.parse? line with
    | some marker => rw [readAt_marker position h, List.takeWhile_cons_of_neg (by simp [Marker.isMarkerLine, h])]; rfl
    | none =>
      rw [readAt_plain position h, List.takeWhile_cons_of_pos (by simp [Marker.isMarkerLine, h]), List.flatten_cons,
        preamble_readAt lines]

/-- **The documents declare what the marker lines declare**, in order. -/
theorem markers_readAt : ∀ (lines : List Text) (position : Position),
    (readAt position lines).documents.map Document.toMarker = lines.filterMap Marker.parse?
  | [], _ => rfl
  | line :: lines, position => by
    cases h : Marker.parse? line with
    | some marker => rw [readAt_marker position h, List.map_cons, List.filterMap_cons_some h, markers_readAt lines]
    | none => rw [readAt_plain position h, List.filterMap_cons_none h, markers_readAt lines]

theorem preamble_ofText (text : Text) : (ofText text).preamble = text.aboveMarkers := preamble_readAt text.lines .start

theorem ids_ofText (text : Text) : (ofText text).documents.map (·.id) = text.declaredIds := by
  unfold Text.declaredIds
  rw [← markers_readAt text.lines .start, List.map_map]
  rfl

end Stream

/-- **A section of lines**: a marker line, and the lines behind it up to the next marker line or the end. -/
structure Section (lines : List Text) where
  front : List Text
  line : Text
  body : List Text
  rest : List Text
  marker : Marker
  lines_eq : lines = front ++ line :: (body ++ rest)
  marks : Marker.parse? line = some marker
  plain : ∀ l ∈ body, Marker.parse? l = none
  stops : ∀ l ∈ rest.head?, Marker.isMarkerLine l = true

namespace Section

/-- The document of a section, when the lines begin at `position`. -/
def document {lines : List Text} (s : Section lines) (position : Position) : Document :=
  ⟨s.marker, position.afterLines s.front, s.body.flatten⟩

/-- The section of a marker line that stands in front of lines. -/
def first {line : Text} {marker : Marker} (h : Marker.parse? line = some marker) (lines : List Text) :
    Section (line :: lines) where
  front := []
  line := line
  body := lines.takeWhile fun l => !Marker.isMarkerLine l
  rest := lines.dropWhile fun l => !Marker.isMarkerLine l
  marker := marker
  lines_eq := by rw [List.takeWhile_append_dropWhile]; rfl
  marks := h
  plain := by
    intro l hl
    have := List.all_eq_true.1 List.all_takeWhile l hl
    rw [Bool.not_eq_true'] at this
    exact Marker.isMarkerLine_eq_false.1 this
  stops := by
    intro l hl
    have := List.head?_dropWhile_not (fun l => !Marker.isMarkerLine l) lines
    rw [Option.mem_def.1 hl] at this
    simpa using this

/-- The same section with one more line in front of all lines. -/
def shift {lines : List Text} (s : Section lines) (line : Text) : Section (line :: lines) :=
  { s with front := line :: s.front, lines_eq := congrArg (line :: ·) s.lines_eq }

theorem takeWhile_eq_body {lines : List Text} (s : Section lines) :
    ((s.body ++ s.rest).takeWhile fun l => !Marker.isMarkerLine l) = s.body := by
  have hbody : ∀ l ∈ s.body, (!Marker.isMarkerLine l) = true := by
    intro l hl
    rw [Bool.not_eq_true', Marker.isMarkerLine_eq_false]
    exact s.plain l hl
  rw [List.takeWhile_append_of_pos hbody]
  cases hrest : s.rest with
  | nil => rw [List.takeWhile_nil, List.append_nil]
  | cons l more =>
    have hl : Marker.isMarkerLine l = true := s.stops l (by rw [hrest]; rfl)
    rw [List.takeWhile_cons_of_neg (by rw [hl]; decide), List.append_nil]

end Section

namespace Stream

/-- **The documents are the sections of the lines.** -/
theorem mem_documents_readAt {d : Document} : ∀ {lines : List Text} {position : Position},
    d ∈ (readAt position lines).documents ↔ ∃ s : Section lines, s.document position = d
  | [], position => by
    constructor
    · intro h
      cases h
    · rintro ⟨s, -⟩
      have := s.lines_eq
      rw [List.nil_eq, List.append_eq_nil_iff] at this
      cases this.2
  | line :: lines, position => by
    have ih : d ∈ (readAt (position.afterLine line) lines).documents ↔
        ∃ s : Section lines, s.document (position.afterLine line) = d := mem_documents_readAt
    constructor
    · intro h
      cases hm : Marker.parse? line with
      | some marker =>
        rw [readAt_marker position hm, List.mem_cons] at h
        rcases h with rfl | h
        · refine ⟨Section.first hm lines, ?_⟩
          rw [preamble_readAt]
          rfl
        · obtain ⟨s, rfl⟩ := ih.1 h
          exact ⟨s.shift line, rfl⟩
      | none =>
        rw [readAt_plain position hm] at h
        obtain ⟨s, rfl⟩ := ih.1 h
        exact ⟨s.shift line, rfl⟩
    · rintro ⟨⟨front, l, body, rest, marker, hlines, marks, plain, stops⟩, rfl⟩
      cases front with
      | nil =>
        -- the section begins at the first line, which is therefore a marker line
        obtain ⟨rfl, rfl⟩ := List.cons.inj hlines
        have hbody := Section.takeWhile_eq_body ⟨[], line, body, rest, marker, hlines, marks, plain, stops⟩
        rw [readAt_marker position marks, preamble_readAt, hbody]
        exact List.mem_cons_self
      | cons l' front =>
        obtain ⟨rfl, hrest⟩ := List.cons.inj hlines
        have hmem := ih.2 ⟨⟨front, l, body, rest, marker, hrest, marks, plain, stops⟩, rfl⟩
        cases hm : Marker.parse? line with
        | some first =>
          rw [readAt_marker position hm]
          exact List.mem_cons_of_mem _ hmem
        | none =>
          rw [readAt_plain position hm]
          exact hmem

end Stream
end AssetIntegrity
