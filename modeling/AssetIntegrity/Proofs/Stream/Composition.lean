import AssetIntegrity.Proofs.Stream.Partition
/-!
# Composition — the stream of two texts, one behind the other

A text of whole lines and any text behind it are read one by one (`Stream.ofText_append_eq_join`): the documents of the
second are found further down, by the bytes and the lines of the first, and what stands in front of them continues
what the first leaves open (`Stream.ofText_append`).
-/
namespace AssetIntegrity

open Text

namespace Text

/-- **Whole lines**: each line of a text that ends with its last line has its line feed. -/
theorem EndsLine.of_mem_lines {a : Text} (h : EndsLine a) : ∀ line ∈ a.lines, EndsLine line := by
  -- a line behind the text leaves every line of the text in front of another one
  have hcut := wellCut_lines (a ++ [' '])
  rw [lines_append h] at hcut
  exact hcut.endsLine_of_append (List.cons_ne_nil _ _)

end Text

namespace Position

theorem afterLines_eq_after : ∀ {lines : List Text} (position : Position), WellCut lines →
    (∀ line ∈ lines, EndsLine line) → position.afterLines lines = position.after lines.flatten
  | [], position, _, _ => position.after_nil.symm
  | line :: lines, position, hcut, hends => by
    obtain ⟨hline, hlines⟩ := List.forall_mem_cons.1 hends
    have hfirst : position.afterLine line = position.after line :=
      position.afterLine_eq_after (hcut.nonempty line List.mem_cons_self) (hcut.unbroken line List.mem_cons_self) hline
    rw [afterLines, List.foldl_cons, hfirst, List.flatten_cons, after_append]
    exact afterLines_eq_after (position.after line) (WellCut.right (a := [line]) hcut) hlines

theorem afterLines_lines (position : Position) {a : Text} (h : EndsLine a) :
    position.afterLines a.lines = position.after a := by
  rw [position.afterLines_eq_after (wellCut_lines a) h.of_mem_lines, flatten_lines]

theorem afterLine_after (position : Position) (line a : Text) :
    (position.after a).afterLine line = (position.afterLine line).after a := by
  simp only [after, afterLine, mk.injEq]
  omega

end Position

/-- The document as it is found when a text stands in front of its own. -/
def Document.behind (a : Text) (document : Document) : Document :=
  { document with position := document.position.after a }

namespace Stream

/-- The stream as it is found when a text stands in front of its own. -/
def behind (a : Text) (stream : Stream) : Stream := ⟨stream.preamble, stream.documents.map (Document.behind a)⟩

/-- **A text in front moves places** and changes nothing else. -/
theorem readAt_after (a : Text) : ∀ (lines : List Text) (position : Position),
    readAt (position.after a) lines = (readAt position lines).behind a
  | [], _ => rfl
  | line :: lines, position => by
    have ih : readAt ((position.after a).afterLine line) lines =
        (readAt (position.afterLine line) lines).behind a := by
      rw [Position.afterLine_after]
      exact readAt_after a lines (position.afterLine line)
    cases h : Marker.parse? line with
    | some marker =>
      rw [readAt_marker _ h, readAt_marker _ h, ih]
      rfl
    | none =>
      rw [readAt_plain _ h, readAt_plain _ h, ih]
      rfl

/-- **Texts are read one by one**, when the first consists of whole lines. -/
theorem ofText_append_eq_join {a : Text} (h : EndsLine a) (b : Text) :
    ofText (a ++ b) = (ofText a).join ((ofText b).behind a) := by
  have hread : ∀ text, ofText text = readAt .start text.lines := fun _ => rfl
  rw [hread, hread, hread, lines_append h, readAt_append, Position.afterLines_lines _ h, readAt_after]

/-- **Reading is compositional at line ends.**  When nothing is declared in the first of two texts, it stands in front
of the preamble of the second; otherwise that preamble continues the body of the last document of the first.  The
documents of the second follow, each with the bytes and the line feeds of the first added to its place.  These are the
streams that a pass by offsets returns. -/
theorem ofText_append {a : Text} (h : EndsLine a) (b : Text) :
    (scan? a = some (ofText a) ∧ scan? b = some (ofText b) ∧ scan? (a ++ b) = some (ofText (a ++ b))) ∧
    ((ofText a).documents = [] →
      ofText (a ++ b) =
        { preamble := a ++ (ofText b).preamble
          documents := (ofText b).documents.map fun d =>
            { d with position := ⟨d.position.offset + a.byteLength, d.position.line + a.count '\n'⟩ } }) ∧
    ∀ front last, (ofText a).documents = front ++ [last] →
      ofText (a ++ b) =
        { preamble := (ofText a).preamble
          documents := front ++ { last with body := last.body ++ (ofText b).preamble }
            :: (ofText b).documents.map fun d =>
              { d with position := ⟨d.position.offset + a.byteLength, d.position.line + a.count '\n'⟩ } } := by
  refine ⟨⟨scan?_eq a, scan?_eq b, scan?_eq (a ++ b)⟩, ?_⟩
  rw [ofText_append_eq_join h]
  constructor
  · intro hnone
    have hpreamble : (ofText a).preamble = a := by
      conv => rhs; rw [← flatten_lines a]
      exact (preamble_eq_flatten_iff (wellCut_lines a) .start).2 hnone
    rw [join, if_pos hnone, hpreamble]
    rfl
  · intro front last hlast
    have hstream : ofText a = ⟨(ofText a).preamble, front ++ [last]⟩ := by rw [← hlast]
    rw [hstream, join_of_concat]
    rfl

/-- The first text ends in the middle of a body, with characters of several bytes above, and the second goes on. -/
theorem ofText_append_open_body :
    EndsLine "é\n--- !u!1 &1\r\nä:\n".toList ∧
      ofText ("é\n--- !u!1 &1\r\nä:\n".toList ++ "  b\n--- !u!4 &-2 stripped".toList) =
        ⟨"é\n".toList, [⟨⟨"1", "1", false⟩, ⟨3, 2⟩, "ä:\n  b\n".toList⟩, ⟨⟨"4", "-2", true⟩, ⟨24, 5⟩, []⟩]⟩ ∧
      scan? ("é\n--- !u!1 &1\r\nä:\n".toList ++ "  b\n--- !u!4 &-2 stripped".toList) =
        some ⟨"é\n".toList, [⟨⟨"1", "1", false⟩, ⟨3, 2⟩, "ä:\n  b\n".toList⟩, ⟨⟨"4", "-2", true⟩, ⟨24, 5⟩, []⟩]⟩ := by
  have hended : EndsLine "é\n--- !u!1 &1\r\nä:\n".toList := by decide
  obtain ⟨⟨-, -, hscan⟩, -, hbody⟩ := ofText_append hended "  b\n--- !u!4 &-2 stripped".toList
  have hstream := hbody [] ⟨⟨"1", "1", false⟩, ⟨3, 2⟩, "ä:\n".toList⟩ (by decide)
  rw [hscan, hstream]
  refine ⟨hended, ?_, congrArg some ?_⟩ <;> decide

end Stream
end AssetIntegrity
