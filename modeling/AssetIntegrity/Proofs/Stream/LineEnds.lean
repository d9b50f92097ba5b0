import AssetIntegrity.Proofs.Stream.Join
import AssetIntegrity.Proofs.Text.LineEnds
import Mathlib.Data.List.DropRight
/-!
# Line ends — the streams of a text and of its rewritings

A carriage return in front of every line feed keeps the marker lines, moves each document down by one byte for every
line above it and rewrites its body (`Stream.ofText_crlf`).  A line feed at the end of a text ends the last line or is a
line of its own, so the open body takes it or nothing changes (`Stream.ofText_append_newline`).
-/
namespace AssetIntegrity

open Text

namespace Marker

/-- **The line ends behind a line do not matter** for what it declares. -/
theorem parse?_concat (line : Text) {e : Char} (he : isLineEnd e = true) : parse? (line ++ [e]) = parse? line := by
  have htrim : trimLineEnd (line ++ [e]) = trimLineEnd line := List.rdropWhile_concat_pos isLineEnd line e he
  unfold parse?
  rw [htrim]

theorem parse?_crlf {line : Text} (h : '\n' ∉ line.dropLast) : parse? (crlf line) = parse? line := by
  cases line using List.reverseRecOn with
  | nil => rfl
  | append_singleton front c =>
    rw [List.dropLast_concat] at h
    rw [crlf_append, crlf_of_not_mem h]
    by_cases hc : c = '\n'
    · subst hc
      have hsplit : front ++ crlf ['\n'] = (front ++ ['\r']) ++ ['\n'] := by
        rw [List.append_assoc]
        rfl
      rw [hsplit, parse?_concat _ (by decide), parse?_concat _ (by decide), parse?_concat _ (by decide)]
    · rw [crlf_cons hc]
      rfl

end Marker

/-! ## A carriage return in front of every line feed -/

/-- Where a place is found once a carriage return stands in front of every line feed. -/
def Position.crlf (position : Position) : Position := ⟨position.offset + (position.line - 1), position.line⟩

def Document.crlf (document : Document) : Document :=
  { document with position := document.position.crlf, body := Text.crlf document.body }

theorem Position.crlf_afterLine {position : Position} (hposition : 1 ≤ position.line) {line : Text}
    (h : line.count '\n' = 1) : position.crlf.afterLine (Text.crlf line) = (position.afterLine line).crlf := by
  have hoffset : position.offset + (position.line - 1) + (line.byteLength + 1) =
      position.offset + line.byteLength + (position.line + 1 - 1) := by omega
  unfold crlf afterLine
  rw [byteLength_crlf, h, hoffset]

namespace Stream

theorem readAt_crlf : ∀ {lines : List Text} {position : Position}, WellCut lines → 1 ≤ position.line →
    readAt position.crlf (lines.map Text.crlf) =
      ⟨Text.crlf (readAt position lines).preamble, (readAt position lines).documents.map Document.crlf⟩
  | [], _, _, _ => rfl
  | line :: lines, position, hcut, hposition => by
    have hmore : WellCut lines := WellCut.right (a := [line]) hcut
    have hunbroken : '\n' ∉ line.dropLast := hcut.unbroken line List.mem_cons_self
    have ih : readAt (position.crlf.afterLine (Text.crlf line)) (lines.map Text.crlf) =
        ⟨Text.crlf (readAt (position.afterLine line) lines).preamble,
          (readAt (position.afterLine line) lines).documents.map Document.crlf⟩ := by
      cases lines with
      | nil =>
        -- Nothing stands behind the last line, which may lack its line feed.
        rfl
      | cons next lines =>
        have hend := WellCut.endsLine_of_append (a := [line]) hcut (List.cons_ne_nil next lines) line List.mem_cons_self
        have hcount := count_of_endsLine (hcut.nonempty line List.mem_cons_self) hunbroken hend
        rw [Position.crlf_afterLine hposition hcount]
        exact readAt_crlf hmore (Nat.le_succ_of_le hposition)
    have hline := Marker.parse?_crlf hunbroken
    rw [List.map_cons]
    cases h : Marker.parse? line with
    | some marker =>
      rw [readAt_marker _ (hline.trans h), readAt_marker _ h, ih]
      rfl
    | none =>
      rw [readAt_plain _ (hline.trans h), readAt_plain _ h, ih, crlf_append]

/-- **The stream of a text with `\r\n` for each line feed.** -/
theorem ofText_crlf (text : Text) :
    ofText (Text.crlf text) = ⟨Text.crlf (ofText text).preamble, (ofText text).documents.map Document.crlf⟩ := by
  have h := readAt_crlf (wellCut_lines text) (show 1 ≤ Position.start.line from Nat.le_refl 1)
  rw [← lines_crlf] at h
  exact h

/-! ## A line feed at the end -/

/-- **A line feed behind a line** ends it: a marker line declares what it declared, and any other line grows. -/
theorem readAt_line_append_newline (position : Position) {line : Text} (h : '\n' ∉ line) :
    ∃ behind, (behind = [] ∨ behind = ['\n']) ∧
      readAt position (line ++ ['\n']).lines = (readAt position line.lines).join ⟨behind, []⟩ := by
  have hended : (line ++ ['\n']).lines = [line ++ ['\n']] :=
    lines_singleton (List.concat_ne_nil '\n' line) (by rwa [List.dropLast_concat])
  have hparse : Marker.parse? (line ++ ['\n']) = Marker.parse? line := Marker.parse?_concat line (by decide)
  rw [hended]
  by_cases hline : line = []
  · subst hline
    exact ⟨['\n'], .inr rfl, readAt_singleton_plain position rfl⟩
  · rw [lines_singleton hline fun hmem => h (List.dropLast_subset line hmem)]
    cases hmarker : Marker.parse? line with
    | some marker =>
      refine ⟨[], .inl rfl, ?_⟩
      rw [readAt_singleton_marker position hmarker, readAt_singleton_marker position (hparse.trans hmarker)]
      exact (join_empty _).symm
    | none =>
      refine ⟨['\n'], .inr rfl, ?_⟩
      rw [readAt_singleton_plain position hmarker, readAt_singleton_plain position (hparse.trans hmarker), join_of_nil]

/-- **The stream of a text with one more line feed** has the line feed where the text was open, or nowhere. -/
theorem ofText_append_newline (text : Text) :
    ∃ behind, (behind = [] ∨ behind = ['\n']) ∧ ofText (text ++ ['\n']) = (ofText text).join ⟨behind, []⟩ := by
  obtain ⟨front, line, rfl, hfront, hline⟩ := exists_endsLine_append text
  obtain ⟨behind, hbehind, h⟩ := readAt_line_append_newline (Position.start.afterLines front.lines) hline
  refine ⟨behind, hbehind, ?_⟩
  have hsplit : ∀ more : Text, ofText (front ++ more) =
      (readAt .start front.lines).join (readAt (Position.start.afterLines front.lines) more.lines) := by
    intro more
    rw [← readAt_append, ← lines_append hfront]
    rfl
  rw [List.append_assoc, hsplit, hsplit, h, join_assoc]

end Stream
end AssetIntegrity
