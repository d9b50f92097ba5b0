import AssetIntegrity.Text.Lines
import Mathlib.Data.List.Induction
/-!
# Lines — the cut after each line feed, characterised

`lines` is the only way to cut a text into lines that are not empty, where a line feed ends its line and every line but
the last has one (`wellCut_lines`, `lines_flatten`).  Every run of consecutive lines is such a cut of its own text
(`WellCut.left`, `WellCut.right`), and the number of a line is one more than the number of line feeds in front of it
(`Position.afterLine_eq_after`).
-/
namespace AssetIntegrity
namespace Text

/-- **Lines as a text is cut into them**: a line feed stands at the end of a line only, and every line but the last
has one. -/
structure WellCut (lines : List Text) : Prop where
  nonempty : ∀ line ∈ lines, line ≠ []
  unbroken : ∀ line ∈ lines, '\n' ∉ line.dropLast
  ended : ∀ line ∈ lines.dropLast, EndsLine line

theorem EndsLine.cons {line : Text} (h : EndsLine line) (hne : line ≠ []) (c : Char) : EndsLine (c :: line) := by
  rcases h with rfl | ⟨front, rfl⟩
  · exact absurd rfl hne
  · exact .inr ⟨c :: front, rfl⟩

theorem endsLine_iff {text : Text} : EndsLine text ↔ text.getLast?.all (· = '\n') = true := by
  rcases List.eq_nil_or_concat text with rfl | ⟨front, c, rfl⟩ <;> simp [EndsLine]

theorem endsLine_concat_iff {front : Text} {c : Char} : EndsLine (front ++ [c]) ↔ c = '\n' := by
  rw [endsLine_iff, List.getLast?_concat, Option.all_some, decide_eq_true_eq]

instance : DecidablePred EndsLine := fun _ => decidable_of_iff _ endsLine_iff.symm

/-- **A text is whole lines and an open line behind them**, which may be empty. -/
theorem exists_endsLine_append (text : Text) : ∃ front line, text = front ++ line ∧ EndsLine front ∧ '\n' ∉ line := by
  induction text using List.reverseRecOn with
  | nil => exact ⟨[], [], rfl, .inl rfl, List.not_mem_nil⟩
  | append_singleton text c ih =>
    obtain ⟨front, line, rfl, hfront, hline⟩ := ih
    by_cases hc : c = '\n'
    · exact ⟨front ++ line ++ [c], [], (List.append_nil _).symm, .inr ⟨front ++ line, by rw [hc]⟩, List.not_mem_nil⟩
    · refine ⟨front, line ++ [c], List.append_assoc front line [c], hfront, ?_⟩
      rw [List.mem_append, List.mem_singleton, not_or]
      exact ⟨hline, Ne.symm hc⟩

theorem wellCut_nil : WellCut [] where
  nonempty := fun _ hl => nomatch hl
  unbroken := fun _ hl => nomatch hl
  ended := fun _ hl => nomatch hl

theorem wellCut_singleton {line : Text} (hne : line ≠ []) (h : '\n' ∉ line.dropLast) : WellCut [line] where
  nonempty := fun _ hl => List.mem_singleton.1 hl ▸ hne
  unbroken := fun _ hl => List.mem_singleton.1 hl ▸ h
  ended := fun _ hl => nomatch hl

theorem wellCut_cons {line : Text} {more : List Text} (hne : line ≠ []) (h : '\n' ∉ line.dropLast)
    (hend : EndsLine line) (hmore : WellCut more) : WellCut (line :: more) where
  nonempty := List.forall_mem_cons.2 ⟨hne, hmore.nonempty⟩
  unbroken := List.forall_mem_cons.2 ⟨h, hmore.unbroken⟩
  ended := by
    cases more with
    | nil => intro l hl; cases hl
    | cons next more =>
      rw [List.dropLast_cons_cons]
      exact List.forall_mem_cons.2 ⟨hend, hmore.ended⟩

theorem WellCut.left {a b : List Text} (h : WellCut (a ++ b)) : WellCut a where
  nonempty := fun l hl => h.nonempty l (List.mem_append_left b hl)
  unbroken := fun l hl => h.unbroken l (List.mem_append_left b hl)
  ended := by
    intro l hl
    apply h.ended
    rw [List.dropLast_append]
    split
    · exact hl
    · exact List.mem_append_left _ ((List.dropLast_sublist a).subset hl)

theorem WellCut.right {a b : List Text} (h : WellCut (a ++ b)) : WellCut b where
  nonempty := fun l hl => h.nonempty l (List.mem_append_right a hl)
  unbroken := fun l hl => h.unbroken l (List.mem_append_right a hl)
  ended := by
    intro l hl
    apply h.ended
    rw [List.dropLast_append]
    split
    · rename_i hb
      rw [List.isEmpty_iff.1 hb] at hl
      cases hl
    · exact List.mem_append_right a hl

theorem WellCut.endsLine_of_append {a b : List Text} (h : WellCut (a ++ b)) (hb : b ≠ []) :
    ∀ line ∈ a, EndsLine line := by
  intro l hl
  apply h.ended
  rw [List.dropLast_append_of_ne_nil hb]
  exact List.mem_append_left _ hl

/-- **A word without a line feed that a text begins with stands in its first line.** -/
theorem WellCut.prefix_of_flatten {line word : Text} {more : List Text} (hcut : WellCut (line :: more))
    (hword : '\n' ∉ word) (h : word <+: (line :: more).flatten) : word <+: line := by
  have hline : line <+: (line :: more).flatten := ⟨more.flatten, rfl⟩
  rcases List.prefix_or_prefix_of_prefix h hline with hfits | hlong
  · exact hfits
  · cases more with
    | nil => rwa [List.flatten_cons, List.flatten_nil, List.append_nil] at h
    | cons next more =>
      -- a longer word would run over the line feed of the first line
      have hend := WellCut.endsLine_of_append (a := [line]) hcut (List.cons_ne_nil next more) line List.mem_cons_self
      rcases hend with rfl | ⟨front, rfl⟩
      · exact absurd rfl (hcut.nonempty [] List.mem_cons_self)
      · exact absurd (hlong.subset (List.mem_append_right front List.mem_cons_self)) hword

theorem wellCut_lines (text : Text) : WellCut (lines text) := by
  induction text with
  | nil => exact wellCut_nil
  | cons c text ih =>
    rw [lines]
    split
    · exact wellCut_cons (List.cons_ne_nil _ _) (List.not_mem_nil) (.inr ⟨[], rfl⟩) ih
    · rename_i hc
      split
      · exact wellCut_singleton (List.cons_ne_nil _ _) (List.not_mem_nil)
      · rename_i line more h
        rw [h] at ih
        have hne : line ≠ [] := ih.nonempty line List.mem_cons_self
        have hunbroken : '\n' ∉ (c :: line).dropLast := by
          rw [List.dropLast_cons_of_ne_nil hne, List.mem_cons, not_or]
          exact ⟨fun e => hc e.symm, ih.unbroken line List.mem_cons_self⟩
        cases more with
        | nil => exact wellCut_singleton (List.cons_ne_nil _ _) hunbroken
        | cons next more =>
          have hend : EndsLine line := ih.ended line List.mem_cons_self
          exact wellCut_cons (List.cons_ne_nil _ _) hunbroken (hend.cons hne c) (WellCut.right (a := [line]) ih)

theorem lines_singleton : ∀ {line : Text}, line ≠ [] → '\n' ∉ line.dropLast → lines line = [line]
  | [], hne, _ => absurd rfl hne
  | [c], _, _ => by
    rw [lines]
    split
    · rename_i hc
      rw [hc]
      rfl
    · rfl
  | c :: d :: rest, _, h => by
    rw [List.dropLast_cons_cons, List.mem_cons, not_or] at h
    rw [lines, if_neg (fun e => h.1 e.symm), lines_singleton (List.cons_ne_nil d rest) h.2]

/-- **A good cut of a text is the cut into its lines.** -/
theorem lines_flatten {cut : List Text} (h : WellCut cut) : lines cut.flatten = cut := by
  induction cut with
  | nil => rfl
  | cons line more ih =>
    have hline : lines line = [line] :=
      lines_singleton (h.nonempty line List.mem_cons_self) (h.unbroken line List.mem_cons_self)
    cases more with
    | nil => rw [List.flatten_cons, List.flatten_nil, List.append_nil, hline]
    | cons next more =>
      have hmore : WellCut (next :: more) := WellCut.right (a := [line]) h
      have hend : EndsLine line := h.ended line List.mem_cons_self
      rw [List.flatten_cons, lines_append hend, hline, ih hmore]
      rfl

/-- **A line feed counts one line**: a line that has its line feed has no other. -/
theorem count_of_endsLine {line : Text} (hne : line ≠ []) (h : '\n' ∉ line.dropLast) (hend : EndsLine line) :
    line.count '\n' = 1 := by
  rcases hend with rfl | ⟨front, rfl⟩
  · exact absurd rfl hne
  · rw [List.dropLast_concat] at h
    rw [List.count_append, List.count_eq_zero_of_not_mem h]
    rfl

end Text

namespace Position

open Text

/-- The place behind a text. -/
def after (position : Position) (text : Text) : Position :=
  ⟨position.offset + text.byteLength, position.line + text.count '\n'⟩

/-- The place behind lines, counted line by line. -/
def afterLines (position : Position) (lines : List Text) : Position := lines.foldl afterLine position

theorem after_nil (position : Position) : position.after [] = position := rfl

theorem after_append (position : Position) (a b : Text) : position.after (a ++ b) = (position.after a).after b := by
  simp only [after, byteLength_append, List.count_append, Nat.add_assoc]

/-- **Counting by lines is counting line feeds**, as long as the line has its own. -/
theorem afterLine_eq_after (position : Position) {line : Text} (hne : line ≠ []) (h : '\n' ∉ line.dropLast)
    (hend : EndsLine line) : position.afterLine line = position.after line := by
  unfold afterLine after
  rw [count_of_endsLine hne h hend]

end Position
end AssetIntegrity
