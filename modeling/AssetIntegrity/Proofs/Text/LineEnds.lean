import AssetIntegrity.Proofs.Text.Reading
import AssetIntegrity.Text.Lines
/-!
# Line ends — a carriage return in front of every line feed

`crlf` writes each line feed as a carriage return and a line feed.  No word of a grammar holds either, a reader that
skips one skips both, and a reader that stops at one stops at both, so every reader goes through the rewritten text as
through the text (`dropWhile_crlf`, `takeWhile_crlf`, `after?_crlf`, `number?_crlf`), and the lines are the rewritten
lines (`lines_crlf`).
-/
namespace AssetIntegrity
namespace Text

/-- The text with `\r\n` for each line feed. -/
def crlf (text : Text) : Text := text.flatMap fun c => if c = '\n' then ['\r', '\n'] else [c]

theorem crlf_newline (text : Text) : crlf ('\n' :: text) = '\r' :: '\n' :: crlf text := rfl

theorem crlf_cons {c : Char} (hc : c ≠ '\n') (text : Text) : crlf (c :: text) = c :: crlf text := by
  unfold crlf
  rw [List.flatMap_cons, if_neg hc]
  rfl

theorem crlf_append (a b : Text) : crlf (a ++ b) = crlf a ++ crlf b := List.flatMap_append

theorem crlf_of_not_mem : ∀ {text : Text}, '\n' ∉ text → crlf text = text
  | [], _ => rfl
  | c :: text, h => by
    obtain ⟨hc, htext⟩ := not_or.1 (fun hmem => h (List.mem_cons.2 hmem))
    rw [crlf_cons (Ne.symm hc), crlf_of_not_mem htext]

theorem crlf_isEmpty (text : Text) : (crlf text).isEmpty = text.isEmpty := by
  cases text with
  | nil => rfl
  | cons c text =>
    by_cases hc : c = '\n'
    · subst hc
      rfl
    · rw [crlf_cons hc]
      rfl

/-! ## Readers -/

theorem dropWhile_crlf {p : Char → Bool} (hp : p '\r' = p '\n') : ∀ text : Text,
    (crlf text).dropWhile p = crlf (text.dropWhile p)
  | [] => rfl
  | c :: text => by
    by_cases hc : c = '\n'
    · subst hc
      cases h : p '\n' with
      | false => simp [crlf_newline, h, hp]
      | true => simp [crlf_newline, h, hp, dropWhile_crlf hp text]
    · cases h : p c with
      | false => simp [crlf_cons hc, h]
      | true => simp [crlf_cons hc, h, dropWhile_crlf hp text]

theorem takeWhile_crlf {p : Char → Bool} (hr : p '\r' = false) (hn : p '\n' = false) : ∀ text : Text,
    (crlf text).takeWhile p = text.takeWhile p
  | [] => rfl
  | c :: text => by
    by_cases hc : c = '\n'
    · subst hc
      simp [crlf_newline, hr, hn]
    · rw [crlf_cons hc, List.takeWhile_cons, List.takeWhile_cons, takeWhile_crlf hr hn text]

theorem skipSpace_crlf (text : Text) : skipSpace (crlf text) = crlf (skipSpace text) := dropWhile_crlf (by decide) text

theorem skipQuote_crlf (text : Text) : skipQuote (crlf text) = crlf (skipQuote text) := by
  cases text with
  | nil => rfl
  | cons c text =>
    by_cases hc : c = '\n'
    · subst hc
      rfl
    · rw [crlf_cons hc, skipQuote, skipQuote]
      split
      · rfl
      · rw [crlf_cons hc]

theorem after?_crlf : ∀ {word : Text}, '\r' ∉ word → '\n' ∉ word → ∀ text : Text,
    after? word (crlf text) = (after? word text).map crlf
  | [], _, _, _ => rfl
  | _ :: _, _, _, [] => rfl
  | w :: word, hr, hn, c :: text => by
    simp only [List.mem_cons, not_or] at hr hn
    by_cases hc : c = '\n'
    · subst hc
      have hwr : ¬ (w == '\r') = true := by simpa using Ne.symm hr.1
      have hwn : ¬ (w == '\n') = true := by simpa using Ne.symm hn.1
      rw [crlf_newline, after?_cons, after?_cons, if_neg hwr, if_neg hwn]
      rfl
    · rw [crlf_cons hc, after?_cons, after?_cons]
      split
      · exact after?_crlf hr.2 hn.2 text
      · rfl

theorem afterIgnoringCase?_crlf : ∀ {word : Text}, '\r' ∉ word → '\n' ∉ word → ∀ text : Text,
    afterIgnoringCase? word (crlf text) = (afterIgnoringCase? word text).map crlf
  | [], _, _, _ => rfl
  | _ :: _, _, _, [] => rfl
  | w :: word, hr, hn, c :: text => by
    simp only [List.mem_cons, not_or] at hr hn
    by_cases hc : c = '\n'
    · subst hc
      have hwr : ¬ '\r'.toLower = w := hr.1
      have hwn : ¬ '\n'.toLower = w := hn.1
      rw [crlf_newline, afterIgnoringCase?, afterIgnoringCase?, if_neg hwr, if_neg hwn]
      rfl
    · rw [crlf_cons hc, afterIgnoringCase?, afterIgnoringCase?]
      split
      · exact afterIgnoringCase?_crlf hr.2 hn.2 text
      · rfl

theorem digits?_crlf (text : Text) : digits? (crlf text) = (digits? text).map (Prod.map id crlf) := by
  cases text with
  | nil => rfl
  | cons c text =>
    by_cases hc : c = '\n'
    · subst hc
      rfl
    · rw [crlf_cons hc, digits?, digits?, takeWhile_crlf (by decide) (by decide), dropWhile_crlf (by decide)]
      split <;> rfl

theorem number?_crlf (text : Text) : number? (crlf text) = (number? text).map (Prod.map id crlf) := by
  cases text with
  | nil => rfl
  | cons c text =>
    by_cases hc : c = '\n'
    · subst hc
      rfl
    · by_cases hd : c = '-'
      · subst hd
        rw [crlf_cons (by decide), number?, number?, digits?_crlf]
        cases digits? text <;> rfl
      · have hdigits := digits?_crlf (c :: text)
        rw [crlf_cons hc] at hdigits ⊢
        rw [number?_of_ne hd, number?_of_ne hd, hdigits]

theorem splitOn_crlf : ∀ text : Text, (crlf text).splitOn ',' = (text.splitOn ',').map crlf
  | [] => rfl
  | c :: text => by
    have ih := splitOn_crlf text
    obtain ⟨piece, more, hpieces⟩ := List.exists_cons_of_ne_nil (List.splitOn_ne_nil ',' text)
    rw [hpieces, List.map_cons] at ih
    by_cases hc : c = '\n'
    · subst hc
      simp [crlf_newline, List.splitOn_cons_eq_if_modifyHead, ih, hpieces]
    · rw [crlf_cons hc, List.splitOn_cons_eq_if_modifyHead, List.splitOn_cons_eq_if_modifyHead, ih, hpieces]
      split
      · rfl
      · simp [crlf_cons hc]

/-! ## Words in a text -/

theorem isPrefixOf_eq_isSome (word text : Text) : word.isPrefixOf text = (after? word text).isSome := by
  rw [Bool.eq_iff_iff, List.isPrefixOf_iff_prefix, Option.isSome_iff_exists]
  simp only [after?_eq_some_iff]
  exact exists_congr fun rest => eq_comm

theorem isPrefixOf_crlf {word : Text} (hr : '\r' ∉ word) (hn : '\n' ∉ word) (text : Text) :
    word.isPrefixOf (crlf text) = word.isPrefixOf text := by
  rw [isPrefixOf_eq_isSome, isPrefixOf_eq_isSome, after?_crlf hr hn, Option.isSome_map]

theorem occursIn_crlf {word : Text} (hr : '\r' ∉ word) (hn : '\n' ∉ word) : ∀ text : Text,
    occursIn word (crlf text) = occursIn word text
  | [] => rfl
  | c :: text => by
    by_cases hc : c = '\n'
    · subst hc
      rw [crlf_newline, occursIn, occursIn, occursIn, occursIn_crlf hr hn text]
      cases word with
      | nil => rfl
      | cons w word =>
        simp only [List.mem_cons, not_or] at hr hn
        rw [List.isPrefixOf, List.isPrefixOf, List.isPrefixOf, beq_false_of_ne (Ne.symm hr.1),
          beq_false_of_ne (Ne.symm hn.1)]
        simp
    · have := isPrefixOf_crlf hr hn (c :: text)
      rw [crlf_cons hc] at this ⊢
      rw [occursIn, occursIn, this, occursIn_crlf hr hn text]

theorem isPrefixOf_append_newline {word : Text} (hn : '\n' ∉ word) (text : Text) :
    word.isPrefixOf (text ++ ['\n']) = word.isPrefixOf text := by
  rw [Bool.eq_iff_iff, List.isPrefixOf_iff_prefix, List.isPrefixOf_iff_prefix, List.prefix_concat_iff]
  refine or_iff_right ?_
  rintro rfl
  exact hn (List.mem_append_right text List.mem_cons_self)

theorem occursIn_append_newline {word : Text} (hn : '\n' ∉ word) (text : Text) :
    occursIn word (text ++ ['\n']) = occursIn word text := by
  rw [Bool.eq_iff_iff, occursIn_iff, occursIn_iff, List.infix_concat_iff, List.suffix_concat_iff]
  constructor
  · rintro ((rfl | ⟨front, rfl, -⟩) | h)
    · exact List.nil_infix
    · exact absurd (List.mem_append_right front List.mem_cons_self) hn
    · exact h
  · exact .inr

/-! ## Lines -/

theorem lines_crlf : ∀ text : Text, lines (crlf text) = (lines text).map crlf
  | [] => rfl
  | c :: text => by
    by_cases hc : c = '\n'
    · subst hc
      rw [crlf_newline, lines, if_neg (by decide), lines, if_pos rfl, lines_crlf text, lines, if_pos rfl]
      rfl
    · rw [crlf_cons hc, lines, lines, if_neg hc, if_neg hc, lines_crlf text]
      cases lines text with
      | nil => simp [crlf, hc]
      | cons line more => simp [crlf_cons hc]

theorem byteLength_crlf : ∀ text : Text, byteLength (crlf text) = byteLength text + text.count '\n'
  | [] => rfl
  | c :: text => by
    by_cases hc : c = '\n'
    · subst hc
      rw [crlf_newline, byteLength_cons, byteLength_cons, byteLength_cons, byteLength_crlf text, List.count_cons_self]
      have : Char.utf8Size '\r' = 1 := rfl
      omega
    · rw [crlf_cons hc, byteLength_cons, byteLength_cons, byteLength_crlf text, List.count_cons_of_ne hc, Nat.add_assoc]

end Text
end AssetIntegrity
