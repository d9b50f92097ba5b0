import AssetIntegrity.Pointer.Key
import AssetIntegrity.Proofs.Text.Pattern
/-!
# Keys as patterns — there is one way to read a key

A key and its colon as a pattern (`Pattern.key`), and that a search reads it as `afterKey?` does, whatever stands before
the text (`readings_key`).  No word begins with a quote and no gap holds a quote or a colon, so no part of a key can
take what the next part needs.  The classes of characters a grammar tells apart share no character: quotes, white space,
digits and the letters of a key.
-/
namespace AssetIntegrity
namespace Pattern

open Text

/-! ## Classes that do not meet -/

section

variable {p : Char → Bool} {c : Char}

theorem forall_isQuote {P : Char → Prop} (hdouble : P '"') (hsingle : P '\'') : ∀ c, isQuote c = true → P c := by
  intro c hc
  rw [isQuote, Bool.or_eq_true, decide_eq_true_eq, decide_eq_true_eq] at hc
  rcases hc with rfl | rfl
  · exact hdouble
  · exact hsingle

theorem eq_false_of_isQuote (hdouble : p '"' = false) (hsingle : p '\'' = false) (h : isQuote c = true) : p c = false :=
  forall_isQuote (P := fun c => p c = false) hdouble hsingle c h

theorem isQuote_eq_false (hdouble : p '"' = false) (hsingle : p '\'' = false) (h : p c = true) : isQuote c = false := by
  rw [Bool.eq_false_iff]
  exact fun hquote => absurd h (Bool.eq_false_iff.1 (eq_false_of_isQuote hdouble hsingle hquote))

theorem ne_of_class {d : Char} (hd : p d = false) (h : p c = true) : c ≠ d := by
  rintro rfl
  rw [hd] at h
  cases h

theorem toLower_ne_of_class (hlower : p 'g' = false) (hupper : p 'G' = false) (h : p c = true) : c.toLower ≠ 'g' :=
  fun hletter => (eq_of_toLower_eq hletter).elim (ne_of_class hlower h) (ne_of_class hupper h)

theorem isSpace_eq_false_of_isDecimalDigit (h : isDecimalDigit c = true) : isSpace c = false := by
  have hdisjoint : ∀ r ∈ spaceRanges, ∀ first ∈ decimalZeros, r.2 < first ∨ first + 10 ≤ r.1 := by decide
  rw [Bool.eq_false_iff]
  intro hspace
  obtain ⟨first, hfirst, hdigit⟩ := List.any_eq_true.1 h
  obtain ⟨r, hr, hspace⟩ := List.any_eq_true.1 hspace
  rw [Bool.and_eq_true, decide_eq_true_eq, decide_eq_true_eq] at hdigit hspace
  rcases hdisjoint r hr first hfirst with hlt | hle <;> omega

theorem isDecimalDigit_eq_false_of_isSpace (h : isSpace c = true) : isDecimalDigit c = false := by
  rw [Bool.eq_false_iff]
  exact fun hdigit => by simp [isSpace_eq_false_of_isDecimalDigit hdigit] at h

end

/-! ## The readings of a key -/

/-- An optional quote, a word, an optional quote, a gap and a colon. -/
def key (word : Pattern) (gap : Char → Bool) : Pattern := quote ++ word ++ quote ++ run gap ++ exactly [':']

theorem flatMap_toList {α β : Type} (o : Option α) (f : α → Option β) :
    o.toList.flatMap (fun a => (f a).toList) = (o.bind f).toList := by
  cases o with
  | none => rfl
  | some a => exact List.flatMap_singleton _ a

section

variable {whole : Text} {word : Pattern} {word? : Text → Option Text} {gap : Char → Bool}

/-- **A key is read in one way at most.** -/
theorem readings_key (hread : ∀ text, word.readings whole text = (word? text).toList)
    (hword : ∀ c text, isQuote c = true → word? (c :: text) = none) (hquote : ∀ c, isQuote c = true → gap c = false)
    (hcolon : gap ':' = false) (text : Text) :
    (key word gap).readings whole text = (afterKey? word? (List.dropWhile gap) text).toList := by
  have hgap : ∀ text, ((run gap).readings whole text).flatMap ((exactly [':']).readings whole) =
      (after? [':'] (text.dropWhile gap)).toList := by
    intro text
    rw [flatMap_run, readings_exactly]
    intro c text hc
    rw [readings_exactly, after?_cons_of_ne (ne_of_class hcolon hc)]
    rfl
  have hbehind : ∀ text, (quote.readings whole text).flatMap
      (fun text => ((run gap).readings whole text).flatMap ((exactly [':']).readings whole)) =
        (after? [':'] ((skipQuote text).dropWhile gap)).toList := by
    intro text
    simp only [hgap]
    rw [flatMap_quote]
    intro c text hc
    rw [List.dropWhile_cons_of_neg (by simp [hquote c hc]), after?_cons_of_ne (ne_of_class (by decide) hc)]
    rfl
  simp only [key, readings_append, List.flatMap_assoc, hbehind, hread, flatMap_toList]
  rw [flatMap_quote]
  · rfl
  · intro c text hc
    rw [hword c text hc]
    rfl

end

theorem afterIgnoringCase?_guidWord_cons {c : Char} (h : c.toLower ≠ 'g') (text : Text) :
    afterIgnoringCase? guidWord (c :: text) = none := by
  rw [guidWord, afterIgnoringCase?, if_neg h]

/-- **A key begins with a quote or its word.** -/
theorem afterKey?_cons_of_plain {word? : Text → Option Text} {skipGap : Text → Text} {c : Char} {text : Text}
    (hquote : isQuote c = false) (hword : word? (c :: text) = none) : afterKey? word? skipGap (c :: text) = none := by
  rw [afterKey?, skipQuote, if_neg (by simp [hquote]), hword]
  rfl

theorem readings_guidKey {whole : Text} {gap : Char → Bool} (hquote : ∀ c, isQuote c = true → gap c = false)
    (hcolon : gap ':' = false) (text : Text) :
    (key (ignoringCase guidWord) gap).readings whole text =
      (afterKey? (afterIgnoringCase? guidWord) (List.dropWhile gap) text).toList := by
  refine readings_key (readings_ignoringCase guidWord) (fun c text hc => ?_) hquote hcolon text
  exact afterIgnoringCase?_guidWord_cons (toLower_ne_of_class (by decide) (by decide) hc) text

end Pattern
end AssetIntegrity
