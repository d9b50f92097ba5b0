import AssetIntegrity.Proofs.Pointer.KeyPattern
import AssetIntegrity.Proofs.Pointer.GuidCuts
import AssetIntegrity.Pointer.Local
/-!
# Entry forms — the two kinds of entries of a pointer

An entry of a pointer that matters has one of two forms: it begins with a `guid` key (`HasForeignKey`,
`hasGuidKey_iff`), or it is a `fileID` key and a number and nothing else (`IsLocalEntry`, `fileId?_eq_some_iff`).  Of
the ways to read such an entry only one can succeed, since no gap holds a quote, no quote is a digit and what stands
behind a number begins with no digit (`readings_foreignKey`, `readings_local`).
-/
namespace AssetIntegrity
namespace Text

open Pattern

/-! ## The forms of an entry -/

/-- What an entry begins with that leads into another asset. -/
def foreignKey : Pattern := run isSpace ++ key (ignoringCase guidWord) isSpace

/-- What stands in front of the number of an entry. -/
def localKey : Pattern := run isSpace ++ key (exactly fileIdWord) isSpace ++ (run isSpace ++ quote)

def signedNumber : Pattern := optional (one fun c => c = '-') ++ (one isDecimalDigit ++ run isDecimalDigit)

/-- What stands behind the number of an entry. -/
def numberEnd : Pattern := quote ++ run isSpace

/-- An entry that leads into another asset. -/
def HasForeignKey (entry : Text) : Prop := ∃ word behind, entry = word ++ behind ∧ foreignKey.Matches [] word behind

/-- An entry that leads to the document of this number, and holds nothing else. -/
def IsLocalEntry (number entry : Text) : Prop :=
  ∃ front behind, entry = front ++ (number ++ behind) ∧ localKey.Matches [] front (number ++ behind) ∧
    signedNumber.Matches front number behind ∧ numberEnd.Matches (front ++ number) behind []

/-! ## The readings of an entry -/

section

variable {whole : Text} {α : Type} {f : Text → List α}

theorem readings_foreignKey (text : Text) :
    foreignKey.readings whole text = (afterKey? (afterIgnoringCase? guidWord) skipSpace (skipSpace text)).toList := by
  have hkey := @readings_guidKey whole isSpace (forall_isQuote (by decide) (by decide)) (by decide)
  rw [foreignKey, readings_append, flatMap_run]
  · exact hkey _
  · intro c text hc
    have hletter : c.toLower ≠ 'g' := toLower_ne_of_class (by decide) (by decide) hc
    rw [hkey, afterKey?_cons_of_plain (isQuote_eq_false (by decide) (by decide) hc)
      (afterIgnoringCase?_guidWord_cons hletter text)]
    rfl

theorem after?_fileIdWord_cons {c : Char} (h : c ≠ 'f') (text : Text) : after? fileIdWord (c :: text) = none :=
  after?_cons_of_ne h _ text

theorem readings_fileIdKey (text : Text) :
    (run isSpace ++ key (exactly fileIdWord) isSpace).readings whole text =
      (afterKey? (after? fileIdWord) skipSpace (skipSpace text)).toList := by
  have hword : ∀ c text, isQuote c = true → after? fileIdWord (c :: text) = none := fun c text hc =>
    after?_fileIdWord_cons (ne_of_class (by decide) hc) text
  have hkey := @readings_key whole _ _ isSpace (readings_exactly fileIdWord) hword
    (forall_isQuote (by decide) (by decide)) (by decide)
  rw [readings_append, flatMap_run]
  · exact hkey _
  · intro c text hc
    have hletter : c ≠ 'f' := ne_of_class (by decide) hc
    rw [hkey, afterKey?_cons_of_plain (isQuote_eq_false (by decide) (by decide) hc)
      (after?_fileIdWord_cons hletter text)]
    rfl

theorem skipQuote_of_plain {c : Char} (hc : isQuote c = false) (text : Text) : skipQuote (c :: text) = c :: text := by
  rw [skipQuote, if_neg (by simp [hc])]

theorem skipSpace_of_plain {c : Char} (hc : isSpace c = false) (text : Text) : skipSpace (c :: text) = c :: text := by
  rw [skipSpace, List.dropWhile_cons_of_neg (by simp [hc])]

theorem flatMap_localKey (hspace : ∀ c text, isSpace c = true → f (c :: text) = [])
    (hquote : ∀ c text, isQuote c = true → f (c :: text) = []) (text : Text) :
    (localKey.readings whole text).flatMap f =
      (afterKey? (after? fileIdWord) skipSpace (skipSpace text)).toList.flatMap
        fun rest => f (skipQuote (skipSpace rest)) := by
  rw [localKey, readings_append, readings_fileIdKey, List.flatMap_assoc]
  refine congrArg (List.flatMap · _) (funext fun rest => ?_)
  simp only [readings_append, List.flatMap_assoc, flatMap_quote hquote]
  rw [flatMap_run]
  · rfl
  · intro c text hc
    rw [skipQuote_of_plain (isQuote_eq_false (by decide) (by decide) hc), hspace c text hc]

theorem flatMap_digits (hf : ∀ c text, isDecimalDigit c = true → f (c :: text) = []) (text : Text) :
    ((one isDecimalDigit ++ run isDecimalDigit).readings whole text).flatMap f =
      (digits? text).toList.flatMap fun digits => f digits.2 := by
  rw [readings_append, List.flatMap_assoc]
  cases text with
  | nil => rfl
  | cons c text =>
    rw [flatMap_one_cons, flatMap_run hf, digits?]
    split
    · rw [Option.toList_some, List.flatMap_singleton]
    · rfl

theorem flatMap_signedNumber (hf : ∀ c text, isDecimalDigit c = true → f (c :: text) = []) (text : Text) :
    (signedNumber.readings whole text).flatMap f = (number? text).toList.flatMap fun number => f number.2 := by
  rw [signedNumber, readings_append, List.flatMap_assoc, readings_optional, List.flatMap_append, List.flatMap_singleton]
  simp only [flatMap_digits hf]
  cases text with
  | nil => rfl
  | cons c text =>
    rw [flatMap_one_cons]
    by_cases hc : c = '-'
    · subst hc
      have hdash : digits? ('-' :: text) = none := rfl
      rw [if_pos (by rfl), hdash, Option.toList_none, List.flatMap_nil, List.append_nil, number?]
      cases digits? text <;> rfl
    · rw [if_neg (by simpa using hc), List.nil_append, number?_of_ne hc]

theorem number?_cons_of_plain {c : Char} (hdash : c ≠ '-') (hdigit : isDecimalDigit c = false) (text : Text) :
    number? (c :: text) = none := by
  rw [number?_of_ne hdash, digits?, if_neg (by simp [hdigit])]

/-- The number of an entry that begins a text, and what follows the number. -/
def numberAt? (text : Text) : Option (Text × Text) :=
  (afterKey? (after? fileIdWord) skipSpace (skipSpace text)).bind fun rest => number? (skipQuote (skipSpace rest))

theorem readings_numberEnd {stop : Pattern} (hstop : ∀ c text, c ≠ ',' → stop.readings whole (c :: text) = [])
    (text : Text) : (numberEnd ++ stop).readings whole text = stop.readings whole (skipSpace (skipQuote text)) := by
  have hspace : ∀ text, ((run isSpace).readings whole text).flatMap (stop.readings whole) =
      stop.readings whole (skipSpace text) :=
    flatMap_run fun c text hc => hstop c text (ne_of_class (by decide) hc)
  rw [numberEnd, readings_append, readings_append, List.flatMap_assoc]
  simp only [hspace]
  rw [flatMap_quote]
  intro c text hc
  rw [skipSpace_of_plain (eq_false_of_isQuote (by decide) (by decide) hc), hstop c text (ne_of_class (by decide) hc)]

/-- **An entry is read in one way at most**, when what must follow it is a comma or the end. -/
theorem readings_local {stop : Pattern} (hstop : ∀ c text, c ≠ ',' → stop.readings whole (c :: text) = [])
    (text : Text) :
    (Capture.mk localKey signedNumber (numberEnd ++ stop)).readings whole text =
      (numberAt? text).toList.flatMap fun found =>
        (stop.readings whole (skipSpace (skipQuote found.2))).map fun rest => (found.1, rest) := by
  have hnumber : ∀ value, ((signedNumber.readings whole value).flatMap fun behind =>
      ((numberEnd ++ stop).readings whole behind).map fun rest => (value.take (value.length - behind.length), rest)) =
        (number? value).toList.flatMap fun found =>
          (stop.readings whole (skipSpace (skipQuote found.2))).map fun rest => (found.1, rest) := by
    intro value
    rw [flatMap_signedNumber]
    · cases hfound : number? value with
      | none => rfl
      | some found =>
        obtain ⟨number, rest⟩ := found
        obtain ⟨rfl, -⟩ := append_of_number? hfound
        rw [Option.toList_some, List.flatMap_singleton, List.flatMap_singleton, take_front, readings_numberEnd hstop]
    · intro c text hc
      rw [readings_numberEnd hstop, skipQuote_of_plain (isQuote_eq_false (by decide) (by decide) hc),
        skipSpace_of_plain (isSpace_eq_false_of_isDecimalDigit hc), hstop c text (ne_of_class (by decide) hc)]
      rfl
  rw [Capture.readings]
  simp only [hnumber]
  rw [flatMap_localKey]
  · rw [numberAt?]
    cases afterKey? (after? fileIdWord) skipSpace (skipSpace text) with
    | none => rfl
    | some rest => rw [Option.toList_some, List.flatMap_singleton, Option.bind_some]
  · intro c text hc
    rw [number?_cons_of_plain (ne_of_class (by decide) hc) (isDecimalDigit_eq_false_of_isSpace hc)]
    rfl
  · intro c text hc
    rw [number?_cons_of_plain (ne_of_class (by decide) hc) (eq_false_of_isQuote (by decide) (by decide) hc)]
    rfl

end

/-! ## The forms and their readers -/

/-- **A foreign entry begins with the key.** -/
theorem hasGuidKey_iff {entry : Text} : hasGuidKey entry = true ↔ HasForeignKey entry := by
  have hread := @readings_foreignKey entry entry
  rw [hasGuidKey, Option.isSome_iff_exists]
  constructor
  · rintro ⟨rest, hrest⟩
    obtain ⟨word, htext, hword⟩ := mem_readings_self_iff.1 (hread ▸ Option.mem_toList.2 hrest)
    exact ⟨word, rest, htext, hword⟩
  · rintro ⟨word, rest, htext, hword⟩
    exact ⟨rest, Option.mem_toList.1 (hread ▸ mem_readings_self_iff.2 ⟨word, htext, hword⟩)⟩

theorem fileId?_eq_bind (entry : Text) :
    fileId? entry = (numberAt? entry).bind fun found =>
      if (skipSpace (skipQuote found.2)).isEmpty then some found.1 else none := by
  rw [fileId?, numberAt?]
  cases afterKey? (after? fileIdWord) skipSpace (skipSpace entry) <;> rfl

/-- **A local entry has its form.** -/
theorem fileId?_eq_some_iff {number entry : Text} : fileId? entry = some number ↔ IsLocalEntry number entry := by
  have hread : (number, []) ∈ (Capture.mk localKey signedNumber (numberEnd ++ textEnd)).readings ([] ++ entry) entry ↔
      fileId? entry = some number := by
    rw [readings_local (fun _ _ _ => rfl), fileId?_eq_bind]
    cases numberAt? entry with
    | none => simp
    | some found =>
      rw [Option.toList_some, List.flatMap_singleton, Option.bind_some, textEnd, readings]
      split
      · rename_i hend
        rw [List.isEmpty_iff.1 hend, List.map_singleton, List.mem_singleton, Prod.mk.injEq, and_iff_left rfl,
          Option.some.injEq]
        exact eq_comm
      · simp
  rw [← hread, Capture.mem_readings_iff]
  constructor
  · rintro ⟨front, _, htext, hfront, hnumber, behind, _, rfl, hbehind, ⟨rfl, -⟩⟩
    simp only [List.append_nil] at htext hfront hnumber hbehind
    exact ⟨front, behind, htext, hfront, hnumber, hbehind⟩
  · rintro ⟨front, behind, htext, hfront, hnumber, hbehind⟩
    rw [← List.append_nil behind] at htext hfront hnumber
    exact ⟨front, behind, htext, hfront, hnumber, behind, [], (List.append_nil behind).symm, hbehind, rfl, rfl⟩

theorem fileId?_eq_none_iff {entry : Text} : fileId? entry = none ↔ ∀ number, ¬ IsLocalEntry number entry := by
  simp only [← fileId?_eq_some_iff]
  exact Option.eq_none_iff_forall_ne_some

/-- **The number stands within the entry**, and so does what follows it. -/
theorem suffix_of_numberAt? {text number rest : Text} (h : numberAt? text = some (number, rest)) : rest <:+ text := by
  obtain ⟨behind, hkey, hnumber⟩ := Option.bind_eq_some_iff.1 h
  have hspace : ∀ a : Text, skipSpace a <:+ a := fun _ => List.dropWhile_suffix _
  have hword : ∀ {a b : Text}, after? fileIdWord a = some b → b <:+ a := fun h =>
    ⟨fileIdWord, (after?_eq_some_iff.1 h).symm⟩
  have hrest : rest <:+ skipQuote (skipSpace behind) := ⟨number, (append_of_number? hnumber).1.symm⟩
  have hbehind : behind <:+ text := (suffix_of_afterKey? hword hspace hkey).trans (hspace text)
  exact (hrest.trans ((skipQuote_suffix _).trans (hspace behind))).trans hbehind

end Text
end AssetIntegrity
