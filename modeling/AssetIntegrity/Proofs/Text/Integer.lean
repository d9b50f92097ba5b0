import AssetIntegrity.Proofs.Text.Reading
import AssetIntegrity.Text.Integer
/-!
# Integers — which texts stand for a number, and which of them are read

A number is written in ASCII digits behind at most one sign (`Numeral`), and it can be taken apart in one way only
(`Numeral.text_injective`).  It stands for an integer of any size (`Numeral.value`).  It is read exactly when a word
holds that integer, and as the word that does (`word?_eq_some_iff`): the operations on words are exact where they have a
result (`checked_eq_some_iff`), so one more digit gives the exact number or nothing (`appendDigit?_eq_some_iff`), and
digits lead away from zero, so nothing on the way is larger than the number (`foldlM_appendDigit?_eq_some_iff`).
-/
namespace AssetIntegrity
namespace Word

/-- An integer that a word holds. -/
def Fits (n : Int) : Prop := Int64.minValue.toInt ≤ n ∧ n ≤ Int64.maxValue.toInt

instance : DecidablePred Fits := fun _ => inferInstanceAs (Decidable (_ ∧ _))

theorem fits_iff_bounds {n : Int} : Fits n ↔ -9223372036854775808 ≤ n ∧ n ≤ 9223372036854775807 := by
  have hmin : Int64.minValue.toInt = -9223372036854775808 := by decide
  have hmax : Int64.maxValue.toInt = 9223372036854775807 := by decide
  rw [Fits, hmin, hmax]

theorem fits_toInt (w : Int64) : Fits w.toInt := ⟨w.minValue_le_toInt, w.toInt_le⟩

theorem toInt_ofInt {n : Int} (h : Fits n) : (Int64.ofInt n).toInt = n := by
  obtain ⟨hle, hlt⟩ := fits_iff_bounds.1 h
  exact Int64.toInt_ofInt_of_le hle (by omega)

theorem fits_iff_exists {n : Int} : Fits n ↔ ∃ w : Int64, w.toInt = n := by
  constructor
  · exact fun h => ⟨Int64.ofInt n, toInt_ofInt h⟩
  · rintro ⟨w, rfl⟩
    exact fits_toInt w

/-- **A checked operation is the exact one**, where a word holds its result. -/
theorem checked_eq_some_iff {wraps : BitVec 64 → BitVec 64 → Bool} {operation : Int64 → Int64 → Int64}
    (result : Int → Int → Int)
    (hwraps : ∀ a b : Int64, wraps a.toBitVec b.toBitVec = false ↔ Fits (result a.toInt b.toInt))
    (hexact : ∀ a b : Int64, wraps a.toBitVec b.toBitVec = false → (operation a b).toInt = result a.toInt b.toInt)
    {a b w : Int64} : checked wraps operation a b = some w ↔ result a.toInt b.toInt = w.toInt := by
  unfold checked
  constructor
  · intro h
    split at h
    · cases h
    · rename_i hwrap
      rw [← Option.some.inj h, hexact a b ((Bool.not_eq_true _).mp hwrap)]
  · intro h
    have hwrap : wraps a.toBitVec b.toBitVec = false := (hwraps a b).2 (h ▸ fits_toInt w)
    rw [if_neg (by rw [hwrap]; decide), Option.some.injEq, ← Int64.toInt_inj, hexact a b hwrap, h]

theorem sum?_eq_some_iff {a b w : Int64} : sum? a b = some w ↔ a.toInt + b.toInt = w.toInt := by
  refine checked_eq_some_iff (· + ·) (fun a b => ?_) fun a b h => ?_
  · simp only [BitVec.saddOverflow, Int64.toInt_toBitVec, fits_iff_bounds, Bool.or_eq_false_iff,
      decide_eq_false_iff_not]
    omega
  · exact BitVec.toInt_add_of_not_saddOverflow (by rw [h]; decide)

theorem difference?_eq_some_iff {a b w : Int64} : difference? a b = some w ↔ a.toInt - b.toInt = w.toInt := by
  refine checked_eq_some_iff (· - ·) (fun a b => ?_) fun a b h => ?_
  · simp only [BitVec.ssubOverflow, Int64.toInt_toBitVec, fits_iff_bounds, Bool.or_eq_false_iff,
      decide_eq_false_iff_not]
    omega
  · exact BitVec.toInt_sub_of_not_ssubOverflow (by rw [h]; decide)

theorem product?_eq_some_iff {a b w : Int64} : product? a b = some w ↔ a.toInt * b.toInt = w.toInt := by
  refine checked_eq_some_iff (· * ·) (fun a b => ?_) fun a b h => ?_
  · simp only [BitVec.smulOverflow, Int64.toInt_toBitVec, fits_iff_bounds, Bool.or_eq_false_iff,
      decide_eq_false_iff_not]
    omega
  · exact BitVec.toInt_mul_of_not_smulOverflow (by rw [h]; decide)

end Word

namespace Text

/-! ## Numbers as written -/

/-- The sign that may stand in front of digits. -/
inductive Sign
  | omitted
  | plus
  | minus

namespace Sign

def text : Sign → Text
  | omitted => []
  | plus => ['+']
  | minus => ['-']

/-- What the number behind the sign is multiplied by. -/
def factor : Sign → Int
  | omitted | plus => 1
  | minus => -1

/-- How the digits behind the sign are counted in. -/
def count? : Sign → Int64 → Int64 → Option Int64
  | omitted | plus => Word.sum?
  | minus => Word.difference?

/-- Whether the sign is all that is read as one in front of `rest`. -/
def Leads (sign : Sign) (rest : Text) : Prop := sign = omitted → ∀ c ∈ rest.head?, c ≠ '+' ∧ c ≠ '-'

theorem count?_eq_some_iff (sign : Sign) {a b w : Int64} :
    sign.count? a b = some w ↔ a.toInt + sign.factor * b.toInt = w.toInt := by
  cases sign with
  | omitted | plus =>
    rw [factor, Int.one_mul]
    exact Word.sum?_eq_some_iff
  | minus =>
    rw [factor, Int.neg_one_mul, ← Int.sub_eq_add_neg]
    exact Word.difference?_eq_some_iff

/-- **What lies nearer to zero fits too.** -/
theorem fits_of_le (sign : Sign) {m n : Nat} (h : Word.Fits (sign.factor * n)) (hle : m ≤ n) :
    Word.Fits (sign.factor * m) := by
  cases sign <;> simp only [factor, Word.fits_iff_bounds] at h ⊢ <;> omega

theorem leads_of_isDigit (sign : Sign) {digits : Text} (h : ∀ c ∈ digits, c.isDigit = true) : sign.Leads digits := by
  intro _ c hc
  have hdigit : c.isDigit = true := h c (List.mem_of_mem_head? hc)
  constructor <;> rintro rfl <;> exact absurd hdigit (by decide)

/-- **A sign is told from what follows it.** -/
theorem eq_of_append_eq {sign sign' : Sign} {rest rest' : Text} (h : sign.Leads rest) (h' : sign'.Leads rest')
    (heq : sign.text ++ rest = sign'.text ++ rest') : sign = sign' ∧ rest = rest' := by
  cases sign <;> cases sign' <;> grind [text, Leads]

theorem word?_append {sign : Sign} {rest : Text} (h : sign.Leads rest) :
    word? (sign.text ++ rest) = digitsWord? sign.count? rest := by
  cases sign with
  | omitted =>
    rw [text, List.nil_append]
    unfold word?
    split
    · exact absurd rfl (h rfl '+' rfl).1
    · exact absurd rfl (h rfl '-' rfl).2
    · rfl
  | plus => rfl
  | minus => rfl

/-- **Every text has a sign in front**, if only the omitted one. -/
theorem exists_leads (text : Text) : ∃ (sign : Sign) (rest : Text), text = sign.text ++ rest ∧ sign.Leads rest := by
  by_cases hplus : text.head? = some '+'
  · obtain ⟨rest, rfl⟩ := List.head?_eq_some_iff.1 hplus
    exact ⟨plus, rest, rfl, nofun⟩
  · by_cases hminus : text.head? = some '-'
    · obtain ⟨rest, rfl⟩ := List.head?_eq_some_iff.1 hminus
      exact ⟨minus, rest, rfl, nofun⟩
    · exact ⟨omitted, text, rfl, fun _ c hc => ⟨fun h => hplus (h ▸ hc), fun h => hminus (h ▸ hc)⟩⟩

end Sign

/-- A number as written in ASCII: digits behind at most one sign. -/
@[ext]
structure Numeral where
  sign : Sign
  digits : Text
  isRun_digits : IsRun Char.isDigit digits

namespace Numeral

variable (numeral : Numeral)

def text : Text := numeral.sign.text ++ numeral.digits

/-- The integer that the number stands for, which may be of any size. -/
def value : Int := numeral.sign.factor * Nat.ofDigitChars 10 numeral.digits 0

theorem isDigit_of_mem_text {c : Char} (hc : c ∈ numeral.text) (h : isDecimalDigit c = true) : c.isDigit = true := by
  rcases List.mem_append.1 hc with hsign | hdigits
  · cases hkind : numeral.sign <;> rw [hkind] at hsign
    · cases hsign
    all_goals
      obtain rfl := List.mem_singleton.1 hsign
      exact absurd h (by decide)
  · exact numeral.isRun_digits.2 c hdigits

/-- **The usual form of an integer** stands for that integer. -/
theorem exists_toString (n : Int) : ∃ numeral : Numeral, (toString n).toList = numeral.text ∧ numeral.value = n := by
  have hrun (m : Nat) : IsRun Char.isDigit (Nat.toDigits 10 m) :=
    ⟨Nat.toDigits_ne_nil, fun _ hc => Nat.isDigit_of_mem_toDigits (by decide) (by decide) hc⟩
  rw [Int.toString_eq_repr, Int.repr_eq_if]
  split
  · refine ⟨⟨.omitted, Nat.toDigits 10 n.toNat, hrun _⟩, Nat.toList_repr, ?_⟩
    rw [value, Nat.ofDigitChars_ten_toDigits, Sign.factor]
    omega
  · refine ⟨⟨.minus, Nat.toDigits 10 (-n).toNat, hrun _⟩, ?_, ?_⟩
    · rw [String.toList_append, Nat.toList_repr]
      rfl
    · rw [value, Nat.ofDigitChars_ten_toDigits, Sign.factor]
      omega

/-- **A number is taken apart in one way only**: no digit is a sign. -/
theorem text_injective {numeral numeral' : Numeral} (h : numeral.text = numeral'.text) : numeral = numeral' := by
  obtain ⟨hsign, hdigits⟩ := Sign.eq_of_append_eq (numeral.sign.leads_of_isDigit numeral.isRun_digits.2)
    (numeral'.sign.leads_of_isDigit numeral'.isRun_digits.2) h
  exact Numeral.ext hsign hdigits

end Numeral

/-! ## Reading -/

theorem le_ofDigitChars (digits : Text) (n : Nat) : n ≤ Nat.ofDigitChars 10 digits n := by
  rw [Nat.ofDigitChars_eq_ofDigitChars_zero]
  have hplace : 0 < 10 ^ digits.length := Nat.pow_pos (by decide)
  exact Nat.le_add_right_of_le (Nat.le_mul_of_pos_left n hplace)

theorem toInt_ofNat_digit {c : Char} (h : c.isDigit = true) :
    (Int64.ofNat (c.toNat - '0'.toNat)).toInt = (c.toNat - '0'.toNat : Nat) := by
  have hle : c.toNat ≤ '9'.toNat := (Char.isDigit_iff_toNat.1 h).2
  have hnine : '9'.toNat = 57 := rfl
  exact Int64.toInt_ofNat_of_lt (by omega)

/-- **One more digit** gives the exact number, if a word holds it. -/
theorem appendDigit?_eq_some_iff {sign : Sign} {n : Nat} {high next : Int64} (hhigh : high.toInt = sign.factor * n)
    {c : Char} :
    appendDigit? sign.count? high c = some next ↔
      c.isDigit = true ∧ sign.factor * (10 * n + (c.toNat - '0'.toNat) : Nat) = next.toInt := by
  unfold appendDigit?
  split
  · rename_i hc
    have hdigit := toInt_ofNat_digit hc
    rw [and_iff_right hc]
    generalize c.toNat - '0'.toNat = digit at hdigit ⊢
    have hten : high.toInt * (10 : Int64).toInt = sign.factor * (10 * n : Nat) := by
      rw [hhigh, Int.mul_assoc, Int.natCast_mul, Int.mul_comm (n : Int)]
      rfl
    have hsplit : sign.factor * (10 * n + digit : Nat) = sign.factor * (10 * n : Nat) + sign.factor * digit := by
      rw [Int.natCast_add, Int.mul_add]
    constructor
    · intro h
      obtain ⟨shifted, hshifted, h⟩ := Option.bind_eq_some_iff.1 h
      rw [Word.product?_eq_some_iff, hten] at hshifted
      rwa [sign.count?_eq_some_iff, hdigit, ← hshifted, ← hsplit] at h
    · intro h
      -- the number that has moved up but lacks the digit lies nearer to zero
      have hfits : Word.Fits (sign.factor * (10 * n + digit : Nat)) := h ▸ Word.fits_toInt next
      obtain ⟨shifted, hshifted⟩ := Word.fits_iff_exists.1 (sign.fits_of_le hfits (Nat.le_add_right (10 * n) digit))
      refine Option.bind_eq_some_iff.2 ⟨shifted, ?_, ?_⟩
      · rw [Word.product?_eq_some_iff, hten, hshifted]
      · rw [sign.count?_eq_some_iff, hdigit, hshifted, ← hsplit, h]
  · rename_i hc
    exact ⟨nofun, fun h => absurd h.1 hc⟩

/-- **Digits are read on** to the integer that they and the number in front of them stand for, if a word holds it. -/
theorem foldlM_appendDigit?_eq_some_iff {sign : Sign} {digits : Text} {n : Nat} {high w : Int64}
    (hhigh : high.toInt = sign.factor * n) :
    digits.foldlM (appendDigit? sign.count?) high = some w ↔
      (∀ c ∈ digits, c.isDigit = true) ∧ sign.factor * Nat.ofDigitChars 10 digits n = w.toInt := by
  induction digits generalizing n high with
  | nil =>
    rw [List.foldlM_nil, Nat.ofDigitChars_nil, ← hhigh, Option.pure_def, Option.some.injEq, Int64.toInt_inj]
    exact (and_iff_right (List.forall_mem_nil _)).symm
  | cons c digits ih =>
    rw [List.foldlM_cons, Nat.ofDigitChars_cons, List.forall_mem_cons]
    constructor
    · intro h
      obtain ⟨next, hnext, h⟩ := Option.bind_eq_some_iff.1 h
      obtain ⟨hc, hvalue⟩ := (appendDigit?_eq_some_iff hhigh).1 hnext
      obtain ⟨hall, hresult⟩ := (ih hvalue.symm).1 h
      exact ⟨⟨hc, hall⟩, hresult⟩
    · rintro ⟨⟨hc, hall⟩, hresult⟩
      -- the number so far lies between zero and the result, so a word holds it
      have hfits := sign.fits_of_le (hresult ▸ Word.fits_toInt w) (le_ofDigitChars digits _)
      obtain ⟨next, hnext⟩ := Word.fits_iff_exists.1 hfits
      exact Option.bind_eq_some_iff.2
        ⟨next, (appendDigit?_eq_some_iff hhigh).2 ⟨hc, hnext.symm⟩, (ih hnext).2 ⟨hall, hresult⟩⟩

theorem digitsWord?_eq_some_iff {sign : Sign} {digits : Text} {w : Int64} :
    digitsWord? sign.count? digits = some w ↔
      IsRun Char.isDigit digits ∧ sign.factor * Nat.ofDigitChars 10 digits 0 = w.toInt := by
  have hread : digits.foldlM (appendDigit? sign.count?) 0 = some w ↔
      (∀ c ∈ digits, c.isDigit = true) ∧ sign.factor * Nat.ofDigitChars 10 digits 0 = w.toInt :=
    foldlM_appendDigit?_eq_some_iff (Int.mul_zero sign.factor).symm
  rw [digitsWord?, IsRun, and_assoc, ← hread]
  split
  · rename_i hempty
    exact ⟨nofun, fun h => absurd (List.isEmpty_iff.1 hempty) h.1⟩
  · rename_i hne
    exact (and_iff_right (mt List.isEmpty_iff.2 hne)).symm

/-- **A text is read as a word exactly when it is a number whose integer the word holds.** -/
theorem word?_eq_some_iff {text : Text} {w : Int64} :
    word? text = some w ↔ ∃ numeral : Numeral, text = numeral.text ∧ numeral.value = w.toInt := by
  constructor
  · intro h
    obtain ⟨sign, digits, rfl, hleads⟩ := Sign.exists_leads text
    rw [Sign.word?_append hleads, digitsWord?_eq_some_iff] at h
    exact ⟨⟨sign, digits, h.1⟩, rfl, h.2⟩
  · rintro ⟨⟨sign, digits, hdigits⟩, rfl, hvalue⟩
    rw [Numeral.text, Sign.word?_append (sign.leads_of_isDigit hdigits.2), digitsWord?_eq_some_iff]
    exact ⟨hdigits, hvalue⟩

/-- **A number is read as the integer that it stands for, or not at all.** -/
theorem word?_text (numeral : Numeral) :
    word? numeral.text = if Word.Fits numeral.value then some (Int64.ofInt numeral.value) else none := by
  split
  · rename_i hfits
    exact word?_eq_some_iff.2 ⟨numeral, rfl, (Word.toInt_ofInt hfits).symm⟩
  · rename_i hfits
    refine Option.eq_none_iff_forall_ne_some.2 fun w hw => ?_
    obtain ⟨numeral', htext, hvalue⟩ := word?_eq_some_iff.1 hw
    obtain rfl := Numeral.text_injective htext
    exact hfits (hvalue ▸ Word.fits_toInt w)

/-- The least word is read, and its neighbour beyond the 64 bits is not. -/
example : word? "-9223372036854775808".toList = some Int64.minValue ∧ word? "9223372036854775808".toList = none := by
  decide +kernel

/-! ## Leading zeros -/

theorem Sign.Leads.zeros_append {sign : Sign} {rest : Text} (h : sign.Leads rest) (zeros : Nat) :
    sign.Leads (List.replicate zeros '0' ++ rest) := by
  cases zeros with
  | zero => exact h
  | succ zeros => exact fun _ => forall_mem_head?_cons (by decide)

theorem isDigit_of_mem_zeros {zeros : Nat} {c : Char} (hc : c ∈ List.replicate zeros '0') : c.isDigit = true := by
  rw [List.eq_of_mem_replicate hc]
  decide

theorem isRun_zeros_append {rest : Text} (hne : rest ≠ []) (zeros : Nat) :
    IsRun Char.isDigit (List.replicate zeros '0' ++ rest) ↔ IsRun Char.isDigit rest := by
  rw [IsRun, IsRun, List.forall_mem_append, and_iff_right hne, and_iff_right (List.append_ne_nil_of_right_ne_nil _ hne),
    and_iff_right fun _ => isDigit_of_mem_zeros]

/-- **Zeros in front of a number are not seen.** -/
theorem digitsWord?_zeros_append (sign : Sign) {rest : Text} (hne : rest ≠ []) (zeros : Nat) :
    digitsWord? sign.count? (List.replicate zeros '0' ++ rest) = digitsWord? sign.count? rest := by
  refine Option.ext fun w => ?_
  rw [digitsWord?_eq_some_iff, digitsWord?_eq_some_iff, isRun_zeros_append hne, Nat.ofDigitChars_append,
    Nat.ofDigitChars_replicate_zero, Nat.mul_zero]

end Text
end AssetIntegrity
