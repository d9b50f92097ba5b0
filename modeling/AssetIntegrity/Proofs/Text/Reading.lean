import AssetIntegrity.Text.Reading
/-!
# Reading — what each reader takes

Every reader that can fail takes a word of its grammar off the front and leaves what follows: a fixed word
(`after?_eq_some_iff`), a longest run of blanks (`blanks?_eq_some_iff`) or of decimal digits (`digits?_eq_some_iff`),
and a number (`number?_eq_some_iff`).  Such a run is the only one with which its text begins (`eq_of_runs`).
`occursIn` says that a word stands somewhere (`occursIn_iff`).
-/
namespace AssetIntegrity
namespace Text

/-- **The longest run of a class**: it holds the class only, and what follows does not begin with it. -/
theorem run_iff {p : Char → Bool} {text run rest : Text} :
    (text.takeWhile p = run ∧ text.dropWhile p = rest) ↔
      text = run ++ rest ∧ (∀ c ∈ run, p c = true) ∧ ∀ c ∈ rest.head?, p c = false := by
  constructor
  · rintro ⟨rfl, rfl⟩
    refine ⟨List.takeWhile_append_dropWhile.symm, List.all_eq_true.1 List.all_takeWhile, ?_⟩
    intro c hc
    have := List.head?_dropWhile_not p text
    rw [Option.mem_def.1 hc] at this
    simpa using this
  · rintro ⟨rfl, hrun, hrest⟩
    rw [List.takeWhile_append_of_pos hrun, List.dropWhile_append_of_pos hrun]
    cases rest with
    | nil => exact ⟨List.append_nil run, rfl⟩
    | cons c rest =>
      have hc : ¬ p c = true := by rw [hrest c rfl]; decide
      rw [List.takeWhile_cons_of_neg hc, List.dropWhile_cons_of_neg hc]
      exact ⟨List.append_nil run, rfl⟩

theorem take_front (front text : Text) : (front ++ text).take ((front ++ text).length - text.length) = front := by
  rw [List.length_append, Nat.add_sub_cancel, List.take_left]

theorem take_takeWhile (p : Char → Bool) (text : Text) :
    text.take (text.length - (text.dropWhile p).length) = text.takeWhile p := by
  have h := take_front (text.takeWhile p) (text.dropWhile p)
  rwa [List.takeWhile_append_dropWhile] at h

/-- One or more characters of a class. -/
def IsRun (p : Char → Bool) (run : Text) : Prop := run ≠ [] ∧ ∀ c ∈ run, p c = true

/-- A number as written: decimal digits, behind at most one minus sign. -/
def IsNumber (number : Text) : Prop :=
  ∃ digits, IsRun isDecimalDigit digits ∧ (number = digits ∨ number = '-' :: digits)

theorem forall_mem_head?_cons {P : Char → Prop} {c : Char} {rest : Text} (h : P c) : ∀ d ∈ (c :: rest).head?, P d :=
  fun _ hd => Option.some.inj hd ▸ h

theorem IsRun.of_mem_head? {p : Char → Bool} {run rest : Text} (h : IsRun p run) {c : Char}
    (hc : c ∈ (run ++ rest).head?) : p c = true := by
  cases run with
  | nil => exact absurd rfl h.1
  | cons d run =>
    obtain rfl := Option.some.inj hc
    exact h.2 d List.mem_cons_self

/-- **A text begins with one run of a class**, when what follows the run does not begin with the class. -/
theorem eq_of_runs {p : Char → Bool} {run rest run' rest' : Text} (h : run ++ rest = run' ++ rest')
    (hrun : ∀ c ∈ run, p c = true) (hrest : ∀ c ∈ rest.head?, p c = false) (hrun' : ∀ c ∈ run', p c = true)
    (hrest' : ∀ c ∈ rest'.head?, p c = false) : run = run' ∧ rest = rest' := by
  obtain ⟨htake, hdrop⟩ := run_iff.2 ⟨rfl, hrun, hrest⟩
  obtain ⟨htake', hdrop'⟩ := run_iff.2 ⟨h, hrun', hrest'⟩
  exact ⟨htake.symm.trans htake', hdrop.symm.trans hdrop'⟩

/-- **A word in front is read off**, and nothing else is. -/
theorem after?_eq_some_iff : ∀ {word text rest : Text}, after? word text = some rest ↔ text = word ++ rest
  | [], text, rest => by
    rw [after?_nil, Option.some.injEq, List.nil_append]
  | _ :: _, [], _ => by
    constructor
    · intro h
      cases h
    · intro h
      cases h
  | w :: word, c :: text, rest => by
    have ih : after? word text = some rest ↔ text = word ++ rest := after?_eq_some_iff
    rw [after?_cons, List.cons_append, List.cons.injEq]
    split
    · rename_i hw
      rw [ih, eq_of_beq hw]
      exact (and_iff_right rfl).symm
    · rename_i hw
      constructor
      · intro h
        cases h
      · rintro ⟨rfl, -⟩
        exact absurd (beq_self_eq_true _) hw

theorem after?_cons_of_ne {w c : Char} (h : c ≠ w) (word text : Text) : after? (w :: word) (c :: text) = none := by
  rw [after?_cons, if_neg]
  exact fun hw => h (eq_of_beq hw).symm

/-- **A gap is a longest run of blanks**, at least one. -/
theorem blanks?_eq_some_iff {text rest : Text} :
    blanks? text = some rest ↔
      ∃ gap, text = gap ++ rest ∧ gap ≠ [] ∧ (∀ c ∈ gap, isBlank c = true) ∧ ∀ c ∈ rest.head?, isBlank c = false := by
  constructor
  · intro h
    cases text with
    | nil => cases h
    | cons c text =>
      rw [blanks?] at h
      split at h
      · rename_i hc
        obtain ⟨hsplit, hgap, hrest⟩ := run_iff.1 ⟨rfl, Option.some.inj h⟩
        refine ⟨c :: text.takeWhile isBlank, congrArg (c :: ·) hsplit, List.cons_ne_nil _ _, ?_, hrest⟩
        exact List.forall_mem_cons.2 ⟨hc, hgap⟩
      · cases h
  · rintro ⟨gap, rfl, hne, hgap, hrest⟩
    cases gap with
    | nil => exact absurd rfl hne
    | cons c gap =>
      obtain ⟨hc, hgap⟩ := List.forall_mem_cons.1 hgap
      rw [List.cons_append, blanks?, if_pos hc, skipBlanks, (run_iff.2 ⟨rfl, hgap, hrest⟩).2]

/-- **Digits are a longest run of decimal digits**, at least one. -/
theorem digits?_eq_some_iff {text digits rest : Text} :
    digits? text = some (digits, rest) ↔
      text = digits ++ rest ∧ digits ≠ [] ∧ (∀ c ∈ digits, isDecimalDigit c = true) ∧
        ∀ c ∈ rest.head?, isDecimalDigit c = false := by
  constructor
  · intro h
    cases text with
    | nil => cases h
    | cons c text =>
      rw [digits?] at h
      split at h
      · rename_i hc
        obtain ⟨rfl, hrest⟩ := Prod.mk.inj (Option.some.inj h)
        obtain ⟨hsplit, hdigits, hrest⟩ := run_iff.1 ⟨rfl, hrest⟩
        refine ⟨congrArg (c :: ·) hsplit, List.cons_ne_nil _ _, ?_, hrest⟩
        exact List.forall_mem_cons.2 ⟨hc, hdigits⟩
      · cases h
  · rintro ⟨rfl, hne, hdigits, hrest⟩
    cases digits with
    | nil => exact absurd rfl hne
    | cons c digits =>
      obtain ⟨hc, hdigits⟩ := List.forall_mem_cons.1 hdigits
      obtain ⟨htake, hdrop⟩ := run_iff.2 ⟨rfl, hdigits, hrest⟩
      rw [List.cons_append, digits?, if_pos hc, htake, hdrop]

theorem eq_of_toLower_eq {c : Char} (h : c.toLower = 'g') : c = 'g' ∨ c = 'G' := by
  unfold Char.toLower at h
  split at h
  · right
    have hval : c.val + ('a'.val - 'A'.val) = 'g'.val := congrArg Char.val h
    refine Char.ext ?_
    rw [← UInt32.add_sub_cancel c.val ('a'.val - 'A'.val), hval]
    rfl
  · exact .inl h

theorem number?_of_ne {c : Char} (hc : c ≠ '-') (text : Text) : number? (c :: text) = digits? (c :: text) := by
  unfold number?
  split
  · rename_i heq
    exact absurd (List.cons.inj heq).1 hc
  · rfl

/-- **A number is read off whole**, up to the first character that is no digit. -/
theorem number?_eq_some_iff {text number rest : Text} :
    number? text = some (number, rest) ↔
      text = number ++ rest ∧ IsNumber number ∧ ∀ c ∈ rest.head?, isDecimalDigit c = false := by
  constructor
  · intro h
    unfold number? at h
    split at h
    · obtain ⟨⟨digits, behind⟩, hdigits, heq⟩ := Option.map_eq_some_iff.1 h
      obtain ⟨rfl, rfl⟩ := Prod.mk.inj heq
      obtain ⟨rfl, hne, hall, hrest⟩ := digits?_eq_some_iff.1 hdigits
      exact ⟨rfl, ⟨digits, ⟨hne, hall⟩, .inr rfl⟩, hrest⟩
    · obtain ⟨rfl, hne, hall, hrest⟩ := digits?_eq_some_iff.1 h
      exact ⟨rfl, ⟨number, ⟨hne, hall⟩, .inl rfl⟩, hrest⟩
  · rintro ⟨rfl, ⟨digits, ⟨hne, hall⟩, hsign⟩, hrest⟩
    have hdigits := digits?_eq_some_iff.2 ⟨rfl, hne, hall, hrest⟩
    rcases hsign with rfl | rfl
    · obtain ⟨c, more, rfl⟩ := List.exists_cons_of_ne_nil hne
      have hsign : c ≠ '-' := by
        rintro rfl
        exact absurd (hall '-' List.mem_cons_self) (by decide)
      rwa [List.cons_append, number?_of_ne hsign]
    · rw [List.cons_append, number?, hdigits, Option.map_some]

theorem append_of_number? {text number rest : Text} (h : number? text = some (number, rest)) :
    text = number ++ rest ∧ ∀ c ∈ number, c = '-' ∨ isDecimalDigit c = true := by
  obtain ⟨rfl, ⟨digits, ⟨-, hall⟩, rfl | rfl⟩, -⟩ := number?_eq_some_iff.1 h
  · exact ⟨rfl, fun c hc => .inr (hall c hc)⟩
  · exact ⟨rfl, List.forall_mem_cons.2 ⟨.inl rfl, fun c hc => .inr (hall c hc)⟩⟩

/-- **A word occurs in a text** when the text has it as an infix. -/
theorem occursIn_iff {word : Text} : ∀ {text : Text}, occursIn word text = true ↔ word <:+: text
  | [] => by rw [occursIn, List.isEmpty_iff, List.infix_nil]
  | c :: text => by rw [occursIn, Bool.or_eq_true, List.isPrefixOf_iff_prefix, occursIn_iff, List.infix_cons_iff]

end Text
end AssetIntegrity
