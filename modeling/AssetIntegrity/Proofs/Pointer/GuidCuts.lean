import AssetIntegrity.Pointer.Guid
import AssetIntegrity.Proofs.Text.Reading
import Mathlib.Data.List.TakeWhile
/-!
# GUID cuts — where the entries of a text may be taken apart

A character that stops every reader of an entry cuts the text in front of it off from the text behind it, unless a
value runs on over it (`guidEntries_append_or_runsOver`).  A line feed is such a character, and behind it reading starts
afresh (`guidEntries_newline`), so an entry begins and ends on one line.
-/
namespace AssetIntegrity
namespace Text

/-! ## What stops every reader -/

/-- **A character that stops every reader of an entry**, but perhaps not the reader of its value. -/
structure Stops (s : Char) : Prop where
  blank : isBlank s = false
  quote : isQuote s = false
  dash : s ≠ '-'
  colon : s ≠ ':'
  letter : s.toLower ∉ guidWord

theorem stops_newline : Stops '\n' := by constructor <;> decide

variable {s : Char}

theorem takeWhile_append {p : Char → Bool} (hs : p s = false) (a b : Text) :
    (a ++ s :: b).takeWhile p = a.takeWhile p := by
  rw [List.takeWhile_append, List.takeWhile_cons_of_neg (by simp [hs]), List.append_nil]
  split
  · rename_i h
    exact ((List.takeWhile_prefix p).eq_of_length h).symm
  · rfl

theorem dropWhile_append {p : Char → Bool} (hs : p s = false) (a b : Text) :
    (a ++ s :: b).dropWhile p = a.dropWhile p ++ s :: b := by
  rw [List.dropWhile_append, List.dropWhile_cons_of_neg (by simp [hs])]
  split
  · rename_i h
    rw [List.isEmpty_iff.1 h]
    rfl
  · rfl

theorem skipBlanks_append (h : Stops s) (a b : Text) : skipBlanks (a ++ s :: b) = skipBlanks a ++ s :: b :=
  dropWhile_append h.blank a b

theorem skipQuote_append (h : Stops s) (a b : Text) : skipQuote (a ++ s :: b) = skipQuote a ++ s :: b := by
  cases a with
  | nil => simp [skipQuote, h.quote]
  | cons c a =>
    rw [List.cons_append, skipQuote, skipQuote]
    split <;> rfl

theorem blanks?_append (h : Stops s) (a b : Text) : blanks? (a ++ s :: b) = (blanks? a).map (· ++ s :: b) := by
  cases a with
  | nil => simp [blanks?, h.blank]
  | cons c a =>
    rw [List.cons_append, blanks?, blanks?, skipBlanks_append h]
    split <;> rfl

theorem skipDash_of_ne {c : Char} (hc : c ≠ '-') (text : Text) : skipDash (c :: text) = c :: text := by
  rw [skipDash.eq_def]
  split
  · rename_i heq
    exact absurd (List.cons.inj heq).1 hc
  · rfl

theorem skipDash_append (h : Stops s) (a b : Text) : skipDash (a ++ s :: b) = skipDash a ++ s :: b := by
  cases a with
  | nil => exact skipDash_of_ne h.dash b
  | cons c a =>
    by_cases hc : c = '-'
    · subst hc
      rw [List.cons_append, skipDash, skipDash, blanks?_append h]
      cases blanks? a <;> rfl
    · rw [List.cons_append, skipDash_of_ne hc, skipDash_of_ne hc]
      rfl

theorem after?_append : ∀ {word : Text}, s ∉ word → ∀ (a b : Text),
    after? word (a ++ s :: b) = (after? word a).map (· ++ s :: b)
  | [], _, _, _ => rfl
  | w :: word, h, [], b => by
    have hw : ¬ (w == s) = true := fun e => h (eq_of_beq e ▸ List.mem_cons_self)
    rw [List.nil_append, after?_cons, if_neg hw]
    rfl
  | w :: word, h, c :: a, b => by
    rw [List.cons_append, after?_cons, after?_cons]
    split
    · exact after?_append (fun hmem => h (List.mem_cons_of_mem _ hmem)) a b
    · rfl

theorem afterIgnoringCase?_append : ∀ {word : Text}, s.toLower ∉ word → ∀ (a b : Text),
    afterIgnoringCase? word (a ++ s :: b) = (afterIgnoringCase? word a).map (· ++ s :: b)
  | [], _, _, _ => rfl
  | w :: word, h, [], b => by
    have hw : ¬ s.toLower = w := by
      rintro rfl
      exact h List.mem_cons_self
    rw [List.nil_append, afterIgnoringCase?, afterIgnoringCase?, if_neg hw]
    rfl
  | w :: word, h, c :: a, b => by
    rw [List.cons_append, afterIgnoringCase?, afterIgnoringCase?]
    split
    · exact afterIgnoringCase?_append (fun hmem => h (List.mem_cons_of_mem _ hmem)) a b
    · rfl

theorem keyPlace?_append (h : Stops s) (atLineStart : Bool) {a : Text} (ha : a ≠ []) (b : Text) :
    keyPlace? atLineStart (a ++ s :: b) = (keyPlace? atLineStart a).map (· ++ s :: b) := by
  cases a with
  | nil => exact absurd rfl ha
  | cons c a =>
    rw [List.cons_append, keyPlace?, keyPlace?, skipBlanks_append h, ← List.cons_append, skipBlanks_append h,
      skipDash_append h]
    split
    · rfl
    · split <;> rfl

theorem afterKey?_append_of (h : Stops s) {word? : Text → Option Text} {skipGap : Text → Text}
    (hword : ∀ a b, word? (a ++ s :: b) = (word? a).map (· ++ s :: b))
    (hgap : ∀ a b, skipGap (a ++ s :: b) = skipGap a ++ s :: b) (a b : Text) :
    afterKey? word? skipGap (a ++ s :: b) = (afterKey? word? skipGap a).map (· ++ s :: b) := by
  have hcolon : s ∉ [':'] := by simpa using h.colon
  unfold afterKey?
  rw [skipQuote_append h, hword]
  cases word? (skipQuote a) with
  | none => rfl
  | some rest =>
    rw [Option.map_some, Option.bind_some, Option.bind_some, skipQuote_append h, hgap, after?_append hcolon]

theorem afterKey?_append (h : Stops s) (a b : Text) :
    afterKey? (afterIgnoringCase? guidWord) skipBlanks (a ++ s :: b) =
      (afterKey? (afterIgnoringCase? guidWord) skipBlanks a).map (· ++ s :: b) :=
  afterKey?_append_of h (afterIgnoringCase?_append h.letter) (skipBlanks_append h) a b

/-- The place where the value begins of the `guid` entry that begins at this place. -/
def valueAt? (atLineStart : Bool) (text : Text) : Option Text :=
  ((keyPlace? atLineStart text).bind (afterKey? (afterIgnoringCase? guidWord) skipBlanks)).map
    fun rest => skipQuote (skipBlanks rest)

theorem guidItem?_eq_map (atLineStart : Bool) (text : Text) :
    guidItem? atLineStart text =
      (valueAt? atLineStart text).map fun rest => (rest.takeWhile isValueChar, rest.dropWhile isValueChar) := by
  unfold guidItem? valueAt?
  cases keyPlace? atLineStart text with
  | none => rfl
  | some place =>
    simp only [Option.bind_eq_bind, Option.bind_some]
    cases afterKey? (afterIgnoringCase? guidWord) skipBlanks place <;> rfl

theorem valueAt?_append (h : Stops s) (atLineStart : Bool) {a : Text} (ha : a ≠ []) (b : Text) :
    valueAt? atLineStart (a ++ s :: b) = (valueAt? atLineStart a).map (· ++ s :: b) := by
  unfold valueAt?
  rw [keyPlace?_append h atLineStart ha]
  cases keyPlace? atLineStart a with
  | none => rfl
  | some place =>
    simp only [Option.map_some, Option.bind_some, afterKey?_append h]
    cases afterKey? (afterIgnoringCase? guidWord) skipBlanks place with
    | none => rfl
    | some rest => simp only [Option.map_some, skipBlanks_append h, skipQuote_append h]

theorem guidItem?_nil (atLineStart : Bool) : guidItem? atLineStart [] = none := rfl

/-- **What follows does not matter** to an entry that begins in front of a stop, when its value ends there at the
latest. -/
theorem guidItem?_append (h : Stops s) (atLineStart : Bool) {a : Text} (ha : a ≠ []) (b : Text)
    (hends : isValueChar s = true → ∀ value, guidItem? atLineStart a ≠ some (value, [])) :
    guidItem? atLineStart (a ++ s :: b) =
      (guidItem? atLineStart a).map fun (value, rest) => (value, rest ++ s :: b) := by
  rw [guidItem?_eq_map, valueAt?_append h atLineStart ha]
  rw [guidItem?_eq_map] at hends ⊢
  cases hat : valueAt? atLineStart a with
  | none => rfl
  | some rest =>
    simp only [Option.map_some, Option.some.injEq, Prod.mk.injEq]
    cases hs : isValueChar s with
    | false => exact ⟨takeWhile_append hs rest b, dropWhile_append hs rest b⟩
    | true =>
      have hne : rest.dropWhile isValueChar ≠ [] := by
        intro hnil
        refine hends hs (rest.takeWhile isValueChar) ?_
        rw [hat, Option.map_some, hnil]
      have hlength : (rest.takeWhile isValueChar).length ≠ rest.length := by
        intro heq
        have hsplit := congrArg List.length (List.takeWhile_append_dropWhile (p := isValueChar) (l := rest))
        rw [List.length_append] at hsplit
        exact hne (List.length_eq_zero_iff.1 (by omega))
      rw [List.takeWhile_append, if_neg hlength, List.dropWhile_append, if_neg (by simpa using hne)]
      exact ⟨rfl, rfl⟩

/-- **A value that ends with the text runs on over a character of its class** that comes behind it. -/
theorem guidItem?_runsOn (h : Stops s) (hs : isValueChar s = true) {atLineStart : Bool} {a value : Text}
    (hopen : guidItem? atLineStart a = some (value, [])) (b : Text) :
    ∃ rest, guidItem? atLineStart (a ++ s :: b) = some (value ++ s :: b.takeWhile isValueChar, rest) := by
  have ha : a ≠ [] := by
    rintro rfl
    rw [guidItem?_nil] at hopen
    cases hopen
  rw [guidItem?_eq_map] at hopen ⊢
  obtain ⟨behind, hat, hsplit⟩ := Option.map_eq_some_iff.1 hopen
  obtain ⟨rfl, hnil⟩ := Prod.mk.inj hsplit
  have hall : ∀ c ∈ behind, isValueChar c = true := List.dropWhile_eq_nil_iff.1 hnil
  have hlonger : (behind ++ s :: b).takeWhile isValueChar = behind ++ s :: b.takeWhile isValueChar := by
    rw [List.takeWhile_append_of_pos hall, List.takeWhile_cons_of_pos hs]
  rw [valueAt?_append h atLineStart ha, hat, List.takeWhile_eq_self_iff.2 hall, ← hlonger]
  exact ⟨_, rfl⟩

theorem guidItem?_newline (atLineStart : Bool) (text : Text) : guidItem? atLineStart ('\n' :: text) = none := by
  cases atLineStart <;> rfl

theorem guidItem?_append_newline (atLineStart : Bool) (a b : Text) :
    guidItem? atLineStart (a ++ '\n' :: b) =
      (guidItem? atLineStart a).map fun (value, rest) => (value, rest ++ '\n' :: b) := by
  by_cases ha : a = []
  · subst ha
    exact guidItem?_newline atLineStart b
  · exact guidItem?_append stops_newline atLineStart ha b (fun hvalue => absurd hvalue (by decide))

/-! ## An entry is taken off the front -/

theorem skipQuote_suffix (text : Text) : skipQuote text <:+ text := by
  cases text with
  | nil => exact List.suffix_refl []
  | cons c text =>
    rw [skipQuote]
    split
    · exact List.suffix_cons c text
    · exact List.suffix_refl _

theorem skipDash_suffix (text : Text) : skipDash text <:+ text := by
  cases text with
  | nil => exact List.suffix_refl []
  | cons c text =>
    by_cases hc : c = '-'
    · subst hc
      rw [skipDash]
      cases h : blanks? text with
      | none => exact List.suffix_refl _
      | some rest =>
        obtain ⟨gap, rfl, -, -, -⟩ := blanks?_eq_some_iff.1 h
        exact List.suffix_append ('-' :: gap) rest
    · exact ⟨[], skipDash_of_ne hc text⟩

theorem suffix_of_keyPlace? {atLineStart : Bool} {text place : Text} (h : keyPlace? atLineStart text = some place) :
    place <:+ text := by
  cases text with
  | nil => cases h
  | cons c text =>
    rw [keyPlace?] at h
    split at h
    · obtain rfl := Option.some.inj h
      exact (List.dropWhile_suffix _).trans (List.suffix_cons c text)
    · split at h
      · obtain rfl := Option.some.inj h
        exact (skipDash_suffix _).trans (List.dropWhile_suffix _)
      · cases h

theorem suffix_of_afterIgnoringCase? : ∀ {word text rest : Text}, afterIgnoringCase? word text = some rest →
    rest <:+ text
  | [], _, _, h => by
    obtain rfl := Option.some.inj h
    exact List.suffix_refl _
  | _ :: _, [], _, h => by cases h
  | _ :: _, c :: text, _, h => by
    rw [afterIgnoringCase?] at h
    split at h
    · exact (suffix_of_afterIgnoringCase? h).trans (List.suffix_cons c text)
    · cases h

theorem suffix_of_afterKey? {word? : Text → Option Text} {skipGap : Text → Text}
    (hword : ∀ {a b : Text}, word? a = some b → b <:+ a) (hgap : ∀ a : Text, skipGap a <:+ a) {text rest : Text}
    (h : afterKey? word? skipGap text = some rest) : rest <:+ text := by
  obtain ⟨after, hafter, hcolon⟩ := Option.bind_eq_some_iff.1 h
  have hrest : rest <:+ skipGap (skipQuote after) := ⟨[':'], (after?_eq_some_iff.1 hcolon).symm⟩
  have hskip : skipGap (skipQuote after) <:+ after := (hgap _).trans (skipQuote_suffix after)
  exact (hrest.trans hskip).trans ((hword hafter).trans (skipQuote_suffix text))

theorem valueAt_suffix {atLineStart : Bool} {text rest : Text} (h : valueAt? atLineStart text = some rest) :
    rest <:+ text := by
  obtain ⟨behind, hbehind, rfl⟩ := Option.map_eq_some_iff.1 h
  obtain ⟨place, hplace, hkey⟩ := Option.bind_eq_some_iff.1 hbehind
  have hblanks : ∀ a : Text, skipBlanks a <:+ a := fun _ => List.dropWhile_suffix _
  have hvalue : skipQuote (skipBlanks behind) <:+ behind := (skipQuote_suffix _).trans (hblanks behind)
  have hsuffix : behind <:+ place := suffix_of_afterKey? suffix_of_afterIgnoringCase? hblanks hkey
  exact (hvalue.trans hsuffix).trans (suffix_of_keyPlace? hplace)

/-- What follows a value, and the value with it, ends the text. -/
theorem guidItem_append_suffix {atLineStart : Bool} {text value rest : Text}
    (h : guidItem? atLineStart text = some (value, rest)) : value ++ rest <:+ text := by
  rw [guidItem?_eq_map] at h
  obtain ⟨place, hplace, h⟩ := Option.map_eq_some_iff.1 h
  obtain ⟨rfl, rfl⟩ := Prod.mk.inj h
  rw [List.takeWhile_append_dropWhile]
  exact valueAt_suffix hplace

theorem guidItem_suffix {atLineStart : Bool} {text value rest : Text}
    (h : guidItem? atLineStart text = some (value, rest)) : rest <:+ text :=
  (List.suffix_append value rest).trans (guidItem_append_suffix h)

/-- **No entry without its first letter.** -/
theorem guidItem?_eq_none {atLineStart : Bool} {text : Text} (h : ∀ c ∈ text, c.toLower ≠ 'g') :
    guidItem? atLineStart text = none := by
  rw [Option.eq_none_iff_forall_ne_some]
  rintro entry hentry
  obtain ⟨place, hplace, hentry⟩ := Option.bind_eq_some_iff.1 hentry
  obtain ⟨behind, hkey, -⟩ := Option.bind_eq_some_iff.1 hentry
  obtain ⟨after, hword, -⟩ := Option.bind_eq_some_iff.1 hkey
  have hsuffix : skipQuote place <:+ text := (skipQuote_suffix place).trans (suffix_of_keyPlace? hplace)
  cases hquote : skipQuote place with
  | nil =>
    rw [hquote] at hword
    cases hword
  | cons c rest =>
    have hc : c.toLower ≠ 'g' := h c (hsuffix.subset (hquote ▸ List.mem_cons_self))
    rw [hquote, guidWord, afterIgnoringCase?, if_neg hc] at hword
    cases hword

/-! ## The entries of a text, one by one -/

theorem guidEntries_some {atLineStart : Bool} {text value rest : Text}
    (h : guidItem? atLineStart text = some (value, rest)) :
    guidEntries atLineStart text = value :: guidEntries false rest := by
  rw [guidEntries]
  split
  · rename_i heq
    rw [h] at heq
    cases heq
    rfl
  · rename_i heq
    rw [h] at heq
    cases heq

theorem guidEntries_nil (atLineStart : Bool) : guidEntries atLineStart [] = [] := by
  rw [guidEntries]
  split
  · rename_i heq
    rw [guidItem?_nil] at heq
    cases heq
  · rfl

theorem guidEntries_none {atLineStart : Bool} {c : Char} {text : Text} (h : guidItem? atLineStart (c :: text) = none) :
    guidEntries atLineStart (c :: text) = guidEntries (c = '\n') text := by
  rw [guidEntries]
  split
  · rename_i heq
    rw [h] at heq
    cases heq
  · rfl

theorem guidEntries_eq_nil : ∀ {text : Text} (atLineStart : Bool), (∀ c ∈ text, c.toLower ≠ 'g') →
    guidEntries atLineStart text = []
  | [], atLineStart, _ => guidEntries_nil atLineStart
  | c :: text, _, h => by
    rw [guidEntries_none (guidItem?_eq_none h)]
    exact guidEntries_eq_nil _ fun c' hc' => h c' (List.mem_cons_of_mem c hc')

/-- A value runs on over a character: what stands in front of it ends with the value so far, as its last entry, and in
the whole text the same entry goes on behind the character, as far as there is no end to it. -/
def RunsOver (atLineStart : Bool) (a : Text) (s : Char) (b head : Text) : Prop :=
  head <:+ a ∧ ∃ earlier later, guidEntries atLineStart a = earlier ++ [head] ∧
    guidEntries atLineStart (a ++ s :: b) = earlier ++ (head ++ s :: b.takeWhile isValueChar) :: later

/-- **A stop cuts the entries of a text in two**, unless a value runs on over it. -/
theorem guidEntries_append_or_runsOver (h : Stops s) (b : Text) (atLineStart : Bool) (a : Text) :
    (∃ next, guidEntries atLineStart (a ++ s :: b) = guidEntries atLineStart a ++ guidEntries next (s :: b)) ∨
      isValueChar s = true ∧ ∃ head, RunsOver atLineStart a s b head := by
  unfold RunsOver
  fun_induction guidEntries atLineStart a with
  | case1 atLineStart a value rest hentry ih =>
    by_cases hopen : isValueChar s = true ∧ rest = []
    · -- The value reaches the end of `a`, and so it takes the stop.
      obtain ⟨hs, rfl⟩ := hopen
      obtain ⟨behind, hlonger⟩ := guidItem?_runsOn h hs hentry b
      have hvalue : value <:+ a := by
        rw [← List.append_nil value]
        exact guidItem_append_suffix hentry
      refine .inr ⟨hs, value, hvalue, [], guidEntries false behind, ?_, guidEntries_some hlonger⟩
      rw [guidEntries_nil, List.nil_append]
    · have ha : a ≠ [] := by
        rintro rfl
        rw [guidItem?_nil] at hentry
        cases hentry
      have hends : isValueChar s = true → ∀ v, guidItem? atLineStart a ≠ some (v, []) := by
        intro hs v hv
        rw [hentry, Option.some.injEq, Prod.mk.injEq] at hv
        exact hopen ⟨hs, hv.2⟩
      have hcut : guidItem? atLineStart (a ++ s :: b) = some (value, rest ++ s :: b) := by
        rw [guidItem?_append h atLineStart ha b hends, hentry]
        rfl
      rw [guidEntries_some hcut]
      rcases ih with ⟨next, hnext⟩ | ⟨hs, head, hhead, earlier, later, hfront, hwhole⟩
      · exact .inl ⟨next, by rw [hnext, List.cons_append]⟩
      · refine .inr ⟨hs, head, hhead.trans (guidItem_suffix hentry), value :: earlier, later, ?_, ?_⟩
        · rw [hfront, List.cons_append]
        · rw [hwhole, List.cons_append]
  | case2 atLineStart hentry => exact .inl ⟨atLineStart, rfl⟩
  | case3 atLineStart c a hentry ih =>
    have hcut : guidItem? atLineStart (c :: (a ++ s :: b)) = none := by
      have := guidItem?_append h atLineStart (List.cons_ne_nil c a) b (by simp [hentry])
      rwa [hentry] at this
    rw [List.cons_append, guidEntries_none hcut]
    rcases ih with hcut | ⟨hs, head, hhead, hentries⟩
    · exact .inl hcut
    · exact .inr ⟨hs, head, hhead.trans (List.suffix_cons c a), hentries⟩

theorem guidEntries_append (h : Stops s) (hs : isValueChar s = false) (atLineStart : Bool) (a b : Text) :
    ∃ next, guidEntries atLineStart (a ++ s :: b) = guidEntries atLineStart a ++ guidEntries next (s :: b) := by
  refine (guidEntries_append_or_runsOver h b atLineStart a).resolve_right ?_
  rw [hs]
  simp

/-- **Behind a line feed reading starts afresh.** -/
theorem guidEntries_newline (atLineStart : Bool) (a b : Text) :
    guidEntries atLineStart (a ++ '\n' :: b) = guidEntries atLineStart a ++ guidEntries true b := by
  obtain ⟨next, hnext⟩ := guidEntries_append stops_newline (by decide) atLineStart a b
  rw [hnext, guidEntries_none (guidItem?_newline next b), decide_eq_true rfl]

end Text
end AssetIntegrity
