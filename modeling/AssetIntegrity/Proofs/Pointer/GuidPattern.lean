import AssetIntegrity.Proofs.Pointer.KeyPattern
import AssetIntegrity.Proofs.Pointer.GuidSites
/-!
# GUID patterns — the values of a text, said in two other ways

The values of a text are found by a search for one pattern (`guidValue`), whose alternatives and optional parts leave
only one choice that matters: what stands between the colon and the value is taken as far as it goes
(`head?_readings_guidValue`).  They are also what reading from left to right finds by the form of the entries alone:
the first place where the key begins, the longest key there, the longest value behind it, and so on behind the value
(`GuidRun`, `guidRun_iff`).  Since no entry holds a line feed, both may be done line by line (`guids_exact`).
-/
namespace AssetIntegrity
namespace Text

open Pattern

/-! ## The pattern of an entry -/

/-- A dash and the gap behind it. -/
def listDash : Pattern := one (fun c => c = '-') ++ one isBlank ++ run isBlank

/-- Where the key of an entry may begin: behind the indentation and the dash of a line, or behind a brace or a comma. -/
def guidPlace : Pattern :=
  either (lineStart ++ (run isBlank ++ optional listDash)) (one (fun c => c = '{' || c = ',') ++ run isBlank)

/-- What stands in front of a GUID value. -/
def guidKey : Pattern := guidPlace ++ key (ignoringCase guidWord) isBlank ++ (run isBlank ++ quote)

def guidValue : Capture := ⟨guidKey, run isValueChar, Pattern.empty⟩

/-! ## A search for the pattern reads the entry -/

section

variable {whole : Text} {f : Text → List Text}

/-- **Nothing is read where no key can begin**: at the end, and at a blank, a dash, a brace or a comma. -/
structure Refuses (f : Text → List Text) : Prop where
  nil : f [] = []
  blank : ∀ c text, isBlank c = true → f (c :: text) = []
  dash : ∀ text, f ('-' :: text) = []
  mark : ∀ c text, (c = '{' || c = ',') = true → f (c :: text) = []

theorem flatMap_listDash (hf : Refuses f) (text : Text) :
    ((optional listDash).readings whole text).flatMap f = f (skipDash text) := by
  rw [readings_optional, List.flatMap_append, List.flatMap_singleton, listDash]
  simp only [readings_append, List.flatMap_assoc]
  cases text with
  | nil => rfl
  | cons c text =>
    rw [flatMap_one_cons]
    by_cases hc : c = '-'
    · subst hc
      rw [if_pos (by rfl), hf.dash, List.append_nil, skipDash]
      cases text with
      | nil => exact (hf.dash []).symm
      | cons d text =>
        rw [flatMap_one_cons, blanks?]
        split
        · rw [flatMap_run hf.blank]
          rfl
        · exact (hf.dash _).symm
    · rw [if_neg (by simpa using hc), List.nil_append, skipDash_of_ne hc]

theorem flatMap_lineStart (f : Text → List Text) (before text : Text) :
    (lineStart.readings (before ++ text) text).flatMap f = if EndsLine before then f text else [] := by
  rw [lineStart, readings, take_front]
  simp only [decide_eq_true_eq]
  split
  · exact List.flatMap_singleton f text
  · rfl

theorem flatMap_indent (hf : Refuses f) (text : Text) :
    ((run isBlank ++ optional listDash).readings whole text).flatMap f = f (skipDash (skipBlanks text)) := by
  simp only [readings_append, List.flatMap_assoc, flatMap_listDash hf]
  rw [flatMap_run]
  · rfl
  · intro c text hc
    rw [skipDash_of_ne, hf.blank c text hc]
    rintro rfl
    cases hc

/-- A brace or a comma is no indentation. -/
theorem skipDash_skipBlanks_of_mark {c : Char} (hc : (c = '{' || c = ',') = true) (text : Text) :
    skipDash (skipBlanks (c :: text)) = c :: text := by
  rw [Bool.or_eq_true, decide_eq_true_eq, decide_eq_true_eq] at hc
  have hplain : isBlank c = false ∧ c ≠ '-' := by rcases hc with rfl | rfl <;> decide
  rw [skipBlanks, List.dropWhile_cons_of_neg (by simp [hplain.1]), skipDash_of_ne hplain.2]

/-- **The place of a key is found in one way**, when a key must follow. -/
theorem flatMap_guidPlace (hf : Refuses f) (before text : Text) :
    (guidPlace.readings (before ++ text) text).flatMap f =
      (keyPlace? (decide (EndsLine before)) text).toList.flatMap f := by
  rw [guidPlace, readings_either, List.flatMap_append, readings_append, List.flatMap_assoc, flatMap_lineStart,
    flatMap_indent hf, readings_append, List.flatMap_assoc]
  cases text with
  | nil =>
    have hnil : f (skipDash (skipBlanks [])) = [] := hf.nil
    rw [hnil, ite_self]
    rfl
  | cons c text =>
    rw [keyPlace?, flatMap_one_cons, flatMap_run hf.blank]
    by_cases hc : (c = '{' || c = ',') = true
    · rw [if_pos hc, if_pos hc, skipDash_skipBlanks_of_mark hc, hf.mark c text hc, ite_self]
      exact (List.flatMap_singleton f _).symm
    · rw [if_neg hc, if_neg hc, List.append_nil]
      simp only [decide_eq_true_eq]
      split
      · exact (List.flatMap_singleton f _).symm
      · rfl

end

/-! ## The first match -/

theorem refuses_afterKey? : Refuses fun text => (afterKey? (afterIgnoringCase? guidWord) skipBlanks text).toList where
  nil := rfl
  blank := by
    intro c text hc
    rw [isBlank, Bool.or_eq_true, decide_eq_true_eq, decide_eq_true_eq] at hc
    rcases hc with rfl | rfl <;> rfl
  dash := fun _ => rfl
  mark := by
    intro c text hc
    rw [Bool.or_eq_true, decide_eq_true_eq, decide_eq_true_eq] at hc
    rcases hc with rfl | rfl <;> rfl

/-- **An entry up to its colon is read in one way at most.** -/
theorem readings_guidPlace_key (before text : Text) :
    ((guidPlace ++ key (ignoringCase guidWord) isBlank).readings (before ++ text) text) =
      ((keyPlace? (decide (EndsLine before)) text).bind
        (afterKey? (afterIgnoringCase? guidWord) skipBlanks)).toList := by
  have hkey : ((key (ignoringCase guidWord) isBlank).readings (before ++ text)) =
      fun text => (afterKey? (afterIgnoringCase? guidWord) skipBlanks text).toList :=
    funext (readings_guidKey (forall_isQuote (by decide) (by decide)) (by decide))
  rw [readings_append, hkey, flatMap_guidPlace refuses_afterKey?, flatMap_toList]

theorem head?_readings_gap (whole text : Text) :
    ((run isBlank ++ quote).readings whole text).head? = some (skipQuote (skipBlanks text)) := by
  rw [head?_append head?_quote, readings, head?_afterRuns]
  rfl

theorem head?_readings_guidKey (before text : Text) :
    (guidKey.readings (before ++ text) text).head? = valueAt? (decide (EndsLine before)) text := by
  rw [guidKey, head?_append (head?_readings_gap _), readings_guidPlace_key, Option.head?_toList]
  rfl

/-- **The first match of the pattern is the entry** that begins at this place. -/
theorem head?_readings_guidValue (before text : Text) :
    (guidValue.readings (before ++ text) text).head? = guidItem? (decide (EndsLine before)) text := by
  have hvalue : ∀ value : Text, ((afterRuns isValueChar value).flatMap fun behind =>
      [(value.take (value.length - behind.length), behind)]).head? =
        some (value.takeWhile isValueChar, value.dropWhile isValueChar) := by
    intro value
    rw [← List.map_eq_flatMap, List.head?_map, head?_afterRuns, Option.map_some, take_takeWhile]
  rw [guidItem?_eq_map, ← head?_readings_guidKey]
  change ((guidKey.readings (before ++ text) text).flatMap fun value =>
    (afterRuns isValueChar value).flatMap fun behind =>
      [(value.take (value.length - behind.length), behind)]).head? = _
  rw [List.head?_flatMap]
  cases guidKey.readings (before ++ text) text with
  | nil => rfl
  | cons value more => rw [List.findSome?_cons, hvalue, List.head?_cons, Option.map_some]

/-! ## The next search -/

/-- **An entry stands on one line.** -/
theorem newline_notMem_of_guidItem? {atLineStart : Bool} {used rest value : Text}
    (h : guidItem? atLineStart (used ++ rest) = some (value, rest)) : '\n' ∉ used := by
  intro hmem
  obtain ⟨front, back, rfl⟩ := List.append_of_mem hmem
  rw [List.append_assoc, List.cons_append, guidItem?_append_newline] at h
  -- the entry would leave the line feed unread
  obtain ⟨⟨_, behind⟩, -, hcut⟩ := Option.map_eq_some_iff.1 h
  have hlength := congrArg List.length (Prod.mk.inj hcut).2
  simp only [List.length_append, List.length_cons] at hlength
  omega

theorem not_endsLine_of_guidItem? {atLineStart : Bool} {used rest value : Text}
    (h : guidItem? atLineStart (used ++ rest) = some (value, rest)) (before : Text) :
    ¬ EndsLine (before ++ used) := by
  have hmem := newline_notMem_of_guidItem? h
  rcases List.eq_nil_or_concat used with rfl | ⟨front, c, rfl⟩
  · exact absurd (length_of_guidItem? h) (Nat.lt_irrefl _)
  · rw [List.concat_eq_append] at hmem ⊢
    rw [← List.append_assoc, endsLine_concat_iff]
    rintro rfl
    exact hmem (List.mem_append_right front (List.mem_singleton_self _))

/-- **A search for the pattern finds the entries.** -/
theorem findFrom_guidValue (before text : Text) :
    guidValue.findFrom (before ++ text) text = guidEntries (decide (EndsLine before)) text := by
  have hfirst := head?_readings_guidValue before text
  cases hentry : guidItem? (decide (EndsLine before)) text with
  | some entry =>
    obtain ⟨value, rest⟩ := entry
    have hlength := length_of_guidItem? hentry
    obtain ⟨used, rfl⟩ := guidItem_suffix hentry
    have ih := findFrom_guidValue (before ++ used) rest
    rw [decide_eq_false (not_endsLine_of_guidItem? hentry before)] at ih
    rw [Capture.findFrom_some (hfirst.trans hentry) hlength, guidEntries_some hentry, ← List.append_assoc, ih]
  | none =>
    cases text with
    | nil =>
      rw [Capture.findFrom, hfirst, hentry, guidEntries_nil]
      rfl
    | cons c text =>
      have ih := findFrom_guidValue (before ++ [c]) text
      rw [List.append_assoc, List.singleton_append, decide_eq_decide.2 endsLine_concat_iff] at ih
      rw [Capture.findFrom_none (hfirst.trans hentry), guidEntries_none hentry, ih]
termination_by text.length
decreasing_by
  · exact Nat.lt_succ_self _
  · assumption

/-! ## Reading from left to right -/

/-- Whether what stands in front of a GUID value begins a text. -/
def GuidKeyBegins (before text : Text) : Prop :=
  ∃ word behind, text = word ++ behind ∧ guidKey.Matches before word behind

/-- **The longest word that may stand in front of a GUID value**, between a text and what follows. -/
structure IsLongestKey (before key rest : Text) : Prop where
  fits : guidKey.Matches before key rest
  longest : ∀ word behind, key ++ rest = word ++ behind → guidKey.Matches before word behind → word.length ≤ key.length

/-- **Reading from left to right**: the values found in a text that follows `before`. -/
inductive GuidRun : Text → Text → List Text → Prop
  /-- No key begins in the text. -/
  | done {before text : Text}
      (hnone : ∀ skipped more, text = skipped ++ more → ¬ GuidKeyBegins (before ++ skipped) more) :
      GuidRun before text []
  /-- A longest key, where the first one begins, and behind it a longest run of the characters of a value. -/
  | next {before front key value rest : Text} {values : List Text}
      (hfirst : ∀ skipped more, front = skipped ++ more → more ≠ [] →
        ¬ GuidKeyBegins (before ++ skipped) (more ++ (key ++ (value ++ rest))))
      (hkey : IsLongestKey (before ++ front) key (value ++ rest))
      (hvalue : ∀ c ∈ value, isValueChar c = true) (hend : ∀ c ∈ rest.head?, isValueChar c = false)
      (hmore : GuidRun (before ++ front ++ (key ++ value)) rest values) :
      GuidRun before (front ++ (key ++ (value ++ rest))) (value :: values)

/-- Behind the colon a search takes as much as it can. -/
theorem length_le_of_mem_gap {whole text rest : Text} (h : rest ∈ (run isBlank ++ quote).readings whole text) :
    (skipQuote (skipBlanks text)).length ≤ rest.length := by
  obtain ⟨behind, hbehind, hrest⟩ := List.mem_flatMap.1 h
  obtain ⟨gap, rfl, hgap⟩ := mem_afterRuns_iff.1 hbehind
  rw [skipBlanks, List.dropWhile_append_of_pos hgap]
  rw [quote, readings_optional, List.mem_append, List.mem_singleton] at hrest
  have hle := Nat.le_trans (length_skipQuote_le (skipBlanks behind)) (length_skipBlanks_le behind)
  rcases hrest with hrest | rfl
  · cases behind with
    | nil => cases hrest
    | cons c behind =>
      rw [readings] at hrest
      split at hrest
      · -- the quote ends the gap and is taken
        rename_i hc
        obtain rfl := List.mem_singleton.1 hrest
        have hblank : isBlank c = false := eq_false_of_isQuote (by decide) (by decide) hc
        rw [List.dropWhile_cons_of_neg (by simp [hblank]), skipQuote, if_pos hc]
      · cases hrest
  · exact hle

theorem length_le_of_mem_readings_guidKey {before text rest behind : Text}
    (h : valueAt? (decide (EndsLine before)) text = some rest)
    (hmem : behind ∈ guidKey.readings (before ++ text) text) :
    rest.length ≤ behind.length := by
  rw [guidKey, readings_append, readings_guidPlace_key] at hmem
  obtain ⟨colon, hcolon, hgap⟩ := List.mem_flatMap.1 hmem
  rw [valueAt?, Option.mem_toList.1 hcolon, Option.map_some, Option.some.injEq] at h
  rw [← h]
  exact length_le_of_mem_gap hgap

theorem guidKeyBegins_iff {before text : Text} :
    GuidKeyBegins before text ↔ ∃ rest, valueAt? (decide (EndsLine before)) text = some rest := by
  rw [← head?_readings_guidKey]
  constructor
  · rintro ⟨word, behind, htext, hword⟩
    have hmem : behind ∈ guidKey.readings (before ++ text) text := mem_readings_iff.2 ⟨word, htext, hword⟩
    exact ⟨_, List.head?_eq_some_head (List.ne_nil_of_mem hmem)⟩
  · rintro ⟨rest, hrest⟩
    obtain ⟨word, htext, hword⟩ := mem_readings_iff.1 (List.mem_of_head? hrest)
    exact ⟨word, rest, htext, hword⟩

/-- **A value begins behind the longest key.** -/
theorem valueAt?_eq_some_iff {before text rest : Text} :
    valueAt? (decide (EndsLine before)) text = some rest ↔
      ∃ key, text = key ++ rest ∧ IsLongestKey before key rest := by
  have hfits : ∀ rest, valueAt? (decide (EndsLine before)) text = some rest →
      ∃ key, text = key ++ rest ∧ IsLongestKey before key rest := by
    intro rest hrest
    obtain ⟨key, rfl, hkey⟩ := mem_readings_iff.1 (List.mem_of_head? ((head?_readings_guidKey _ _).trans hrest))
    refine ⟨key, rfl, hkey, fun word behind hword hmatch => ?_⟩
    have hle := length_le_of_mem_readings_guidKey hrest (mem_readings_iff.2 ⟨word, hword, hmatch⟩)
    have hlength := congrArg List.length hword
    rw [List.length_append, List.length_append] at hlength
    omega
  refine ⟨hfits rest, fun ⟨key, htext, hkey⟩ => ?_⟩
  subst htext
  obtain ⟨other, hother⟩ := guidKeyBegins_iff.1 ⟨key, rest, rfl, hkey.fits⟩
  obtain ⟨word, hword, hlongest⟩ := hfits other hother
  have hlength := Nat.le_antisymm (hlongest.longest key rest hword.symm hkey.fits)
    (hkey.longest word other hword hlongest.fits)
  rw [hother, (List.append_inj hword hlength).2]

theorem guidItem?_eq_some_iff {before text value rest : Text} :
    guidItem? (decide (EndsLine before)) text = some (value, rest) ↔
      ∃ key, text = key ++ (value ++ rest) ∧ IsLongestKey before key (value ++ rest) ∧
        (∀ c ∈ value, isValueChar c = true) ∧ ∀ c ∈ rest.head?, isValueChar c = false := by
  rw [guidItem?_eq_map, Option.map_eq_some_iff]
  constructor
  · rintro ⟨behind, hbehind, hvalue⟩
    obtain ⟨rfl, hrun⟩ := run_iff.1 (Prod.mk.inj hvalue)
    obtain ⟨key, htext, hkey⟩ := valueAt?_eq_some_iff.1 hbehind
    exact ⟨key, htext, hkey, hrun⟩
  · rintro ⟨key, htext, hkey, hrun⟩
    refine ⟨value ++ rest, valueAt?_eq_some_iff.2 ⟨key, htext, hkey⟩, ?_⟩
    obtain ⟨htake, hdrop⟩ := run_iff.2 ⟨rfl, hrun⟩
    rw [htake, hdrop]

theorem guidItem?_eq_none_iff {before text : Text} :
    guidItem? (decide (EndsLine before)) text = none ↔ ¬ GuidKeyBegins before text := by
  rw [guidItem?_eq_map, Option.map_eq_none_iff, guidKeyBegins_iff, ← Option.ne_none_iff_exists', not_not]

/-- **Where no key begins nothing is read.** -/
theorem guidEntries_skip : ∀ {before front tail : Text},
    (∀ skipped more, front = skipped ++ more → more ≠ [] → ¬ GuidKeyBegins (before ++ skipped) (more ++ tail)) →
    guidEntries (decide (EndsLine before)) (front ++ tail) = guidEntries (decide (EndsLine (before ++ front))) tail
  | before, [], tail, _ => by rw [List.append_nil, List.nil_append]
  | before, c :: front, tail, h => by
    have hnone : ¬ GuidKeyBegins before (c :: (front ++ tail)) := by
      have := h [] (c :: front) rfl (List.cons_ne_nil c front)
      rwa [List.append_nil] at this
    have hmore : ∀ skipped more, front = skipped ++ more → more ≠ [] →
        ¬ GuidKeyBegins (before ++ [c] ++ skipped) (more ++ tail) := by
      rintro skipped more rfl hne
      have := h (c :: skipped) more rfl hne
      rwa [List.append_assoc]
    rw [List.cons_append, guidEntries_none (guidItem?_eq_none_iff.2 hnone), ← decide_eq_decide.2 endsLine_concat_iff,
      guidEntries_skip hmore, List.append_assoc]
    rfl

theorem GuidRun.cons {before text : Text} {c : Char} {values : List Text} (hnone : ¬ GuidKeyBegins before (c :: text))
    (h : GuidRun (before ++ [c]) text values) : GuidRun before (c :: text) values := by
  have hbegin : ¬ GuidKeyBegins (before ++ []) (c :: text) := by rwa [List.append_nil]
  generalize hbefore : before ++ [c] = front at h
  cases h with
  | done hlater =>
    refine .done fun skipped more htext => ?_
    cases skipped with
    | nil =>
      obtain rfl : c :: text = more := htext
      exact hbegin
    | cons d skipped =>
      obtain ⟨rfl, rfl⟩ := List.cons.inj htext
      rw [List.append_cons, hbefore]
      exact hlater skipped more rfl
  | @next _ skip key value rest values hfirst hkey hvalue hend hmore =>
    have hfront : before ++ c :: skip = front ++ skip := by rw [List.append_cons, hbefore]
    rw [← hfront] at hkey hmore
    refine @GuidRun.next before (c :: skip) key value rest values (fun skipped more hsplit hne => ?_) hkey hvalue hend
      hmore
    cases skipped with
    | nil =>
      obtain rfl : c :: skip = more := hsplit
      exact hbegin
    | cons d skipped =>
      obtain ⟨rfl, rfl⟩ := List.cons.inj hsplit
      rw [List.append_cons, hbefore]
      exact hfirst skipped more rfl hne

theorem guidEntries_of_run {before text : Text} {values : List Text} (h : GuidRun before text values) :
    guidEntries (decide (EndsLine before)) text = values := by
  induction h with
  | @done before text hnone =>
    have hskip := @guidEntries_skip before text [] fun skipped more htext _ => by
      rw [List.append_nil]
      exact hnone skipped more htext
    rwa [List.append_nil, guidEntries_nil] at hskip
  | @next before front key value rest values hfirst hkey hvalue hend _ ih =>
    have hentry : guidItem? (decide (EndsLine (before ++ front))) (key ++ (value ++ rest)) = some (value, rest) :=
      guidItem?_eq_some_iff.2 ⟨key, rfl, hkey, hvalue, hend⟩
    rw [guidEntries_skip hfirst, guidEntries_some hentry]
    rw [← List.append_assoc] at hentry
    rw [decide_eq_false (not_endsLine_of_guidItem? hentry (before ++ front))] at ih
    rw [ih]

theorem run_guidEntries (before text : Text) : GuidRun before text (guidEntries (decide (EndsLine before)) text) := by
  cases hentry : guidItem? (decide (EndsLine before)) text with
  | none =>
    cases text with
    | nil =>
      rw [guidEntries_nil]
      refine .done fun skipped more htext => ?_
      obtain ⟨rfl, rfl⟩ := List.append_eq_nil_iff.1 htext.symm
      rw [List.append_nil]
      exact guidItem?_eq_none_iff.1 hentry
    | cons c text =>
      have hrun := run_guidEntries (before ++ [c]) text
      rw [decide_eq_decide.2 endsLine_concat_iff] at hrun
      rw [guidEntries_none hentry]
      exact hrun.cons (guidItem?_eq_none_iff.1 hentry)
  | some entry =>
    obtain ⟨value, rest⟩ := entry
    have hlength := length_of_guidItem? hentry
    obtain ⟨key, rfl, hkey, hvalue, hend⟩ := guidItem?_eq_some_iff.1 hentry
    have hrun := run_guidEntries (before ++ (key ++ value)) rest
    rw [guidEntries_some hentry]
    rw [← List.append_assoc] at hentry
    rw [decide_eq_false (not_endsLine_of_guidItem? hentry before)] at hrun
    refine @GuidRun.next before [] key value rest _ (fun skipped more hsplit hne => ?_) ?_ hvalue hend ?_
    · exact absurd (List.append_eq_nil_iff.1 hsplit.symm).2 hne
    · rwa [List.append_nil]
    · rwa [List.append_nil]
termination_by text.length
decreasing_by
  · exact Nat.lt_succ_self _
  · assumption

/-- **Reading from left to right finds the entries**, and can find nothing else. -/
theorem guidRun_iff {before text : Text} {values : List Text} :
    GuidRun before text values ↔ guidEntries (decide (EndsLine before)) text = values :=
  ⟨guidEntries_of_run, fun h => h ▸ run_guidEntries before text⟩

/-! ## Line by line -/

theorem flatMap_guids : ∀ {cut : List Text}, WellCut cut → guids cut.flatten = cut.flatMap guids
  | [], _ => guids_nil
  | line :: more, h => by
    rw [List.flatten_cons, guids_cons h, flatMap_guids (WellCut.right (a := [line]) h), List.flatMap_cons]

theorem guids_eq_flatMap_lines (text : Text) : guids text = (lines text).flatMap guids := by
  rw [← flatMap_guids (wellCut_lines text), flatten_lines]

/-- **GUID values are read line by line, from left to right.**  The values of a text are those of its lines, and those
of two texts put together at a line end are those of the first and then those of the second.  Reading from left to right
by the form of the entries finds one list of values, and a search for the pattern finds the same list; the values are
the words of it that are not empty. -/
theorem guids_exact :
    (∀ text : Text, guids text = (lines text).flatMap guids) ∧
    (∀ a b : Text, EndsLine a → guids (a ++ b) = guids a ++ guids b) ∧
    ∀ text : Text, ∃ values : List Text,
      (∀ found, GuidRun [] text found ↔ found = values) ∧ guidValue.findAll text = values ∧
      guids text = (values.filter fun value => !value.isEmpty).map String.ofList := by
  refine ⟨guids_eq_flatMap_lines, fun a b ha => ?_, fun text => ⟨guidEntries true text, fun found => ?_, ?_, rfl⟩⟩
  · rw [guids_eq_flatMap_lines, lines_append ha, List.flatMap_append, ← guids_eq_flatMap_lines,
      ← guids_eq_flatMap_lines]
  · rw [guidRun_iff, decide_eq_true (.inl rfl)]
    exact eq_comm
  · have hfind := findFrom_guidValue [] text
    rwa [decide_eq_true (.inl rfl)] at hfind

/-- A value runs on over a key, and an empty one does not hide the next. -/
example : guids "- guid: a\x7bguid:b\n\x7bguid: , 'GUID' : c\x7d".toList = ["a\x7bguid:b", "c"] := by decide +kernel

end Text
end AssetIntegrity
