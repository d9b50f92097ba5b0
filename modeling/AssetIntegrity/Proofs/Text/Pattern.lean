import AssetIntegrity.Proofs.Text.Lines
import AssetIntegrity.Proofs.Text.Reading
import Mathlib.Data.List.Basic
/-!
# Patterns — what a backtracking search finds in a text

A pattern describes words of a text (`Pattern.Matches`), and a search tries the ways to read such a word off the front
of a text in a fixed order: a run takes as much as it can before it takes less, and the first of two alternatives comes
before the second (`Pattern.readings`).  The two agree on which words there are (`mem_readings_iff`); the order decides
which of them a search finds.

Where what follows a part cannot begin with a character the part could have taken, only the longest way to read the part
can succeed, so the search never goes back (`flatMap_run`, `flatMap_quote`).  A fixed word is read in one way
(`readings_exactly`, `readings_ignoringCase`).
-/
namespace AssetIntegrity

open Text

inductive Pattern where
  | place (holds : Text → Text → Bool)
  | one (p : Char → Bool)
  | run (p : Char → Bool)
  | either (a b : Pattern)
  | followedBy (a b : Pattern)

namespace Pattern

instance : Append Pattern := ⟨followedBy⟩

/-- The empty word. -/
def empty : Pattern := place fun _ _ => true

/-- The empty word where the text begins. -/
def textStart : Pattern := place fun before _ => before.isEmpty

/-- The empty word where a line begins. -/
def lineStart : Pattern := place fun before _ => decide (EndsLine before)

/-- The empty word where the text ends. -/
def textEnd : Pattern := place fun _ behind => behind.isEmpty

def optional (a : Pattern) : Pattern := either a empty

def quote : Pattern := optional (one isQuote)

/-- One or more characters of a class. -/
def several (p : Char → Bool) : Pattern := one p ++ run p

/-- A word, each of whose characters stands for those that are the `same`. -/
def spelled (same : Char → Char → Bool) : Text → Pattern
  | [] => empty
  | w :: word => one (same w) ++ spelled same word

def exactly (word : Text) : Pattern := spelled (fun w c => w == c) word

/-- A word in any mixture of ASCII case; `word` is in lower case. -/
def ignoringCase (word : Text) : Pattern := spelled (fun w c => c.toLower = w) word

/-- Whether a word has the form of a pattern, between what stands before it and what stands behind it. -/
def Matches : Pattern → Text → Text → Text → Prop
  | place holds, before, word, behind => word = [] ∧ holds before behind = true
  | one p, _, word, _ => ∃ c, word = [c] ∧ p c = true
  | run p, _, word, _ => ∀ c ∈ word, p c = true
  | either a b, before, word, behind => a.Matches before word behind ∨ b.Matches before word behind
  | followedBy a b, before, word, behind =>
    ∃ first second, word = first ++ second ∧ a.Matches before first (second ++ behind) ∧
      b.Matches (before ++ first) second behind

theorem matches_several_iff {p : Char → Bool} {before word behind : Text} :
    (several p).Matches before word behind ↔ IsRun p word := by
  constructor
  · rintro ⟨_, run, rfl, ⟨c, rfl, hc⟩, hrun⟩
    exact ⟨List.cons_ne_nil _ _, List.forall_mem_cons.2 ⟨hc, hrun⟩⟩
  · rintro ⟨hne, hall⟩
    obtain ⟨c, run, rfl⟩ := List.exists_cons_of_ne_nil hne
    obtain ⟨hc, hrun⟩ := List.forall_mem_cons.1 hall
    exact ⟨[c], run, rfl, ⟨c, rfl, hc⟩, hrun⟩

theorem matches_exactly_iff : ∀ {word before text behind : Text},
    (exactly word).Matches before text behind ↔ text = word
  | [], _, _, _ => and_iff_left rfl
  | w :: word, before, text, behind => by
    constructor
    · rintro ⟨_, rest, rfl, ⟨c, rfl, hc⟩, hrest⟩
      obtain rfl := eq_of_beq hc
      obtain rfl := matches_exactly_iff.1 hrest
      rfl
    · rintro rfl
      exact ⟨[w], word, rfl, ⟨w, rfl, beq_self_eq_true w⟩, matches_exactly_iff.2 rfl⟩

/-- What may follow a run in front of a text, when the longest run comes first. -/
def afterRuns (p : Char → Bool) : Text → List Text
  | [] => [[]]
  | c :: text => if p c then afterRuns p text ++ [c :: text] else [c :: text]

/-- What may follow a word in front of a text, in the order in which a search tries the words.  The text is the end of
`whole`, in which the pattern is sought. -/
def readings (whole : Text) : Pattern → Text → List Text
  | place holds, text => if holds (whole.take (whole.length - text.length)) text then [text] else []
  | one _, [] => []
  | one p, c :: text => if p c then [text] else []
  | run p, text => afterRuns p text
  | either a b, text => a.readings whole text ++ b.readings whole text
  | followedBy a b, text => (a.readings whole text).flatMap (b.readings whole)

/-! ## A search reads exactly the words of the pattern -/

theorem mem_afterRuns_iff {p : Char → Bool} {rest : Text} : ∀ {text : Text},
    rest ∈ afterRuns p text ↔ ∃ word, text = word ++ rest ∧ ∀ c ∈ word, p c = true
  | [] => by
    rw [afterRuns, List.mem_singleton]
    constructor
    · rintro rfl
      exact ⟨[], rfl, by simp⟩
    · rintro ⟨word, htext, -⟩
      exact (List.append_eq_nil_iff.1 htext.symm).2
  | c :: text => by
    have ih : rest ∈ afterRuns p text ↔ _ := mem_afterRuns_iff
    rw [afterRuns]
    constructor
    · intro h
      split at h
      · rename_i hc
        rcases List.mem_append.1 h with h | h
        · obtain ⟨word, rfl, hword⟩ := ih.1 h
          exact ⟨c :: word, rfl, List.forall_mem_cons.2 ⟨hc, hword⟩⟩
        · exact ⟨[], (List.mem_singleton.1 h).symm, by simp⟩
      · exact ⟨[], (List.mem_singleton.1 h).symm, by simp⟩
    · rintro ⟨_ | ⟨d, word⟩, htext, hword⟩
      · obtain rfl : c :: text = rest := htext
        split <;> simp
      · obtain ⟨rfl, rfl⟩ := List.cons.inj htext
        obtain ⟨hc, hword⟩ := List.forall_mem_cons.1 hword
        rw [if_pos hc]
        exact List.mem_append_left _ (ih.2 ⟨word, rfl, hword⟩)

/-- **A search reads the words that have the form, and no others.** -/
theorem mem_readings_iff : ∀ {a : Pattern} {before text rest : Text},
    rest ∈ a.readings (before ++ text) text ↔ ∃ word, text = word ++ rest ∧ a.Matches before word rest
  | place holds, before, text, rest => by
    rw [readings, take_front]
    constructor
    · intro h
      split at h
      · rename_i hplace
        obtain rfl := List.mem_singleton.1 h
        exact ⟨[], rfl, rfl, hplace⟩
      · cases h
    · rintro ⟨_, rfl, rfl, hplace⟩
      rw [List.nil_append, if_pos hplace]
      exact List.mem_singleton_self _
  | one p, before, [], rest => by
    constructor
    · intro h
      cases h
    · rintro ⟨_, htext, c, rfl, -⟩
      cases htext
  | one p, before, c :: text, rest => by
    rw [readings]
    constructor
    · intro h
      split at h
      · rename_i hc
        obtain rfl := List.mem_singleton.1 h
        exact ⟨[c], rfl, c, rfl, hc⟩
      · cases h
    · rintro ⟨_, htext, d, rfl, hd⟩
      obtain ⟨rfl, rfl⟩ := List.cons.inj htext
      rw [if_pos hd]
      exact List.mem_singleton_self _
  | run p, before, text, rest => mem_afterRuns_iff
  | either a b, before, text, rest => by
    rw [readings, List.mem_append, mem_readings_iff, mem_readings_iff]
    constructor
    · rintro (⟨word, htext, hword⟩ | ⟨word, htext, hword⟩)
      · exact ⟨word, htext, .inl hword⟩
      · exact ⟨word, htext, .inr hword⟩
    · rintro ⟨word, htext, hword | hword⟩
      · exact .inl ⟨word, htext, hword⟩
      · exact .inr ⟨word, htext, hword⟩
  | followedBy a b, before, text, rest => by
    rw [readings, List.mem_flatMap]
    constructor
    · rintro ⟨between, hbetween, hrest⟩
      obtain ⟨first, rfl, hfirst⟩ := mem_readings_iff.1 hbetween
      rw [← List.append_assoc] at hrest
      obtain ⟨second, rfl, hsecond⟩ := mem_readings_iff.1 hrest
      exact ⟨first ++ second, (List.append_assoc _ _ _).symm, first, second, rfl, hfirst, hsecond⟩
    · rintro ⟨_, rfl, first, second, rfl, hfirst, hsecond⟩
      rw [List.append_assoc]
      refine ⟨second ++ rest, mem_readings_iff.2 ⟨first, rfl, hfirst⟩, ?_⟩
      rw [← List.append_assoc before]
      exact mem_readings_iff.2 ⟨second, rfl, hsecond⟩

theorem mem_readings_self_iff {a : Pattern} {text rest : Text} :
    rest ∈ a.readings text text ↔ ∃ word, text = word ++ rest ∧ a.Matches [] word rest :=
  @mem_readings_iff a [] text rest

/-! ## Reading on without going back -/

section

variable {whole : Text} {α : Type} {p : Char → Bool}

theorem readings_append (a b : Pattern) (text : Text) :
    (a ++ b).readings whole text = (a.readings whole text).flatMap (b.readings whole) := rfl

theorem readings_either (a b : Pattern) (text : Text) :
    (either a b).readings whole text = a.readings whole text ++ b.readings whole text := rfl

theorem readings_optional (a : Pattern) (text : Text) :
    (optional a).readings whole text = a.readings whole text ++ [text] := rfl

theorem flatMap_one_cons (f : Text → List α) (c : Char) (text : Text) :
    ((one p).readings whole (c :: text)).flatMap f = if p c then f text else [] := by
  rw [readings]
  split
  · exact List.flatMap_singleton f text
  · rfl

/-- **A run takes all it can**, when nothing that follows it begins with a character of the run. -/
theorem flatMap_run {f : Text → List α} (hf : ∀ c text, p c = true → f (c :: text) = []) : ∀ text : Text,
    ((run p).readings whole text).flatMap f = f (text.dropWhile p)
  | [] => List.flatMap_singleton f []
  | c :: text => by
    have ih : (afterRuns p text).flatMap f = f (text.dropWhile p) := flatMap_run hf text
    rw [readings, afterRuns]
    split
    · rename_i hc
      rw [List.flatMap_append, List.flatMap_singleton, hf c text hc, List.append_nil, ih, List.dropWhile_cons_of_pos hc]
    · rename_i hc
      rw [List.flatMap_singleton, List.dropWhile_cons_of_neg hc]

/-- **A quote is taken where it stands**, when nothing that follows it begins with a quote. -/
theorem flatMap_quote {f : Text → List α} (hf : ∀ c text, isQuote c = true → f (c :: text) = []) : ∀ text : Text,
    (quote.readings whole text).flatMap f = f (skipQuote text)
  | [] => List.flatMap_singleton f []
  | c :: text => by
    rw [quote, readings_optional, List.flatMap_append, flatMap_one_cons, List.flatMap_singleton, skipQuote]
    split
    · rename_i hc
      rw [hf c text hc, List.append_nil]
    · rfl

/-- **A word is read in one way at most.** -/
theorem readings_spelled {same : Char → Char → Bool} {word? : Text → Text → Option Text}
    (hnil : ∀ text, word? [] text = some text) (hend : ∀ w word, word? (w :: word) [] = none)
    (hcons : ∀ w word c text, word? (w :: word) (c :: text) = if same w c then word? word text else none) :
    ∀ word text : Text, (spelled same word).readings whole text = (word? word text).toList
  | [], text => by
    rw [hnil]
    rfl
  | w :: word, [] => by
    rw [hend]
    rfl
  | w :: word, c :: text => by
    rw [hcons, spelled, readings_append, flatMap_one_cons]
    split
    · exact readings_spelled hnil hend hcons word text
    · rfl

theorem readings_exactly (word text : Text) : (exactly word).readings whole text = (after? word text).toList :=
  readings_spelled after?_nil (fun _ _ => rfl) after?_cons word text

theorem readings_ignoringCase (word text : Text) :
    (ignoringCase word).readings whole text = (afterIgnoringCase? word text).toList := by
  refine readings_spelled (fun _ => rfl) (fun _ _ => rfl) (fun w word c text => ?_) word text
  simp only [afterIgnoringCase?, decide_eq_true_eq]

/-- Of all runs the longest is read first. -/
theorem head?_afterRuns : ∀ text : Text, (afterRuns p text).head? = some (text.dropWhile p)
  | [] => rfl
  | c :: text => by
    rw [afterRuns]
    split
    · rename_i hc
      rw [List.head?_append, head?_afterRuns text, List.dropWhile_cons_of_pos hc]
      rfl
    · rename_i hc
      rw [List.dropWhile_cons_of_neg hc]
      rfl

theorem head?_quote (text : Text) : (quote.readings whole text).head? = some (skipQuote text) := by
  cases text with
  | nil => rfl
  | cons c text =>
    rw [quote, readings_optional, readings, skipQuote]
    split <;> rfl

/-- The first of all readings is that of the first part and then that of the second, when the second always has one. -/
theorem head?_append {a b : Pattern} {f : Text → Text} (hf : ∀ text, (b.readings whole text).head? = some (f text))
    (text : Text) : ((a ++ b).readings whole text).head? = (a.readings whole text).head?.map f := by
  rw [readings_append, List.head?_flatMap]
  cases a.readings whole text with
  | nil => rfl
  | cons rest more => rw [List.findSome?_cons, hf, List.head?_cons, Option.map_some]

end

end Pattern

/-! ## Searches -/

/-- A pattern in three parts, whose matches are sought for the word of the middle one. -/
structure Capture where
  front : Pattern
  value : Pattern
  behind : Pattern

namespace Capture

variable (c : Capture)

/-- The words of the middle part and what follows the whole match, in the order in which a search tries the matches in
front of a text. -/
def readings (whole text : Text) : List (Text × Text) :=
  (c.front.readings whole text).flatMap fun value =>
    (c.value.readings whole value).flatMap fun behind =>
      (c.behind.readings whole behind).map fun rest => (value.take (value.length - behind.length), rest)

/-- **A search finds the matches**, and no others. -/
theorem mem_readings_iff {before text value rest : Text} :
    (value, rest) ∈ c.readings (before ++ text) text ↔
      ∃ front behind, text = front ++ (value ++ (behind ++ rest)) ∧
        c.front.Matches before front (value ++ (behind ++ rest)) ∧
        c.value.Matches (before ++ front) value (behind ++ rest) ∧
        c.behind.Matches (before ++ front ++ value) behind rest := by
  rw [readings, List.mem_flatMap]
  constructor
  · rintro ⟨atValue, hvalue, hmem⟩
    obtain ⟨front, rfl, hfront⟩ := Pattern.mem_readings_iff.1 hvalue
    obtain ⟨atBehind, hbehind, hmem⟩ := List.mem_flatMap.1 hmem
    rw [← List.append_assoc] at hbehind
    obtain ⟨word, rfl, hword⟩ := Pattern.mem_readings_iff.1 hbehind
    obtain ⟨atRest, hrest, heq⟩ := List.mem_map.1 hmem
    obtain ⟨rfl, rfl⟩ := Prod.mk.inj heq
    rw [← List.append_assoc, ← List.append_assoc] at hrest
    obtain ⟨behind, rfl, hmatch⟩ := Pattern.mem_readings_iff.1 hrest
    rw [take_front]
    exact ⟨front, behind, rfl, hfront, hword, hmatch⟩
  · rintro ⟨front, behind, rfl, hfront, hvalue, hbehind⟩
    refine ⟨_, Pattern.mem_readings_iff.2 ⟨front, rfl, hfront⟩, List.mem_flatMap.2 ⟨behind ++ rest, ?_, ?_⟩⟩
    · rw [← List.append_assoc]
      exact Pattern.mem_readings_iff.2 ⟨value, rfl, hvalue⟩
    · refine List.mem_map.2 ⟨rest, ?_, by rw [take_front]⟩
      rw [← List.append_assoc, ← List.append_assoc]
      exact Pattern.mem_readings_iff.2 ⟨behind, rfl, hbehind⟩

/-- What the first match in a text holds, at the first place where there is one. -/
def find? (text : Text) : Option Text :=
  text.tails.findSome? fun tail => (c.readings text tail).head?.map Prod.fst

/-- What the matches in a text hold, from left to right.  Each search begins behind the match before it, or behind the
next character when that match is empty. -/
def findFrom (whole : Text) : Text → List Text
  | [] => ((c.readings whole []).head?.map Prod.fst).toList
  | a :: text =>
    match (c.readings whole (a :: text)).head? with
    | none => findFrom whole text
    | some (value, rest) => value :: findFrom whole (if rest.length ≤ text.length then rest else text)
termination_by text => text.length
decreasing_by
  · exact Nat.lt_succ_self _
  · split
    · exact Nat.lt_succ_of_le ‹_›
    · exact Nat.lt_succ_self _

def findAll (text : Text) : List Text := c.findFrom text text

variable {c} {whole : Text}

theorem findFrom_none {a : Char} {text : Text} (h : (c.readings whole (a :: text)).head? = none) :
    c.findFrom whole (a :: text) = c.findFrom whole text := by
  rw [findFrom, h]

theorem findFrom_some {text value rest : Text} (h : (c.readings whole text).head? = some (value, rest))
    (hlength : rest.length < text.length) : c.findFrom whole text = value :: c.findFrom whole rest := by
  cases text with
  | nil => exact absurd hlength (Nat.not_lt_zero _)
  | cons a text =>
    rw [findFrom, h]
    dsimp only
    rw [if_pos (Nat.le_of_lt_succ hlength)]

end Capture
end AssetIntegrity
