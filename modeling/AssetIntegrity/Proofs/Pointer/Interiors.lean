import AssetIntegrity.Pointer.Local
import AssetIntegrity.Proofs.Text.Pattern
/-!
# Interiors — the innermost pairs of braces of a text

A pair of braces with no brace between them is told by the text from its opening brace on (`interiorAt?`), so whatever
braces stand elsewhere, reading a body finds each such pair once, in order (`interiors_cons`, `mem_pointers_iff`,
`pairwise_pointersFrom`).  A search for the pattern of a pair finds the same pairs (`findFrom_pointer`).
-/
namespace AssetIntegrity
namespace Text

open Pattern

/-- What may stand between the braces of an innermost pair. -/
def isInner (c : Char) : Bool := !(c = '{' || c = '}')

/-- **An innermost pair of braces**: what stands in front of it, and what it holds. -/
def IsPointer (body front interior : Text) : Prop :=
  ∃ rest, body = front ++ '{' :: (interior ++ '}' :: rest) ∧ '{' ∉ interior ∧ '}' ∉ interior

/-- What the innermost pair of braces holds that begins a text, and what follows the pair. -/
def interiorAt? (text : Text) : Option (Text × Text) :=
  (after? ['{'] text).bind fun inner =>
    (after? ['}'] (inner.dropWhile isInner)).map fun rest => (inner.takeWhile isInner, rest)

theorem isInner_iff {c : Char} : isInner c = true ↔ c ≠ '{' ∧ c ≠ '}' := by
  rw [isInner, Bool.not_eq_true', Bool.or_eq_false_iff, decide_eq_false_iff_not, decide_eq_false_iff_not]

theorem forall_isInner_iff {text : Text} : (∀ c ∈ text, isInner c = true) ↔ '{' ∉ text ∧ '}' ∉ text := by
  simp only [isInner_iff]
  constructor
  · intro h
    exact ⟨fun hmem => (h _ hmem).1 rfl, fun hmem => (h _ hmem).2 rfl⟩
  · rintro ⟨hopen, hclose⟩ c hc
    exact ⟨ne_of_mem_of_not_mem hc hopen, ne_of_mem_of_not_mem hc hclose⟩

theorem interiorAt?_open {inner behind : Text} (hinner : ∀ c ∈ inner, isInner c = true)
    (hbehind : ∀ c ∈ behind.head?, isInner c = false) :
    interiorAt? ('{' :: (inner ++ behind)) = (after? ['}'] behind).map fun rest => (inner, rest) := by
  have hopen : after? ['{'] ('{' :: (inner ++ behind)) = some (inner ++ behind) := after?_eq_some_iff.2 rfl
  obtain ⟨htake, hdrop⟩ := run_iff.2 ⟨rfl, hinner, hbehind⟩
  rw [interiorAt?, hopen, Option.bind_some, htake, hdrop]

theorem interiorAt?_cons_of_ne {c : Char} (hc : c ≠ '{') (text : Text) : interiorAt? (c :: text) = none := by
  rw [interiorAt?, after?_cons_of_ne hc]
  rfl

theorem interiorAt?_eq_some_iff {text interior rest : Text} :
    interiorAt? text = some (interior, rest) ↔
      text = '{' :: (interior ++ '}' :: rest) ∧ '{' ∉ interior ∧ '}' ∉ interior := by
  rw [← forall_isInner_iff]
  constructor
  · intro h
    obtain ⟨inner, hopen, h⟩ := Option.bind_eq_some_iff.1 h
    obtain ⟨behind, hclose, h⟩ := Option.map_eq_some_iff.1 h
    obtain ⟨hinterior, rfl⟩ := Prod.mk.inj h
    obtain ⟨rfl, hall, -⟩ := run_iff.1 ⟨hinterior, after?_eq_some_iff.1 hclose⟩
    exact ⟨after?_eq_some_iff.1 hopen, hall⟩
  · rintro ⟨rfl, hall⟩
    have hclose : after? ['}'] ('}' :: rest) = some rest := after?_eq_some_iff.2 rfl
    have hbrace : ∀ c ∈ ('}' :: rest).head?, isInner c = false := by
      rintro _ ⟨⟩
      rfl
    rw [interiorAt?_open hall hbrace, hclose]
    rfl

/-! ## What was read in front of a pair does not matter -/

theorem interiorsFrom_nil (pending : Option Text) : interiorsFrom pending [] = [] := by
  simp only [interiorsFrom]

theorem interiorsFrom_open (pending : Option Text) (text : Text) :
    interiorsFrom pending ('{' :: text) = interiorsFrom (some []) text := by
  simp only [interiorsFrom, if_true]

theorem interiorsFrom_close (pending : Option Text) (text : Text) :
    interiorsFrom pending ('}' :: text) = (pending.map List.reverse).toList ++ interiorsFrom none text := by
  cases pending <;> rfl

theorem interiorsFrom_inner {c : Char} (hc : isInner c = true) (pending : Option Text) (text : Text) :
    interiorsFrom pending (c :: text) = interiorsFrom (pending.map (c :: ·)) text := by
  rw [isInner, Bool.not_eq_true', Bool.or_eq_false_iff, decide_eq_false_iff_not, decide_eq_false_iff_not] at hc
  simp only [interiorsFrom, if_neg hc.1, if_neg hc.2]

theorem interiorsFrom_append : ∀ {inner : Text}, (∀ c ∈ inner, isInner c = true) →
    ∀ (pending : Option Text) (text : Text),
      interiorsFrom pending (inner ++ text) = interiorsFrom (pending.map (inner.reverse ++ ·)) text
  | [], _, none, _ => rfl
  | [], _, some _, _ => rfl
  | c :: inner, h, pending, text => by
    obtain ⟨hc, h⟩ := List.forall_mem_cons.1 h
    rw [List.cons_append, interiorsFrom_inner hc, interiorsFrom_append h, Option.map_map]
    refine congrArg (fun held => interiorsFrom held text) (congrArg (Option.map · pending) (funext fun held => ?_))
    rw [Function.comp_apply, List.reverse_cons, List.append_assoc]
    rfl

/-- **Each place is judged by the text from there on**: a pair begins there or not, and the pairs behind it are the
same. -/
theorem interiors_cons (c : Char) (text : Text) :
    interiors (c :: text) = ((interiorAt? (c :: text)).map Prod.fst).toList ++ interiors text := by
  unfold interiors
  by_cases hopen : c = '{'
  · subst hopen
    obtain ⟨hsplit, hinner, hbrace⟩ := run_iff.1 (⟨rfl, rfl⟩ : text.takeWhile isInner = _ ∧ text.dropWhile isInner = _)
    generalize text.takeWhile isInner = inner at hsplit hinner
    generalize text.dropWhile isInner = behind at hsplit hbrace
    subst hsplit
    rw [interiorsFrom_open, interiorsFrom_append hinner, interiorsFrom_append hinner, Option.map_some, List.append_nil,
      Option.map_none, interiorAt?_open hinner hbrace]
    -- the next brace decides whether the pair closes
    cases behind with
    | nil =>
      rw [interiorsFrom_nil, interiorsFrom_nil]
      rfl
    | cons d behind =>
      have hd := hbrace d rfl
      by_cases hclose : d = '}'
      · subst hclose
        have hafter : after? ['}'] ('}' :: behind) = some behind := after?_eq_some_iff.2 rfl
        rw [interiorsFrom_close, interiorsFrom_close, hafter, Option.map_some, List.reverse_reverse]
        rfl
      · obtain rfl : d = '{' := by
          by_contra hne
          rw [isInner_iff.2 ⟨hne, hclose⟩] at hd
          cases hd
        rw [interiorsFrom_open, interiorsFrom_open, after?_cons_of_ne (by decide)]
        rfl
  · rw [interiorAt?_cons_of_ne hopen, Option.map_none, Option.toList_none, List.nil_append]
    by_cases hclose : c = '}'
    · rw [hclose, interiorsFrom_close]
      rfl
    · rw [interiorsFrom_inner (isInner_iff.2 ⟨hopen, hclose⟩)]
      rfl

/-! ## The pairs by their places -/

/-- The innermost pairs of braces of a text that follows `front`: what stands in front of each, and what it holds. -/
def pointersFrom (front : Text) : Text → List (Text × Text)
  | [] => []
  | c :: text =>
    ((interiorAt? (c :: text)).map fun (interior, _) => (front, interior)).toList ++ pointersFrom (front ++ [c]) text

def pointers (body : Text) : List (Text × Text) := pointersFrom [] body

theorem map_snd_pointersFrom : ∀ (front text : Text), (pointersFrom front text).map Prod.snd = interiors text
  | _, [] => rfl
  | front, c :: text => by
    rw [pointersFrom, List.map_append, map_snd_pointersFrom (front ++ [c]) text, interiors_cons]
    cases interiorAt? (c :: text) <;> rfl

theorem isPointer_nil_iff {text interior : Text} :
    IsPointer text [] interior ↔ ∃ rest, interiorAt? text = some (interior, rest) := by
  simp only [interiorAt?_eq_some_iff]
  rfl

theorem isPointer_cons_iff {c d : Char} {text skipped interior : Text} :
    IsPointer (c :: text) (d :: skipped) interior ↔ d = c ∧ IsPointer text skipped interior := by
  constructor
  · rintro ⟨rest, htext, hinner⟩
    obtain ⟨rfl, rfl⟩ := List.cons.inj htext
    exact ⟨rfl, rest, rfl, hinner⟩
  · rintro ⟨rfl, rest, rfl, hinner⟩
    exact ⟨rest, rfl, hinner⟩

theorem mem_pointersFrom_iff : ∀ {front text site interior : Text},
    (site, interior) ∈ pointersFrom front text ↔ ∃ skipped, site = front ++ skipped ∧ IsPointer text skipped interior
  | front, [], site, interior => by
    constructor
    · intro h
      cases h
    · rintro ⟨skipped, -, rest, htext, -⟩
      exact absurd (List.append_eq_nil_iff.1 htext.symm).2 (List.cons_ne_nil _ _)
  | front, c :: text, site, interior => by
    have hhere : (site, interior) ∈ ((interiorAt? (c :: text)).map fun (interior, _) => (front, interior)).toList ↔
        site = front ∧ IsPointer (c :: text) [] interior := by
      rw [isPointer_nil_iff, Option.mem_toList, Option.map_eq_some_iff]
      constructor
      · rintro ⟨⟨inner, rest⟩, hat, heq⟩
        obtain ⟨rfl, rfl⟩ := Prod.mk.inj heq
        exact ⟨rfl, rest, hat⟩
      · rintro ⟨rfl, rest, hat⟩
        exact ⟨(interior, rest), hat, rfl⟩
    rw [pointersFrom, List.mem_append, hhere, mem_pointersFrom_iff]
    constructor
    · rintro (⟨rfl, hat⟩ | ⟨skipped, rfl, hat⟩)
      · exact ⟨[], (List.append_nil _).symm, hat⟩
      · exact ⟨c :: skipped, List.append_assoc front [c] skipped, isPointer_cons_iff.2 ⟨rfl, hat⟩⟩
    · rintro ⟨_ | ⟨d, skipped⟩, rfl, hat⟩
      · exact .inl ⟨List.append_nil _, hat⟩
      · obtain ⟨rfl, hmore⟩ := isPointer_cons_iff.1 hat
        exact .inr ⟨skipped, (List.append_assoc front [d] skipped).symm, hmore⟩

/-- **Every innermost pair is found at its place.** -/
theorem mem_pointers_iff {body front interior : Text} :
    (front, interior) ∈ pointers body ↔ IsPointer body front interior := by
  rw [pointers, mem_pointersFrom_iff]
  simp only [List.nil_append, exists_eq_left']

/-- **The pairs come in the order of their places**, none of them twice. -/
theorem pairwise_pointersFrom : ∀ (front text : Text),
    (pointersFrom front text).Pairwise fun p q => p.1.length < q.1.length
  | _, [] => .nil
  | front, c :: text => by
    have hlater : ∀ q ∈ pointersFrom (front ++ [c]) text, front.length < q.1.length := by
      rintro ⟨site, interior⟩ hq
      obtain ⟨skipped, rfl, -⟩ := mem_pointersFrom_iff.1 hq
      simp only [List.length_append, List.length_singleton]
      omega
    have ih := pairwise_pointersFrom (front ++ [c]) text
    rw [pointersFrom]
    cases interiorAt? (c :: text) with
    | none => exact ih
    | some found => exact .cons hlater ih

/-! ## The pattern of a pair -/

def pointer : Capture := ⟨exactly ['{'], run isInner, exactly ['}']⟩

theorem readings_pointer (whole text : Text) : pointer.readings whole text = (interiorAt? text).toList := by
  rw [Capture.readings, interiorAt?, pointer]
  simp only [readings_exactly]
  cases after? ['{'] text with
  | none => rfl
  | some inner =>
    rw [Option.toList_some, List.flatMap_singleton, Option.bind_some, flatMap_run]
    · rw [take_takeWhile]
      cases after? ['}'] (inner.dropWhile isInner) <;> rfl
    · intro c text hc
      rw [after?_cons_of_ne (isInner_iff.1 hc).2]
      rfl

theorem interiors_append_close {interior : Text} (hinner : ∀ c ∈ interior, isInner c = true) (rest : Text) :
    interiors (interior ++ '}' :: rest) = interiors rest := by
  unfold interiors
  rw [interiorsFrom_append hinner, Option.map_none, interiorsFrom_close]
  rfl

/-- **A search for the pattern finds the pairs**, although it goes on behind each match. -/
theorem findFrom_pointer (whole text : Text) : pointer.findFrom whole text = interiors text := by
  have hfirst : (pointer.readings whole text).head? = interiorAt? text := by rw [readings_pointer, Option.head?_toList]
  cases text with
  | nil =>
    rw [Capture.findFrom, hfirst]
    rfl
  | cons c text =>
    cases hat : interiorAt? (c :: text) with
    | none =>
      rw [Capture.findFrom_none (hfirst.trans hat), interiors_cons, hat, findFrom_pointer whole text]
      rfl
    | some found =>
      obtain ⟨interior, rest⟩ := found
      obtain ⟨htext, hinner⟩ := interiorAt?_eq_some_iff.1 hat
      obtain ⟨rfl, rfl⟩ := List.cons.inj htext
      have hlength : rest.length < ('{' :: (interior ++ '}' :: rest)).length := by
        simp only [List.length_cons, List.length_append]
        omega
      rw [Capture.findFrom_some (hfirst.trans hat) hlength, interiors_cons, hat,
        interiors_append_close (forall_isInner_iff.2 hinner), findFrom_pointer whole rest]
      rfl
termination_by text.length

end Text
end AssetIntegrity
