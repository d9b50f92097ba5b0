import AssetIntegrity.Proofs.Pointer.Interiors
import AssetIntegrity.Proofs.Pointer.EntryForm
import Mathlib.Data.List.Infix
/-!
# Local patterns — where a pointer leads, said in two other ways

A pointer leads where its first local entry says when none of its entries is foreign (`localId?_eq_some_iff`).  The same
is found by searching the pointer for a pattern that begins at a comma or in front and, for a number, ends at a comma or
at the end (`localId?_eq_find?`).  No part of an entry can take a comma, so wherever such a search begins it reads one
whole piece between commas (`find?_entryStart`).
-/
namespace AssetIntegrity
namespace Text

open Pattern

/-! ## The patterns that are sought -/

def entryStart : Pattern := either textStart (one fun c => c = ',')

def entryEnd : Pattern := either (one fun c => c = ',') textEnd

def foreignEntry : Capture := ⟨entryStart ++ foreignKey, Pattern.empty, Pattern.empty⟩

def localEntry : Capture := ⟨entryStart ++ localKey, signedNumber, numberEnd ++ entryEnd⟩

/-! ## A search that begins at a comma or in front -/

/-- Whether an entry ends in front of a text. -/
def entryEnds : Text → Bool
  | [] => true
  | c :: _ => c = ','

theorem entryEnds_append {a b : Text} (ha : ',' ∉ a) (hb : entryEnds b = true) : entryEnds (a ++ b) = a.isEmpty := by
  cases a with
  | nil => exact hb
  | cons c a => exact decide_eq_false (Ne.symm (not_or.1 (mt List.mem_cons.2 ha)).1)

section

variable {α : Type} {at? piece? : Text → Option α}

theorem findSome?_congr {f g : Text → Option α} : ∀ {texts : List Text}, (∀ text ∈ texts, f text = g text) →
    texts.findSome? f = texts.findSome? g
  | [], _ => rfl
  | text :: texts, h => by
    obtain ⟨htext, h⟩ := List.forall_mem_cons.1 h
    rw [List.findSome?_cons, List.findSome?_cons, htext, findSome?_congr h]

theorem findSome?_tails_cons (f : Text → Option α) (c : Char) (text : Text) :
    (c :: text).tails.findSome? f = (f (c :: text)).or (text.tails.findSome? f) := by
  rw [List.tails, List.findSome?_cons]
  cases f (c :: text) <;> rfl

/-- What a search finds behind a comma. -/
def behindComma (at? : Text → Option α) : Text → Option α
  | [] => none
  | c :: text => if c = ',' then at? text else none

theorem findSome?_behindComma_of_notMem : ∀ {text : Text}, ',' ∉ text → text.tails.findSome? (behindComma at?) = none
  | [], _ => rfl
  | c :: text, h => by
    obtain ⟨hc, h⟩ := not_or.1 (mt List.mem_cons.2 h)
    rw [findSome?_tails_cons, behindComma, if_neg (Ne.symm hc), findSome?_behindComma_of_notMem h, Option.or_none]

theorem findSome?_behindComma_append : ∀ {piece : Text}, ',' ∉ piece → ∀ more : Text,
    (piece ++ ',' :: more).tails.findSome? (behindComma at?) = (at? more).or (more.tails.findSome? (behindComma at?))
  | [], _, more => by rw [List.nil_append, findSome?_tails_cons, behindComma, if_pos rfl]
  | c :: piece, h, more => by
    obtain ⟨hc, h⟩ := not_or.1 (mt List.mem_cons.2 h)
    rw [List.cons_append, findSome?_tails_cons, behindComma, if_neg (Ne.symm hc), Option.none_or,
      findSome?_behindComma_append h]

/-- **A search from each comma on goes through the pieces between them**, when what is read at a place is told by the
piece that begins there. -/
theorem or_findSome?_behindComma
    (hpiece : ∀ piece rest, ',' ∉ piece → entryEnds rest = true → at? (piece ++ rest) = piece? piece) (text : Text) :
    (at? text).or (text.tails.findSome? (behindComma at?)) = (text.splitOn ',').findSome? piece? := by
  by_cases hmem : ',' ∈ text
  · obtain ⟨piece, more, htext, hplain⟩ := List.eq_append_cons_of_mem hmem
    have ih := or_findSome?_behindComma hpiece more
    rw [htext, hpiece piece (',' :: more) hplain rfl, findSome?_behindComma_append hplain, ih,
      List.splitOn_append_cons_self, List.splitOn_eq_singleton hplain, List.findSome?_append, List.findSome?_singleton]
  · have hlast := hpiece text [] hmem rfl
    rw [List.append_nil] at hlast
    rw [hlast, findSome?_behindComma_of_notMem hmem, List.splitOn_eq_singleton hmem, List.findSome?_singleton,
      Option.or_none]
termination_by text.length
decreasing_by
  rw [htext, List.length_append, List.length_cons]
  omega

end

section

variable {c : Capture} {at? : Text → Option Text}

theorem readings_entryStart (c : Capture) (whole text : Text) :
    (Capture.mk (entryStart ++ c.front) c.value c.behind).readings whole text =
      (entryStart.readings whole text).flatMap (c.readings whole) := by
  rw [Capture.readings, readings_append, List.flatMap_assoc]
  rfl

/-- **A search for an entry begins in front or behind a comma.** -/
theorem first_entryStart (hread : ∀ whole text, (c.readings whole text).head?.map Prod.fst = at? text)
    (before text : Text) :
    ((Capture.mk (entryStart ++ c.front) c.value c.behind).readings (before ++ text) text).head?.map Prod.fst =
      (if before = [] then at? text else none).or (behindComma at? text) := by
  rw [readings_entryStart, entryStart, readings_either, List.flatMap_append, List.head?_append, Option.map_or,
    textStart, readings, take_front]
  congr 1
  · cases before with
    | nil => rw [List.isEmpty_nil, if_pos rfl, if_pos rfl, List.flatMap_singleton, hread]
    | cons _ _ => rfl
  · cases text with
    | nil => rfl
    | cons d text =>
      rw [flatMap_one_cons, behindComma]
      simp only [decide_eq_true_eq]
      split
      · exact hread _ text
      · rfl

/-- **A search for an entry goes through the pieces between commas.** -/
theorem find?_entryStart {piece? : Text → Option Text}
    (hread : ∀ whole text, (c.readings whole text).head?.map Prod.fst = at? text)
    (hpiece : ∀ piece rest, ',' ∉ piece → entryEnds rest = true → at? (piece ++ rest) = piece? piece) (text : Text) :
    (Capture.mk (entryStart ++ c.front) c.value c.behind).find? text = (text.splitOn ',').findSome? piece? := by
  rw [← or_findSome?_behindComma hpiece, Capture.find?]
  have hfront := first_entryStart hread [] text
  rw [List.nil_append, if_pos rfl] at hfront
  cases text with
  | nil => rw [List.tails, List.findSome?_singleton, List.findSome?_singleton, hfront]
  | cons d text =>
    have hbehind : ∀ tail ∈ text.tails,
        ((Capture.mk (entryStart ++ c.front) c.value c.behind).readings (d :: text) tail).head?.map Prod.fst =
          behindComma at? tail := by
      intro tail htail
      obtain ⟨before, rfl⟩ := (List.mem_tails tail text).1 htail
      have hfirst := first_entryStart hread (d :: before) tail
      rwa [if_neg (List.cons_ne_nil d before), Option.none_or] at hfirst
    rw [findSome?_tails_cons, findSome?_tails_cons, hfront, findSome?_congr hbehind, Option.or_assoc]

end

/-! ## What a comma cuts off -/

theorem skipSpace_append_comma (a b : Text) : skipSpace (a ++ ',' :: b) = skipSpace a ++ ',' :: b :=
  dropWhile_append (by decide) a b

theorem stops_comma : Stops ',' := by constructor <;> decide

theorem digits?_append_comma (a b : Text) :
    digits? (a ++ ',' :: b) = (digits? a).map fun (digits, rest) => (digits, rest ++ ',' :: b) := by
  cases a with
  | nil => rfl
  | cons c a =>
    rw [List.cons_append, digits?, digits?, takeWhile_append (by decide), dropWhile_append (by decide)]
    split <;> rfl

theorem number?_append_comma (a b : Text) :
    number? (a ++ ',' :: b) = (number? a).map fun (number, rest) => (number, rest ++ ',' :: b) := by
  cases a with
  | nil => rfl
  | cons c a =>
    by_cases hc : c = '-'
    · subst hc
      rw [List.cons_append, number?, number?, digits?_append_comma, Option.map_map, Option.map_map]
      rfl
    · rw [List.cons_append, number?_of_ne hc, number?_of_ne hc, ← List.cons_append, digits?_append_comma]

theorem numberAt?_append {a b : Text} (hb : entryEnds b = true) :
    numberAt? (a ++ b) = (numberAt? a).map fun found => (found.1, found.2 ++ b) := by
  cases b with
  | nil => simp
  | cons c b =>
    obtain rfl : c = ',' := of_decide_eq_true hb
    unfold numberAt?
    rw [skipSpace_append_comma, afterKey?_append_of stops_comma (after?_append (by decide)) skipSpace_append_comma]
    cases afterKey? (after? fileIdWord) skipSpace (skipSpace a) with
    | none => rfl
    | some rest =>
      rw [Option.map_some, Option.bind_some, Option.bind_some, skipSpace_append_comma, skipQuote_append stops_comma,
        number?_append_comma]

theorem skipSpace_skipQuote_append {a b : Text} (hb : entryEnds b = true) :
    skipSpace (skipQuote (a ++ b)) = skipSpace (skipQuote a) ++ b := by
  cases b with
  | nil => rw [List.append_nil, List.append_nil]
  | cons c b =>
    obtain rfl : c = ',' := of_decide_eq_true hb
    rw [skipQuote_append stops_comma, skipSpace_append_comma]

/-! ## The two searches -/

theorem hasGuidKey_append {a b : Text} (hb : entryEnds b = true) : hasGuidKey (a ++ b) = hasGuidKey a := by
  cases b with
  | nil => rw [List.append_nil]
  | cons c b =>
    obtain rfl : c = ',' := of_decide_eq_true hb
    have hword : ∀ a b, afterIgnoringCase? guidWord (a ++ ',' :: b) =
        (afterIgnoringCase? guidWord a).map (· ++ ',' :: b) := afterIgnoringCase?_append (by decide)
    rw [hasGuidKey, hasGuidKey, skipSpace_append_comma, afterKey?_append_of stops_comma hword skipSpace_append_comma,
      Option.isSome_map]

/-- **The search for a foreign entry goes through the entries.** -/
theorem find?_foreignEntry (interior : Text) :
    foreignEntry.find? interior =
      (interior.splitOn ',').findSome? fun entry => if hasGuidKey entry then some [] else none := by
  have hread : ∀ whole text,
      ((Capture.mk foreignKey Pattern.empty Pattern.empty).readings whole text).head?.map Prod.fst =
        if hasGuidKey text then some [] else none := by
    intro whole text
    rw [Capture.readings, readings_foreignKey, hasGuidKey]
    cases afterKey? (afterIgnoringCase? guidWord) skipSpace (skipSpace text) with
    | none => rfl
    | some rest =>
      show some (rest.take (rest.length - rest.length)) = some []
      rw [Nat.sub_self, List.take_zero]
  exact find?_entryStart hread (fun entry rest _ hrest => by rw [hasGuidKey_append hrest]) interior

/-- The number of the local entry that begins a text and ends with it or in front of a comma. -/
def localAt? (text : Text) : Option Text :=
  (numberAt? text).bind fun found => if entryEnds (skipSpace (skipQuote found.2)) then some found.1 else none

theorem readings_entryEnd_map (whole text number : Text) :
    ((entryEnd.readings whole text).map fun rest => (number, rest)).head?.map Prod.fst =
      if entryEnds text then some number else none := by
  cases text with
  | nil => rfl
  | cons c text =>
    rw [entryEnd, readings_either, readings, textEnd, readings, entryEnds]
    simp only [decide_eq_true_eq]
    split <;> rfl

/-- **What ends the entry does not matter.** -/
theorem localAt?_append {entry rest : Text} (hentry : ',' ∉ entry) (hrest : entryEnds rest = true) :
    localAt? (entry ++ rest) = fileId? entry := by
  rw [localAt?, fileId?_eq_bind]
  cases hfound : numberAt? entry with
  | none =>
    rw [numberAt?_append hrest, hfound]
    rfl
  | some found =>
    have hsuffix : skipSpace (skipQuote found.2) <:+ entry :=
      ((List.dropWhile_suffix _).trans (skipQuote_suffix found.2)).trans (suffix_of_numberAt? hfound)
    have hcomma : ',' ∉ skipSpace (skipQuote found.2) := fun hmem => hentry (hsuffix.subset hmem)
    rw [numberAt?_append hrest, hfound, Option.map_some, Option.bind_some, Option.bind_some,
      skipSpace_skipQuote_append hrest, entryEnds_append hcomma hrest]

/-- **The search for a local entry goes through the entries.** -/
theorem find?_localEntry (interior : Text) :
    localEntry.find? interior = (interior.splitOn ',').findSome? fileId? := by
  have hread : ∀ whole text,
      ((Capture.mk localKey signedNumber (numberEnd ++ entryEnd)).readings whole text).head?.map Prod.fst =
        localAt? text := by
    intro whole text
    rw [readings_local, localAt?]
    · cases numberAt? text with
      | none => rfl
      | some found => rw [Option.toList_some, List.flatMap_singleton, readings_entryEnd_map, Option.bind_some]
    · intro c text hc
      rw [entryEnd, readings_either, readings, if_neg (by simpa using hc)]
      rfl
  exact find?_entryStart hread (fun entry rest => localAt?_append) interior

/-! ## Pointers -/

theorem any_hasGuidKey_iff {entries : List Text} :
    entries.any hasGuidKey = true ↔ ∃ entry ∈ entries, HasForeignKey entry := by
  simp only [List.any_eq_true, hasGuidKey_iff]

/-- **Where a pointer leads**: no entry is foreign, and the first local entry says where. -/
theorem localId?_eq_some_iff {interior : Text} {id : String} :
    localId? interior = some id ↔
      (∀ entry ∈ interior.splitOn ',', ¬ HasForeignKey entry) ∧
      ∃ earlier entry later number, interior.splitOn ',' = earlier ++ entry :: later ∧ IsLocalEntry number entry ∧
        id = String.ofList number ∧ ∀ other ∈ earlier, ∀ n, ¬ IsLocalEntry n other := by
  rw [localId?]
  constructor
  · intro h
    split at h
    · cases h
    · rename_i hforeign
      rw [any_hasGuidKey_iff] at hforeign
      obtain ⟨number, hnumber, rfl⟩ := Option.map_eq_some_iff.1 h
      obtain ⟨earlier, entry, later, hsplit, hentry, hearlier⟩ := List.findSome?_eq_some_iff.1 hnumber
      refine ⟨fun other hother hkey => hforeign ⟨other, hother, hkey⟩, earlier, entry, later, number, hsplit,
        fileId?_eq_some_iff.1 hentry, rfl, fun other hother => ?_⟩
      exact fileId?_eq_none_iff.1 (hearlier other hother)
  · rintro ⟨hplain, earlier, entry, later, number, hsplit, hentry, rfl, hearlier⟩
    have hforeign : ¬ (interior.splitOn ',').any hasGuidKey = true := by
      rw [any_hasGuidKey_iff]
      exact fun ⟨other, hother, hkey⟩ => hplain other hother hkey
    have hfirst : (interior.splitOn ',').findSome? fileId? = some number :=
      List.findSome?_eq_some_iff.2 ⟨earlier, entry, later, hsplit, fileId?_eq_some_iff.2 hentry, fun other hother =>
        fileId?_eq_none_iff.2 (hearlier other hother)⟩
    rw [if_neg hforeign, hfirst, Option.map_some]

/-- **Two searches within a pointer tell where it leads.** -/
theorem localId?_eq_find? (interior : Text) :
    localId? interior =
      if (foreignEntry.find? interior).isSome then none else (localEntry.find? interior).map String.ofList := by
  have hforeign : (foreignEntry.find? interior).isSome = (interior.splitOn ',').any hasGuidKey := by
    rw [find?_foreignEntry, Bool.eq_iff_iff, List.findSome?_isSome_iff, List.any_eq_true]
    refine exists_congr fun entry => and_congr_right fun _ => ?_
    cases hasGuidKey entry <;> simp
  rw [hforeign, find?_localEntry, localId?]

/-- **Local references are those of the innermost pairs of braces.**  Every pair of braces with no brace between them
is taken once, in the order of the places, whatever braces stand elsewhere.  It leads nowhere when the `guid` key begins
one of the pieces between its commas, and else where the number of its first piece says that is a local entry.  Searches
for the patterns find the same pairs and the same numbers. -/
theorem localIds_exact (body : Text) :
    (∃ pairs : List (Text × Text),
      pairs.Pairwise (fun p q => p.1.length < q.1.length) ∧
      (∀ front interior, (front, interior) ∈ pairs ↔ IsPointer body front interior) ∧
      pointer.findAll body = pairs.map Prod.snd ∧
      localIds body = pairs.filterMap fun pair => localId? pair.2) ∧
    ∀ interior : Text,
      (∀ id, localId? interior = some id ↔
        (∀ entry ∈ interior.splitOn ',', ¬ HasForeignKey entry) ∧
        ∃ earlier entry later number, interior.splitOn ',' = earlier ++ entry :: later ∧ IsLocalEntry number entry ∧
          id = String.ofList number ∧ ∀ other ∈ earlier, ∀ n, ¬ IsLocalEntry n other) ∧
      localId? interior =
        if (foreignEntry.find? interior).isSome then none else (localEntry.find? interior).map String.ofList := by
  refine ⟨⟨pointers body, pairwise_pointersFrom [] body, fun _ _ => mem_pointers_iff, ?_, ?_⟩, fun interior =>
    ⟨fun id => localId?_eq_some_iff, localId?_eq_find? interior⟩⟩
  · rw [pointers, map_snd_pointersFrom]
    exact findFrom_pointer body body
  · rw [localIds, ← map_snd_pointersFrom [], List.filterMap_map]
    rfl

/-- Braces that are not matched hide nothing, and neither do those around a pair. -/
example : localIds "\x7d \x7b \x7ba: 1, 'fileID' :\n '-2' \x7d \x7d \x7bfileID: 3".toList = ["-2"] := by decide

end Text
end AssetIntegrity
