import AssetIntegrity.Proofs.Pointer.EntryForm
import AssetIntegrity.Stream.Marker
/-!
# Marker lines — which lines declare a document, and what they declare

A marker line is put together from fixed words, two ids and the gaps between them (`Marker.Words`), and the line ends
behind it do not count (`Marker.trimLineEnd_eq_iff`).  A line is read as a marker exactly when it can be taken apart in
this way (`Marker.parse?_eq_some_iff`), and there is one way at most (`Marker.Words.text_injective`): a gap cannot go
on into a word, and no digit is a blank, so each part ends where the next begins.

The same lines have the form of a pattern (`Marker.matches_linePattern_iff`).  A marker line holds no letter but those
of `u` and `stripped`, and no brace or comma (`Marker.isMarkerChar_of_parse?`).
-/
namespace AssetIntegrity
namespace Text

theorem isDecimalDigit_eq_false_of_isBlank {c : Char} (h : isBlank c = true) : isDecimalDigit c = false :=
  Pattern.isDecimalDigit_eq_false_of_isSpace (isSpace_of_isBlank h)

end Text

namespace Marker

open Text

/-! ## The parts of a marker line -/

/-- The word behind the id of a placeholder. -/
def strippedWord : Text := ['s', 't', 'r', 'i', 'p', 'p', 'e', 'd']

/-- What stands behind the id: blanks, and in front of them the word `stripped` behind a gap, if there is one. -/
def behindId (gap? : Option Text) (blanks : Text) : Text :=
  match gap? with
  | none => blanks
  | some gap => gap ++ (strippedWord ++ blanks)

/-- The ids of a marker line and the gaps between its words. -/
@[ext]
structure Words where
  afterDashes : Text
  classId : Text
  afterClassId : Text
  id : Text
  /-- The gap in front of the word `stripped`, when the line has the word. -/
  beforeStripped? : Option Text
  atEnd : Text
  isRun_afterDashes : IsRun isBlank afterDashes
  isRun_classId : IsRun isDecimalDigit classId
  isRun_afterClassId : IsRun isBlank afterClassId
  isNumber_id : IsNumber id
  isRun_beforeStripped : ∀ gap ∈ beforeStripped?, IsRun isBlank gap
  isBlank_atEnd : ∀ c ∈ atEnd, isBlank c = true

namespace Words

variable (words : Words)

/-- The line that is put together from its parts, without what ends it. -/
def text : Text :=
  ['-', '-', '-'] ++ (words.afterDashes ++ (['!', 'u', '!'] ++ (words.classId ++ (words.afterClassId ++
    (['&'] ++ (words.id ++ behindId words.beforeStripped? words.atEnd))))))

/-- What the line declares. -/
def marker : Marker := ⟨String.ofList words.classId, String.ofList words.id, words.beforeStripped?.isSome⟩

theorem isBlank_of_mem_head?_behindId {c : Char}
    (hc : c ∈ (behindId words.beforeStripped? words.atEnd).head?) : isBlank c = true := by
  unfold behindId at hc
  split at hc
  · exact words.isBlank_atEnd c (List.mem_of_mem_head? hc)
  · rename_i gap hgap
    exact (words.isRun_beforeStripped gap hgap).of_mem_head? hc

/-- The class id ends where the gap behind it begins. -/
theorem classId_ends {rest : Text} : ∀ c ∈ (words.afterClassId ++ rest).head?, isDecimalDigit c = false :=
  fun _ hc => isDecimalDigit_eq_false_of_isBlank (words.isRun_afterClassId.of_mem_head? hc)

/-- The id ends where the line ends or a blank follows. -/
theorem id_ends : ∀ c ∈ (behindId words.beforeStripped? words.atEnd).head?, isDecimalDigit c = false :=
  fun _ hc => isDecimalDigit_eq_false_of_isBlank (words.isBlank_of_mem_head?_behindId hc)

/-- **A class that holds blanks, digits and the characters of the words holds the whole line.** -/
theorem forall_mem_text {P : Char → Prop} (hblank : ∀ c, isBlank c = true → P c)
    (hdigit : ∀ c, isDecimalDigit c = true → P c) (hletter : ∀ c ∈ ['-', '!', 'u', '&'] ++ strippedWord, P c) :
    ∀ c ∈ words.text, P c := by
  have hrun : ∀ {gap : Text}, IsRun isBlank gap → ∀ c ∈ gap, P c := fun h c hc => hblank c (h.2 c hc)
  have hid : ∀ c ∈ words.id, P c := by
    obtain ⟨digits, hdigits, hsign | hsign⟩ := words.isNumber_id
    · exact fun c hc => hdigit c (hdigits.2 c (hsign ▸ hc))
    · rw [hsign]
      exact List.forall_mem_cons.2 ⟨hletter '-' (by decide), fun c hc => hdigit c (hdigits.2 c hc)⟩
  have hbehind : ∀ c ∈ behindId words.beforeStripped? words.atEnd, P c := by
    unfold behindId
    split
    · exact fun c hc => hblank c (words.isBlank_atEnd c hc)
    · rename_i gap hgap
      refine List.forall_mem_append.2 ⟨hrun (words.isRun_beforeStripped gap hgap), List.forall_mem_append.2 ⟨?_, ?_⟩⟩
      · exact fun c hc => hletter c (List.mem_append_right _ hc)
      · exact fun c hc => hblank c (words.isBlank_atEnd c hc)
  have hfixed : ∀ {word : Text}, (∀ c ∈ word, c ∈ ['-', '!', 'u', '&']) → ∀ c ∈ word, P c := fun h c hc =>
    hletter c (List.mem_append_left _ (h c hc))
  simp only [text, List.forall_mem_append]
  exact ⟨hfixed (by simp), hrun words.isRun_afterDashes, hfixed (by simp),
    fun c hc => hdigit c (words.isRun_classId.2 c hc), hrun words.isRun_afterClassId, hfixed (by simp), hid, hbehind⟩

end Words

/-! ## Reading the parts -/

theorem skipBlanks_isEmpty_iff {text : Text} : (skipBlanks text).isEmpty = true ↔ ∀ c ∈ text, isBlank c = true := by
  rw [List.isEmpty_iff, skipBlanks, List.dropWhile_eq_nil_iff]

/-- The word `stripped` is no blank. -/
theorem not_isBlank_strippedWord (gap rest : Text) : ¬ ∀ c ∈ gap ++ (strippedWord ++ rest), isBlank c = true := by
  intro h
  have hletter : isBlank 's' = true := h 's' (by simp [strippedWord])
  exact absurd hletter (by decide)

/-- **What stands behind the id** is blanks, or the word `stripped` behind a gap and then blanks. -/
theorem stripped?_eq_some_iff {text : Text} {flag : Bool} :
    stripped? text = some flag ↔
      ∃ gap? blanks, text = behindId gap? blanks ∧ (∀ gap ∈ gap?, IsRun isBlank gap) ∧
        (∀ c ∈ blanks, isBlank c = true) ∧ gap?.isSome = flag := by
  unfold stripped?
  constructor
  · intro h
    split at h
    · rename_i hblank
      obtain rfl := Option.some.inj h
      exact ⟨none, text, rfl, by simp, skipBlanks_isEmpty_iff.1 hblank, rfl⟩
    · obtain ⟨rest, hgap, h⟩ := Option.bind_eq_some_iff.1 h
      obtain ⟨blanks, hword, hflag⟩ := Option.bind_eq_some_iff.1 h
      obtain ⟨gap, rfl, hne, hall, -⟩ := blanks?_eq_some_iff.1 hgap
      obtain rfl := after?_eq_some_iff.1 hword
      split at hflag
      · rename_i hblanks
        obtain rfl := Option.some.inj hflag
        exact ⟨some gap, blanks, rfl, by simpa using ⟨hne, hall⟩, skipBlanks_isEmpty_iff.1 hblanks, rfl⟩
      · cases hflag
  · rintro ⟨gap?, blanks, rfl, hgap, hblanks, rfl⟩
    cases gap? with
    | none => exact if_pos (skipBlanks_isEmpty_iff.2 hblanks)
    | some gap =>
      have hrun := hgap gap rfl
      have hread : blanks? (gap ++ (strippedWord ++ blanks)) = some (strippedWord ++ blanks) :=
        blanks?_eq_some_iff.2 ⟨gap, rfl, hrun.1, hrun.2, forall_mem_head?_cons (by decide)⟩
      have hword : after? strippedWord (strippedWord ++ blanks) = some blanks := after?_eq_some_iff.2 rfl
      have hletter : ¬ (skipBlanks (gap ++ (strippedWord ++ blanks))).isEmpty = true := fun h =>
        not_isBlank_strippedWord gap blanks (skipBlanks_isEmpty_iff.1 h)
      rw [behindId, if_neg hletter, hread, Option.bind_eq_bind, Option.bind_some]
      refine (congrArg (Option.bind · _) hword).trans ?_
      exact if_pos (skipBlanks_isEmpty_iff.2 hblanks)

/-- **A line declares what its words say.** -/
theorem parse?_eq_some_iff {line : Text} {marker : Marker} :
    parse? line = some marker ↔ ∃ words : Words, trimLineEnd line = words.text ∧ words.marker = marker := by
  unfold parse?
  constructor
  · intro h
    obtain ⟨rest₁, hdashes, h⟩ := Option.bind_eq_some_iff.1 h
    obtain ⟨rest₂, hgap, h⟩ := Option.bind_eq_some_iff.1 h
    obtain ⟨rest₃, htag, h⟩ := Option.bind_eq_some_iff.1 h
    obtain ⟨⟨classId, rest₄⟩, hclassId, h⟩ := Option.bind_eq_some_iff.1 h
    obtain ⟨rest₅, hgap', h⟩ := Option.bind_eq_some_iff.1 h
    obtain ⟨rest₆, hamp, h⟩ := Option.bind_eq_some_iff.1 h
    obtain ⟨⟨id, behind⟩, hid, h⟩ := Option.bind_eq_some_iff.1 h
    obtain ⟨flag, hflag, h⟩ := Option.bind_eq_some_iff.1 h
    obtain rfl := Option.some.inj h
    obtain ⟨gap, rfl, hne, hblank, -⟩ := blanks?_eq_some_iff.1 hgap
    obtain rfl := after?_eq_some_iff.1 htag
    obtain ⟨rfl, hsome, hdigits, -⟩ := digits?_eq_some_iff.1 hclassId
    obtain ⟨gap', rfl, hne', hblank', -⟩ := blanks?_eq_some_iff.1 hgap'
    obtain rfl := after?_eq_some_iff.1 hamp
    obtain ⟨rfl, hnumber, -⟩ := number?_eq_some_iff.1 hid
    obtain ⟨gap?, blanks, rfl, hstripped, hblanks, rfl⟩ := stripped?_eq_some_iff.1 hflag
    exact ⟨⟨gap, classId, gap', id, gap?, blanks, ⟨hne, hblank⟩, ⟨hsome, hdigits⟩, ⟨hne', hblank'⟩, hnumber, hstripped,
      hblanks⟩, after?_eq_some_iff.1 hdashes, rfl⟩
  · rintro ⟨words, hline, rfl⟩
    have hgap (rest : Text) : blanks? (words.afterDashes ++ '!' :: rest) = some ('!' :: rest) :=
      blanks?_eq_some_iff.2 ⟨_, rfl, words.isRun_afterDashes.1, words.isRun_afterDashes.2,
        forall_mem_head?_cons (by decide)⟩
    have hclassId (rest : Text) : digits? (words.classId ++ (words.afterClassId ++ rest)) =
        some (words.classId, words.afterClassId ++ rest) :=
      digits?_eq_some_iff.2 ⟨rfl, words.isRun_classId.1, words.isRun_classId.2, words.classId_ends⟩
    have hgap' (rest : Text) : blanks? (words.afterClassId ++ '&' :: rest) = some ('&' :: rest) :=
      blanks?_eq_some_iff.2 ⟨_, rfl, words.isRun_afterClassId.1, words.isRun_afterClassId.2,
        forall_mem_head?_cons (by decide)⟩
    have hid := number?_eq_some_iff.2 ⟨rfl, words.isNumber_id, words.id_ends⟩
    have hstripped := stripped?_eq_some_iff.2 ⟨_, _, rfl, words.isRun_beforeStripped, words.isBlank_atEnd, rfl⟩
    rw [hline]
    refine Option.bind_eq_some_iff.2 ⟨_, after?_eq_some_iff.2 rfl, ?_⟩
    refine Option.bind_eq_some_iff.2 ⟨_, hgap _, ?_⟩
    refine Option.bind_eq_some_iff.2 ⟨_, after?_eq_some_iff.2 rfl, ?_⟩
    refine Option.bind_eq_some_iff.2 ⟨_, hclassId _, ?_⟩
    refine Option.bind_eq_some_iff.2 ⟨_, hgap' _, ?_⟩
    refine Option.bind_eq_some_iff.2 ⟨_, after?_eq_some_iff.2 rfl, ?_⟩
    refine Option.bind_eq_some_iff.2 ⟨_, hid, ?_⟩
    exact Option.bind_eq_some_iff.2 ⟨_, hstripped, rfl⟩

theorem parse?_eq_none_iff {line : Text} : parse? line = none ↔ ¬ ∃ words : Words, trimLineEnd line = words.text := by
  rw [Option.eq_none_iff_forall_ne_some, not_exists]
  constructor
  · exact fun h words hline => h words.marker (parse?_eq_some_iff.2 ⟨words, hline, rfl⟩)
  · intro h marker hmarker
    obtain ⟨words, hline, -⟩ := parse?_eq_some_iff.1 hmarker
    exact h words hline

/-! ## There is one way to take a line apart -/

theorem behindId_injective {gap? gap?' : Option Text} {blanks blanks' : Text} (hgap : ∀ gap ∈ gap?, IsRun isBlank gap)
    (hgap' : ∀ gap ∈ gap?', IsRun isBlank gap) (hblanks : ∀ c ∈ blanks, isBlank c = true)
    (hblanks' : ∀ c ∈ blanks', isBlank c = true) (h : behindId gap? blanks = behindId gap?' blanks') :
    gap? = gap?' ∧ blanks = blanks' := by
  have hword : ∀ rest : Text, ∀ c ∈ (strippedWord ++ rest).head?, isBlank c = false := fun rest =>
    forall_mem_head?_cons (by decide)
  cases gap? with
  | none =>
    cases gap?' with
    | none => exact ⟨rfl, h⟩
    | some gap' =>
      obtain rfl : blanks = gap' ++ (strippedWord ++ blanks') := h
      exact absurd hblanks (not_isBlank_strippedWord gap' blanks')
  | some gap =>
    cases gap?' with
    | none =>
      obtain rfl : gap ++ (strippedWord ++ blanks) = blanks' := h
      exact absurd hblanks' (not_isBlank_strippedWord gap blanks)
    | some gap' =>
      obtain ⟨rfl, hrest⟩ := eq_of_runs h (hgap gap rfl).2 (hword blanks) (hgap' gap' rfl).2 (hword blanks')
      exact ⟨rfl, List.append_cancel_left hrest⟩

/-- **A line is put together from its words in one way at most.** -/
theorem Words.text_injective {words words' : Words} (h : words.text = words'.text) : words = words' := by
  obtain ⟨hafterDashes, h⟩ := eq_of_runs (List.append_cancel_left h) words.isRun_afterDashes.2
    (forall_mem_head?_cons (by decide)) words'.isRun_afterDashes.2 (forall_mem_head?_cons (by decide))
  obtain ⟨hclassId, h⟩ := eq_of_runs (List.append_cancel_left h) words.isRun_classId.2 words.classId_ends
    words'.isRun_classId.2 words'.classId_ends
  obtain ⟨hafterClassId, h⟩ := eq_of_runs h words.isRun_afterClassId.2 (forall_mem_head?_cons (by decide))
    words'.isRun_afterClassId.2 (forall_mem_head?_cons (by decide))
  -- no run takes the sign of a number, but a number has one reader
  have hread := number?_eq_some_iff.2 ⟨List.append_cancel_left h, words'.isNumber_id, words'.id_ends⟩
  rw [number?_eq_some_iff.2 ⟨rfl, words.isNumber_id, words.id_ends⟩] at hread
  obtain ⟨hid, h⟩ := Prod.mk.inj (Option.some.inj hread)
  obtain ⟨hstripped, hatEnd⟩ := behindId_injective words.isRun_beforeStripped words'.isRun_beforeStripped
    words.isBlank_atEnd words'.isBlank_atEnd h
  exact Words.ext hafterDashes hclassId hafterClassId hid hstripped hatEnd

/-! ## The end of a line and the usual form -/

/-- **What ends a line** is the run of carriage returns and line feeds behind everything else. -/
theorem trimLineEnd_eq_iff {line front : Text} :
    trimLineEnd line = front ↔
      ∃ ends, line = front ++ ends ∧ (∀ c ∈ ends, isLineEnd c = true) ∧ ∀ c ∈ front.getLast?, isLineEnd c = false := by
  rw [trimLineEnd, List.reverse_eq_iff]
  constructor
  · intro h
    obtain ⟨hsplit, hends, hfront⟩ := run_iff.1 ⟨rfl, h⟩
    refine ⟨(line.reverse.takeWhile isLineEnd).reverse, ?_, fun c hc => hends c (List.mem_reverse.1 hc), ?_⟩
    · have hline := congrArg List.reverse hsplit
      rwa [List.reverse_reverse, List.reverse_append, List.reverse_reverse] at hline
    · rwa [List.head?_reverse] at hfront
  · rintro ⟨ends, rfl, hends, hfront⟩
    refine (run_iff.2 ⟨List.reverse_append, fun c hc => hends c (List.mem_reverse.1 hc), ?_⟩).2
    rwa [List.head?_reverse]

theorem isLineEnd_eq_false {p : Char → Bool} (hreturn : p '\r' = false) (hfeed : p '\n' = false) {c : Char}
    (h : p c = true) : isLineEnd c = false := by
  rw [isLineEnd, Bool.or_eq_false_iff, decide_eq_false_iff_not, decide_eq_false_iff_not]
  exact ⟨Pattern.ne_of_class hreturn h, Pattern.ne_of_class hfeed h⟩

theorem Words.isLineEnd_of_mem_text (words : Words) : ∀ c ∈ words.text, isLineEnd c = false :=
  words.forall_mem_text (fun c => isLineEnd_eq_false (by decide) (by decide))
    (fun c => isLineEnd_eq_false (by decide) (by decide)) (by simp [strippedWord, isLineEnd])

theorem Words.trimLineEnd_text_append (words : Words) {ends : Text} (hends : ∀ c ∈ ends, isLineEnd c = true) :
    trimLineEnd (words.text ++ ends) = words.text :=
  trimLineEnd_eq_iff.2
    ⟨ends, rfl, hends, fun c hc => words.isLineEnd_of_mem_text c (List.mem_of_mem_getLast? hc)⟩

theorem isRun_blank : IsRun isBlank [' '] := ⟨List.cons_ne_nil _ _, List.forall_mem_singleton.2 (by decide)⟩

/-- The words of a marker line in its usual form. -/
def usualWords (marker : Marker) (hclassId : IsRun isDecimalDigit marker.classId.toList)
    (hid : IsNumber marker.id.toList) : Words where
  afterDashes := [' ']
  classId := marker.classId.toList
  afterClassId := [' ']
  id := marker.id.toList
  beforeStripped? := if marker.stripped then some [' '] else none
  atEnd := []
  isRun_afterDashes := isRun_blank
  isRun_classId := hclassId
  isRun_afterClassId := isRun_blank
  isNumber_id := hid
  isRun_beforeStripped := by
    cases marker.stripped with
    | false => simp
    | true => simpa using isRun_blank
  isBlank_atEnd := List.forall_mem_nil _

theorem text_usualWords {marker : Marker} (hclassId : IsRun isDecimalDigit marker.classId.toList)
    (hid : IsNumber marker.id.toList) : (marker.usualWords hclassId hid).text = marker.render := by
  obtain ⟨classId, id, stripped⟩ := marker
  cases stripped <;> simp [Words.text, usualWords, behindId, render, strippedWord]

theorem marker_usualWords {marker : Marker} (hclassId : IsRun isDecimalDigit marker.classId.toList)
    (hid : IsNumber marker.id.toList) : (marker.usualWords hclassId hid).marker = marker := by
  obtain ⟨classId, id, stripped⟩ := marker
  cases stripped <;> simp [Words.marker, usualWords]

/-- **A line in the usual form declares what it was made from**, whatever ends it. -/
theorem parse?_render_append {marker : Marker} {ends : Text} (hends : ∀ c ∈ ends, isLineEnd c = true) :
    parse? (marker.render ++ ends) = some marker ↔
      IsRun isDecimalDigit marker.classId.toList ∧ IsNumber marker.id.toList := by
  rw [parse?_eq_some_iff]
  constructor
  · rintro ⟨words, -, rfl⟩
    simp only [Words.marker, String.toList_ofList]
    exact ⟨words.isRun_classId, words.isNumber_id⟩
  · rintro ⟨hclassId, hid⟩
    refine ⟨marker.usualWords hclassId hid, ?_, marker_usualWords hclassId hid⟩
    rw [← text_usualWords hclassId hid]
    exact Words.trimLineEnd_text_append _ hends

/-! ## Marker lines as a pattern -/

theorem matches_signedNumber_iff {before word behind : Text} :
    signedNumber.Matches before word behind ↔ IsNumber word := by
  constructor
  · rintro ⟨sign, digits, rfl, hsign, hdigits⟩
    have hrun := Pattern.matches_several_iff.1 hdigits
    rcases hsign with ⟨c, rfl, hc⟩ | ⟨rfl, -⟩
    · obtain rfl := of_decide_eq_true hc
      exact ⟨digits, hrun, .inr rfl⟩
    · exact ⟨digits, hrun, .inl rfl⟩
  · rintro ⟨digits, hrun, rfl | rfl⟩
    · exact ⟨[], word, rfl, .inr ⟨rfl, rfl⟩, Pattern.matches_several_iff.2 hrun⟩
    · exact ⟨['-'], digits, rfl, .inl ⟨'-', rfl, rfl⟩, Pattern.matches_several_iff.2 hrun⟩

/-- What may stand behind the id, as a pattern. -/
def behindIdPattern : Pattern :=
  .optional (.several isBlank ++ .exactly strippedWord) ++ .run isBlank

/-- A marker line without what ends it, as a pattern. -/
def linePattern : Pattern :=
  .textStart ++ (.exactly ['-', '-', '-'] ++ (.several isBlank ++ (.exactly ['!', 'u', '!'] ++
    (.several isDecimalDigit ++ (.several isBlank ++ (.exactly ['&'] ++
      (signedNumber ++ (behindIdPattern ++ .textEnd))))))))

theorem matches_behindIdPattern_iff {before word behind : Text} :
    behindIdPattern.Matches before word behind ↔
      ∃ gap? blanks, word = behindId gap? blanks ∧ (∀ gap ∈ gap?, IsRun isBlank gap) ∧
        ∀ c ∈ blanks, isBlank c = true := by
  constructor
  · rintro ⟨_, blanks, rfl, ⟨gap, _, rfl, hgap, hword⟩ | ⟨rfl, -⟩, hblanks⟩
    · obtain rfl := Pattern.matches_exactly_iff.1 hword
      refine ⟨some gap, blanks, List.append_assoc _ _ _, fun gap' hgap' => ?_, hblanks⟩
      obtain rfl := Option.some.inj hgap'
      exact Pattern.matches_several_iff.1 hgap
    · exact ⟨none, blanks, rfl, by simp, hblanks⟩
  · rintro ⟨gap?, blanks, rfl, hgap, hblanks⟩
    cases gap? with
    | none => exact ⟨[], blanks, rfl, .inr ⟨rfl, rfl⟩, hblanks⟩
    | some gap =>
      refine ⟨gap ++ strippedWord, blanks, (List.append_assoc _ _ _).symm, .inl ⟨gap, strippedWord, rfl, ?_, ?_⟩,
        hblanks⟩
      · exact Pattern.matches_several_iff.2 (hgap gap rfl)
      · exact Pattern.matches_exactly_iff.2 rfl

/-- **The pattern describes the lines that can be taken apart.** -/
theorem matches_linePattern_iff {text : Text} :
    linePattern.Matches [] text [] ↔ ∃ words : Words, text = words.text := by
  constructor
  · rintro ⟨_, _, rfl, ⟨rfl, -⟩, _, _, rfl, hdashes, gap, _, rfl, hgap, _, _, rfl, htag, classId, _, rfl, hclassId,
      gap', _, rfl, hgap', _, _, rfl, hamp, id, _, rfl, hid, behind, _, rfl, hbehind, ⟨rfl, -⟩⟩
    obtain rfl := Pattern.matches_exactly_iff.1 hdashes
    obtain rfl := Pattern.matches_exactly_iff.1 htag
    obtain rfl := Pattern.matches_exactly_iff.1 hamp
    obtain ⟨gap?, blanks, rfl, hstripped, hblanks⟩ := matches_behindIdPattern_iff.1 hbehind
    refine ⟨⟨gap, classId, gap', id, gap?, blanks, Pattern.matches_several_iff.1 hgap,
      Pattern.matches_several_iff.1 hclassId, Pattern.matches_several_iff.1 hgap', matches_signedNumber_iff.1 hid,
      hstripped, hblanks⟩, ?_⟩
    simp only [Words.text, List.append_nil, List.nil_append]
  · rintro ⟨words, rfl⟩
    refine ⟨[], _, rfl, ⟨rfl, rfl⟩, _, _, rfl, Pattern.matches_exactly_iff.2 rfl, _, _, rfl,
      Pattern.matches_several_iff.2 words.isRun_afterDashes, _, _, rfl, Pattern.matches_exactly_iff.2 rfl, _, _, rfl,
      Pattern.matches_several_iff.2 words.isRun_classId, _, _, rfl,
      Pattern.matches_several_iff.2 words.isRun_afterClassId, _, _, rfl, Pattern.matches_exactly_iff.2 rfl, _, _, rfl,
      matches_signedNumber_iff.2 words.isNumber_id, _, [], (List.append_nil _).symm, ?_, rfl, rfl⟩
    exact matches_behindIdPattern_iff.2 ⟨_, _, rfl, words.isRun_beforeStripped, words.isBlank_atEnd⟩

/-- **Marker lines are recognised exactly.**  Without the run of carriage returns and line feeds that ends it, a line
declares a marker when it is put together from the words of one, and declares what they say; it is so in one way at
most.  These are the lines that have the form of the pattern.  A marker whose ids are in digits can be read off its line
in the usual form, whatever ends that line. -/
theorem parse?_exact (line : Text) :
    (∃ ends, line = trimLineEnd line ++ ends ∧ (∀ c ∈ ends, isLineEnd c = true) ∧
      ∀ c ∈ (trimLineEnd line).getLast?, isLineEnd c = false) ∧
    (∀ marker, parse? line = some marker ↔ ∃ words : Words, trimLineEnd line = words.text ∧ words.marker = marker) ∧
    (∀ words words' : Words, trimLineEnd line = words.text → trimLineEnd line = words'.text → words = words') ∧
    (parse? line = none ↔ ¬ ∃ words : Words, trimLineEnd line = words.text) ∧
    ((parse? line).isSome = true ↔ linePattern.Matches [] (trimLineEnd line) []) ∧
    ∀ (marker : Marker) (ends : Text), (∀ c ∈ ends, isLineEnd c = true) →
      (parse? (marker.render ++ ends) = some marker ↔
        IsRun isDecimalDigit marker.classId.toList ∧ IsNumber marker.id.toList) := by
  refine ⟨trimLineEnd_eq_iff.1 rfl, fun marker => parse?_eq_some_iff, fun words words' h h' => ?_, parse?_eq_none_iff,
    ?_, fun marker ends => parse?_render_append⟩
  · exact Words.text_injective (h.symm.trans h')
  · rw [matches_linePattern_iff, ← not_iff_not, Bool.not_eq_true, Option.isSome_eq_false_iff, Option.isNone_iff_eq_none]
    exact parse?_eq_none_iff

/-- Gaps may hold tabs, digits may be of any script, and blanks may follow the word but not a carriage return. -/
example : parse? "--- \t!u!4\t&-٣ stripped \r\n".toList = some ⟨"4", "-٣", true⟩ ∧
    parse? "--- !u!4 &7\r \n".toList = none ∧ parse? "--- !u!4 &7 strippedx".toList = none := by decide +kernel

/-! ## The characters of a marker line -/

/-- A character that a marker line may hold. -/
def isMarkerChar (c : Char) : Bool :=
  isLineEnd c || isBlank c || isDecimalDigit c || ['-', '!', 'u', '&'].contains c || strippedWord.contains c

/-- **A marker line holds nothing but the characters of its parts.** -/
theorem isMarkerChar_of_parse? {line : Text} {marker : Marker} (h : parse? line = some marker) :
    ∀ c ∈ line, isMarkerChar c = true := by
  obtain ⟨words, hline, -⟩ := parse?_eq_some_iff.1 h
  obtain ⟨ends, hsplit, hends, -⟩ := trimLineEnd_eq_iff.1 hline
  rw [hsplit]
  refine List.forall_mem_append.2 ⟨words.forall_mem_text ?_ ?_ (by simp [isMarkerChar, strippedWord]), ?_⟩
  · exact fun c hc => by simp [isMarkerChar, hc]
  · exact fun c hc => by simp [isMarkerChar, hc]
  · exact fun c hc => by simp [isMarkerChar, hends c hc]

end Marker
end AssetIntegrity
