import AssetIntegrity.Pointer.Local
import AssetIntegrity.Proofs.Pointer.GuidCuts
import AssetIntegrity.Proofs.Text.Lines
/-!
# Foreign pointers — what becomes of a pointer into another asset

A pointer with a `guid` key is left out of the local references whatever white space stands around the key and its
colon, but its value is examined only when key, colon and value stand on one line with nothing but blanks between them.
Then it is, unless the value in front of the pointer runs on over its opening brace (`RunsOver`); such a value is
examined itself and is no GUID (`foreign_examined_of_line`).  A pointer wrapped behind the colon escapes
(`foreign_wrapped_escapes`).
-/
namespace AssetIntegrity
namespace Text

/-- The value behind the `guid` key that begins a text, when only what `skipGap` drops stands around its colon. -/
def guidValue? (skipGap : Text → Text) (text : Text) : Option Text :=
  (afterKey? (afterIgnoringCase? guidWord) skipGap text).map fun rest =>
    (skipQuote (skipGap rest)).takeWhile isValueChar

theorem hasGuidKey_eq_isSome (entry : Text) : hasGuidKey entry = (guidValue? skipSpace (skipSpace entry)).isSome := by
  unfold hasGuidKey guidValue?
  rw [Option.isSome_map]

/-! ## The front of a key -/

/-- **A key begins with its first letter or a quote.** -/
theorem head_of_guidValue? {skipGap : Text → Text} {text value : Text} (h : guidValue? skipGap text = some value) :
    ∃ c rest, text = c :: rest ∧ (c = '"' ∨ c = '\'' ∨ c = 'g' ∨ c = 'G') := by
  obtain ⟨behind, hkey, -⟩ := Option.map_eq_some_iff.1 h
  obtain ⟨after, hword, -⟩ := Option.bind_eq_some_iff.1 hkey
  cases text with
  | nil => cases hword
  | cons c rest =>
    refine ⟨c, rest, rfl, ?_⟩
    by_cases hquote : isQuote c = true
    · simp only [isQuote, Bool.or_eq_true, decide_eq_true_eq] at hquote
      exact hquote.elim .inl fun hc => .inr (.inl hc)
    · rw [skipQuote, if_neg hquote, guidWord, afterIgnoringCase?] at hword
      split at hword
      · rename_i hlower
        exact .inr (.inr (eq_of_toLower_eq hlower))
      · cases hword

/-- What blanks lead to, white space leads to, when it is no white space itself. -/
theorem skipSpace_of_skipBlanks {text rest : Text} {c : Char} (h : skipBlanks text = c :: rest)
    (hc : isSpace c = false) : skipSpace text = c :: rest := by
  obtain ⟨hsplit, hblanks, -⟩ := run_iff.1 ⟨rfl, h⟩
  refine (run_iff.2 ⟨hsplit, fun d hd => isSpace_of_isBlank (hblanks d hd), ?_⟩).2
  rintro d hd
  obtain rfl := Option.some.inj hd
  exact hc

theorem skipSpace_of_guidValue? {line value : Text} (h : guidValue? skipBlanks (skipBlanks line) = some value) :
    skipSpace line = skipBlanks line := by
  obtain ⟨c, rest, hline, hc⟩ := head_of_guidValue? h
  rw [hline]
  refine skipSpace_of_skipBlanks hline ?_
  rcases hc with rfl | rfl | rfl | rfl <;> decide

theorem hasGuidKey_of_guidValue? {gap line value : Text} (hspace : ∀ c ∈ gap, isSpace c = true)
    (h : guidValue? skipBlanks (skipBlanks line) = some value) : hasGuidKey (gap ++ line) = true := by
  have hgap : skipSpace (gap ++ line) = skipBlanks line := by
    rw [← skipSpace_of_guidValue? h]
    exact List.dropWhile_append_of_pos hspace
  obtain ⟨behind, hkey, -⟩ := Option.map_eq_some_iff.1 h
  obtain ⟨after, hword, hcolon⟩ := Option.bind_eq_some_iff.1 hkey
  have hcolon' : skipSpace (skipQuote after) = ':' :: behind :=
    skipSpace_of_skipBlanks (after?_eq_some_iff.1 hcolon) (by decide)
  rw [hasGuidKey_eq_isSome, hgap, guidValue?, afterKey?, hword, Option.bind_some, hcolon']
  rfl

/-! ## The entry of a pointer as an entry of the text -/

theorem guidValue?_append {s : Char} (h : Stops s) (hs : isValueChar s = false) (a b : Text) :
    guidValue? skipBlanks (a ++ s :: b) = guidValue? skipBlanks a := by
  unfold guidValue?
  rw [afterKey?_append h, Option.map_map]
  refine congrArg (Option.map · _) (funext fun rest => ?_)
  rw [Function.comp_apply, skipBlanks_append h, skipQuote_append h, takeWhile_append hs]

theorem guidItem?_of_keyPlace? {atLineStart : Bool} {text place value : Text}
    (hplace : keyPlace? atLineStart text = some place) (h : guidValue? skipBlanks place = some value) :
    ∃ rest, guidItem? atLineStart text = some (value, rest) := by
  obtain ⟨behind, hkey, rfl⟩ := Option.map_eq_some_iff.1 h
  refine ⟨(skipQuote (skipBlanks behind)).dropWhile isValueChar, ?_⟩
  rw [guidItem?_eq_map, valueAt?, hplace, Option.bind_some, hkey]
  rfl

/-- **A key may begin a line**, behind blanks. -/
theorem keyPlace?_of_guidValue? {line value : Text} (h : guidValue? skipBlanks (skipBlanks line) = some value) :
    keyPlace? true line = some (skipBlanks line) := by
  obtain ⟨c, rest, hline, hc⟩ := head_of_guidValue? h
  have hdash : skipDash (c :: rest) = c :: rest := by
    refine skipDash_of_ne ?_ rest
    rcases hc with rfl | rfl | rfl | rfl <;> decide
  cases line with
  | nil => cases hline
  | cons d more =>
    have hd : ¬ (d = '{' || d = ',') = true := by
      intro hd
      have hplain : isBlank d = false ∧ d ≠ c := by
        simp only [Bool.or_eq_true, decide_eq_true_eq] at hd
        rcases hd with rfl | rfl <;> rcases hc with rfl | rfl | rfl | rfl <;> decide
      rw [skipBlanks, List.dropWhile_cons_of_neg (by simp [hplain.1])] at hline
      exact hplain.2 (List.cons.inj hline).1
    rw [keyPlace?, if_neg hd, if_pos rfl, hline, hdash]

theorem mem_guids {text value : Text} (h : value ∈ guidEntries true text) (hne : value ≠ []) :
    String.ofList value ∈ guids text := by
  unfold guids
  refine List.mem_map.2 ⟨value, List.mem_filter.2 ⟨h, ?_⟩, rfl⟩
  simpa using hne

/-- **A value on the line of its brace or comma**, or on a line that begins with its key, is an entry of the text,
unless another value runs on over the brace. -/
theorem mem_guidEntries_of_line {mark : Char} (hmark : mark = '{' ∨ mark = ',') {gap line value : Text}
    (hgap : EndsLine gap) (h : guidValue? skipBlanks (skipBlanks line) = some value) (front : Text) :
    value ∈ guidEntries true (front ++ mark :: (gap ++ line)) ∨
      mark = '{' ∧ ∃ head, RunsOver true front '{' (gap ++ line) head := by
  rcases hgap with rfl | ⟨gap, rfl⟩
  · -- The key is read behind its brace or comma, which must not belong to a value.
    have hstops : Stops mark := by rcases hmark with rfl | rfl <;> constructor <;> decide
    have hplace : ∀ next, keyPlace? next (mark :: line) = some (skipBlanks line) := by
      intro next
      rcases hmark with rfl | rfl <;> rfl
    rw [List.nil_append]
    rcases guidEntries_append_or_runsOver hstops line true front with ⟨next, hnext⟩ | ⟨hvalue, hruns⟩
    · obtain ⟨rest, hentry⟩ := guidItem?_of_keyPlace? (hplace next) h
      rw [hnext, guidEntries_some hentry]
      exact .inl (List.mem_append_right _ List.mem_cons_self)
    · rcases hmark with rfl | rfl
      · exact .inr ⟨rfl, hruns⟩
      · exact absurd hvalue (by decide)
  · -- The key begins a line, where reading starts afresh.
    obtain ⟨rest, hentry⟩ := guidItem?_of_keyPlace? (keyPlace?_of_guidValue? h) h
    have hsplit : front ++ mark :: (gap ++ ['\n'] ++ line) = (front ++ mark :: gap) ++ '\n' :: line := by
      simp only [List.append_assoc, List.cons_append, List.nil_append]
    rw [hsplit, guidEntries_newline, guidEntries_some hentry]
    exact .inl (List.mem_append_right _ List.mem_cons_self)

/-! ## Pointers in a text -/

/-- **Where a pointer stands**: it was open when reading began, or it stands in the text as a whole. -/
theorem mem_interiorsFrom : ∀ {text : Text} {pending : Option Text} {interior : Text},
    interior ∈ interiorsFrom pending text →
      (∃ inner rest, pending = some inner ∧ inner.reverse ++ text = interior ++ '}' :: rest) ∨
        ∃ front rest, text = front ++ '{' :: (interior ++ '}' :: rest)
  | [], _, _, h => by cases h
  | c :: text, pending, interior, h => by
    have later : (∃ front rest, text = front ++ '{' :: (interior ++ '}' :: rest)) →
        ∃ front rest, c :: text = front ++ '{' :: (interior ++ '}' :: rest) := by
      rintro ⟨front, rest, rfl⟩
      exact ⟨c :: front, rest, rfl⟩
    simp only [interiorsFrom] at h
    split at h
    · rename_i hc
      subst hc
      rcases mem_interiorsFrom h with ⟨inner, rest, hinner, htext⟩ | hfound
      · obtain rfl := Option.some.inj hinner
        exact .inr ⟨[], rest, congrArg ('{' :: ·) htext⟩
      · exact .inr (later hfound)
    · have skip : interior ∈ interiorsFrom none text → ∃ front rest, text = front ++ '{' :: (interior ++ '}' :: rest) :=
        fun h => (mem_interiorsFrom h).resolve_left fun ⟨_, _, hnone, _⟩ => nomatch hnone
      split at h
      · rename_i hc
        subst hc
        cases pending with
        | none => exact .inr (later (skip h))
        | some inner =>
          rcases List.mem_cons.1 h with rfl | h
          · exact .inl ⟨inner, text, rfl, rfl⟩
          · exact .inr (later (skip h))
      · rcases mem_interiorsFrom h with ⟨inner, rest, hinner, htext⟩ | hfound
        · obtain ⟨before, rfl, rfl⟩ := Option.map_eq_some_iff.1 hinner
          refine .inl ⟨before, rest, rfl, ?_⟩
          rw [← htext, List.reverse_cons, List.append_assoc]
          rfl
        · exact .inr (later hfound)

theorem mem_interiors {body interior : Text} (h : interior ∈ interiors body) :
    ∃ front rest, body = front ++ '{' :: (interior ++ '}' :: rest) :=
  (mem_interiorsFrom h).resolve_left fun ⟨_, _, hnone, _⟩ => nomatch hnone

/-- **Where an entry stands**: right behind the start or behind a comma, and in front of a comma or the end. -/
theorem mem_intercalate {entry : Text} : ∀ {entries : List Text}, entry ∈ entries → ∀ start stop : Char,
    ∃ front mark stop' rest,
      start :: ([','].intercalate entries ++ [stop]) = front ++ mark :: (entry ++ stop' :: rest) ∧
      (mark = start ∧ front = [] ∨ mark = ',') ∧ (stop' = stop ∨ stop' = ',')
  | [last], h, start, stop => by
    obtain rfl := List.mem_singleton.1 h
    exact ⟨[], start, stop, [], by rw [List.intercalate_singleton]; rfl, .inl ⟨rfl, rfl⟩, .inl rfl⟩
  | first :: second :: entries, h, start, stop => by
    have hsplit : start :: ([','].intercalate (first :: second :: entries) ++ [stop]) =
        start :: first ++ ',' :: ([','].intercalate (second :: entries) ++ [stop]) := by
      rw [List.intercalate_cons_cons, List.append_assoc, List.append_assoc]
      rfl
    rw [hsplit]
    rcases List.mem_cons.1 h with rfl | h
    · exact ⟨[], start, ',', _, rfl, .inl ⟨rfl, rfl⟩, .inr rfl⟩
    · obtain ⟨front, mark, stop', rest, heq, hmark, hstop⟩ := mem_intercalate h ',' stop
      refine ⟨start :: first ++ front, mark, stop', rest, ?_, .inr (hmark.elim And.left id), hstop⟩
      rw [heq, List.append_assoc]

/-- **Where an entry of a pointer stands in the text**: right behind its brace or behind a comma, in front of a brace or
a comma. -/
theorem exists_of_mem_entries {body interior entry : Text} (hinterior : interior ∈ interiors body)
    (hentry : entry ∈ interior.splitOn ',') :
    ∃ front mark stop rest, body = front ++ mark :: (entry ++ stop :: rest) ∧
      (mark = '{' ∧ (∃ last, entry ++ stop :: rest = interior ++ '}' :: last) ∨ mark = ',') ∧
      (stop = '}' ∨ stop = ',') := by
  obtain ⟨front, rest, rfl⟩ := mem_interiors hinterior
  obtain ⟨front', mark, stop, rest', heq, hmark, hstop⟩ := mem_intercalate hentry '{' '}'
  rw [List.intercalate_splitOn] at heq
  have hbody : '{' :: (interior ++ '}' :: rest) = front' ++ mark :: (entry ++ stop :: (rest' ++ rest)) := by
    have hrest := congrArg (· ++ rest) heq
    simpa only [List.append_assoc, List.cons_append, List.nil_append] using hrest
  refine ⟨front ++ front', mark, stop, rest' ++ rest, ?_, hmark.imp_left ?_, hstop⟩
  · rw [hbody, List.append_assoc]
  · rintro ⟨rfl, rfl⟩
    exact ⟨rfl, rest, (List.cons.inj hbody).2.symm⟩

/-- **Its value is examined**, or one that runs on over its brace is. -/
theorem mem_guids_of_line {body interior gap line value : Text} (hinterior : interior ∈ interiors body)
    (hentry : gap ++ line ∈ interior.splitOn ',') (hgap : EndsLine gap)
    (h : guidValue? skipBlanks (skipBlanks line) = some value) (hne : value ≠ []) :
    String.ofList value ∈ guids body ∨
      ∃ front rest head, body = front ++ '{' :: (interior ++ '}' :: rest) ∧
        RunsOver true front '{' (interior ++ '}' :: rest) head ∧
        String.ofList (head ++ '{' :: interior.takeWhile isValueChar) ∈ guids body := by
  obtain ⟨front, mark, stop, rest, rfl, hmark, hstop⟩ := exists_of_mem_entries hinterior hentry
  have hstops : Stops stop := by rcases hstop with rfl | rfl <;> constructor <;> decide
  have hvalue : isValueChar stop = false := by rcases hstop with rfl | rfl <;> decide
  have hmore : guidValue? skipBlanks (skipBlanks (line ++ stop :: rest)) = some value := by
    rw [skipBlanks_append hstops, guidValue?_append hstops hvalue, h]
  rcases mem_guidEntries_of_line (hmark.imp_left And.left) hgap hmore front with hmem | ⟨rfl, head, hruns⟩
  · rw [List.append_assoc]
    exact .inl (mem_guids hmem hne)
  · obtain ⟨-, last, hlast⟩ := hmark.resolve_right (by decide)
    rw [← List.append_assoc, hlast] at hruns
    refine .inr ⟨front, last, head, by rw [hlast], hruns, ?_⟩
    obtain ⟨-, earlier, later, -, hwhole⟩ := hruns
    rw [takeWhile_append (by decide)] at hwhole
    rw [hlast]
    refine mem_guids ?_ (List.append_ne_nil_of_right_ne_nil head (List.cons_ne_nil _ _))
    rw [hwhole]
    exact List.mem_append_right earlier List.mem_cons_self

theorem isGuid_eq_false_of_brace {value : String} (h : '{' ∈ value.toList) : isGuid value = false := by
  rw [Bool.eq_false_iff]
  intro hguid
  rw [isGuid, Bool.and_eq_true, List.all_eq_true] at hguid
  exact absurd (hguid.2 _ h) (by decide)

/-- **A pointer into another asset does not escape while it stays on its line.**  When the `guid` key of a pointer, the
colon and the value stand on one line with blanks between them at most, the pointer is no local reference and the value
is examined, unless the value in front of the pointer runs on over its brace; then that one is examined.  Either way an
invalid value leaves an invalid value to be found. -/
theorem foreign_examined_of_line {body interior gap line value : Text} (hinterior : interior ∈ interiors body)
    (hentry : gap ++ line ∈ interior.splitOn ',') (hspace : ∀ c ∈ gap, isSpace c = true) (hgap : EndsLine gap)
    (hvalue : guidValue? skipBlanks (skipBlanks line) = some value) (hne : value ≠ []) :
    localId? interior = none ∧
    (String.ofList value ∈ guids body ∨
      ∃ front rest head, body = front ++ '{' :: (interior ++ '}' :: rest) ∧
        RunsOver true front '{' (interior ++ '}' :: rest) head ∧
        String.ofList (head ++ '{' :: interior.takeWhile isValueChar) ∈ guids body) ∧
    (isGuid (String.ofList value) = false → ∃ found ∈ guids body, isGuid found = false) := by
  have hfound := mem_guids_of_line hinterior hentry hgap hvalue hne
  refine ⟨?_, hfound, ?_⟩
  · have hforeign : (interior.splitOn ',').any hasGuidKey = true :=
      List.any_eq_true.2 ⟨gap ++ line, hentry, hasGuidKey_of_guidValue? hspace hvalue⟩
    rw [localId?, if_pos hforeign]
  · intro hinvalid
    rcases hfound with hmem | ⟨front, rest, head, -, -, hother⟩
    · exact ⟨_, hmem, hinvalid⟩
    · refine ⟨_, hother, isGuid_eq_false_of_brace ?_⟩
      rw [String.toList_ofList]
      exact List.mem_append_right head List.mem_cons_self

/-- The key stands on a second line of its pointer. -/
theorem foreign_examined_of_line_script :
    let body := "  m_Script: \x7bfileID: 11500000,\n    'guid' : nope, type: 3\x7d\n".toList
    ∃ interior ∈ interiors body, ∃ gap line, gap ++ line ∈ interior.splitOn ',' ∧
      (∀ c ∈ gap, isSpace c = true) ∧ EndsLine gap ∧
      guidValue? skipBlanks (skipBlanks line) = some "nope".toList ∧ "nope".toList ≠ [] ∧
      localId? interior = none ∧
      (String.ofList "nope".toList ∈ guids body ∨
        ∃ front rest head, body = front ++ '{' :: (interior ++ '}' :: rest) ∧
          RunsOver true front '{' (interior ++ '}' :: rest) head ∧
          String.ofList (head ++ '{' :: interior.takeWhile isValueChar) ∈ guids body) ∧
      (isGuid (String.ofList "nope".toList) = false → ∃ found ∈ guids body, isGuid found = false) := by
  have hinterior : "fileID: 11500000,\n    'guid' : nope, type: 3".toList ∈
      interiors "  m_Script: \x7bfileID: 11500000,\n    'guid' : nope, type: 3\x7d\n".toList := by decide
  have hentry : "\n".toList ++ "    'guid' : nope".toList ∈
      "fileID: 11500000,\n    'guid' : nope, type: 3".toList.splitOn ',' := by decide
  have hspace : ∀ c ∈ "\n".toList, isSpace c = true := List.all_eq_true.1 (by decide)
  refine ⟨_, hinterior, _, _, hentry, hspace, by decide, by decide, by decide, ?_⟩
  exact foreign_examined_of_line hinterior hentry hspace (by decide) (by decide) (by decide)

/-- The first value runs on over the brace of the pointer and takes up its key. -/
example : interiors "guid: x\x7bguid: nope\x7d".toList = ["guid: nope".toList] ∧
    guids "guid: x\x7bguid: nope\x7d".toList = ["x\x7bguid:"] := by decide +kernel

/-- **A pointer wrapped behind the colon of its key escapes**: it is no local reference and its value is not
examined. -/
theorem foreign_wrapped_escapes :
    let body := "  m_Script: \x7bfileID: 11500000, guid:\n    nope, type: 3\x7d\n".toList
    ∃ interior ∈ interiors body, ∃ entry ∈ interior.splitOn ',',
      ((interior.splitOn ',').findSome? fileId?).isSome ∧ localId? interior = none ∧
      guidValue? skipSpace (skipSpace entry) = some "nope".toList ∧ guids body = [] := by
  refine ⟨"fileID: 11500000, guid:\n    nope, type: 3".toList, by decide, " guid:\n    nope".toList, by decide, ?_⟩
  refine ⟨by decide, by decide, by decide, ?_⟩
  decide +kernel

end Text
end AssetIntegrity
