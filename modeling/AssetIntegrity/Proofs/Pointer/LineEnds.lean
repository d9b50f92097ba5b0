import AssetIntegrity.Pointer.Local
import AssetIntegrity.Proofs.Pointer.GuidCuts
import AssetIntegrity.Proofs.Text.LineEnds
/-!
# Line ends — pointers over several lines

Neither a carriage return in front of a line feed nor a line feed at the end changes where the pointers of a text lead
(`localIds_crlf`, `localIds_append_newline`) or which GUID values it holds (`guids_crlf`, `guids_append_newline`).  A
pointer may run over several lines, so its readers are followed through the rewritten text; a GUID entry stands on one
line, where a carriage return stops every reader.
-/
namespace AssetIntegrity
namespace Text

/-! ## Local references -/

theorem afterKey?_crlf {word? : Text → Option Text} {skipGap : Text → Text}
    (hword : ∀ text, word? (crlf text) = (word? text).map crlf)
    (hgap : ∀ text, skipGap (crlf text) = crlf (skipGap text)) (text : Text) :
    afterKey? word? skipGap (crlf text) = (afterKey? word? skipGap text).map crlf := by
  unfold afterKey?
  rw [skipQuote_crlf, hword]
  cases word? (skipQuote text) with
  | none => rfl
  | some rest =>
    rw [Option.map_some, Option.bind_some, Option.bind_some, skipQuote_crlf, hgap,
      after?_crlf (by decide) (by decide)]

theorem hasGuidKey_crlf (entry : Text) : hasGuidKey (crlf entry) = hasGuidKey entry := by
  have hword : ∀ text, afterIgnoringCase? guidWord (crlf text) = (afterIgnoringCase? guidWord text).map crlf :=
    afterIgnoringCase?_crlf (by decide) (by decide)
  unfold hasGuidKey
  rw [skipSpace_crlf, afterKey?_crlf hword skipSpace_crlf, Option.isSome_map]

theorem fileId?_crlf (entry : Text) : fileId? (crlf entry) = fileId? entry := by
  have hword : ∀ text, after? fileIdWord (crlf text) = (after? fileIdWord text).map crlf :=
    after?_crlf (by decide) (by decide)
  unfold fileId?
  rw [skipSpace_crlf, afterKey?_crlf hword skipSpace_crlf]
  cases afterKey? (after? fileIdWord) skipSpace (skipSpace entry) with
  | none => rfl
  | some rest =>
    simp only [Option.map_some, Option.bind_eq_bind, Option.bind_some, skipSpace_crlf, skipQuote_crlf, number?_crlf]
    cases number? (skipQuote (skipSpace rest)) with
    | none => rfl
    | some number =>
      simp only [Option.map_some, Option.bind_some, Prod.map_fst, Prod.map_snd, skipQuote_crlf, skipSpace_crlf,
        crlf_isEmpty, id]

theorem localId?_crlf (interior : Text) : localId? (crlf interior) = localId? interior := by
  unfold localId?
  simp only [splitOn_crlf, List.any_map, List.findSome?_map, Function.comp_def, hasGuidKey_crlf, fileId?_crlf]

/-- The text with `\r\n` for each line feed, when both are held backwards. -/
def crlfBack (held : Text) : Text := (crlf held.reverse).reverse

theorem crlfBack_newline (held : Text) : crlfBack ('\n' :: held) = '\n' :: '\r' :: crlfBack held := by
  unfold crlfBack
  rw [List.reverse_cons, crlf_append, List.reverse_append]
  rfl

theorem crlfBack_cons {c : Char} (hc : c ≠ '\n') (held : Text) : crlfBack (c :: held) = c :: crlfBack held := by
  unfold crlfBack
  rw [List.reverse_cons, crlf_append, crlf_cons hc, List.reverse_append]
  rfl

theorem reverse_crlfBack (held : Text) : (crlfBack held).reverse = crlf held.reverse := List.reverse_reverse _

theorem interiorsFrom_crlf : ∀ (text : Text) (pending : Option Text),
    interiorsFrom (pending.map crlfBack) (crlf text) = (interiorsFrom pending text).map crlf
  | [], _ => rfl
  | c :: text, pending => by
    by_cases hc : c = '\n'
    · subst hc
      have ih := interiorsFrom_crlf text (pending.map ('\n' :: ·))
      simp only [Option.map_map, Function.comp_def, crlfBack_newline] at ih
      simpa [crlf_newline, interiorsFrom, Function.comp_def] using ih
    · have ih := interiorsFrom_crlf text (pending.map (c :: ·))
      simp only [Option.map_map, Function.comp_def, crlfBack_cons hc] at ih
      simp only [crlf_cons hc, interiorsFrom, Option.map_map, Function.comp_def, ih]
      split
      · exact interiorsFrom_crlf text (some [])
      · split
        · cases pending with
          | none => exact interiorsFrom_crlf text none
          | some inner =>
            have hrest := interiorsFrom_crlf text none
            rw [Option.map_none] at hrest
            simp only [Option.map_some, List.map_cons, reverse_crlfBack, hrest]
        · rfl

theorem localIds_crlf (body : Text) : localIds (crlf body) = localIds body := by
  unfold localIds interiors
  have h := interiorsFrom_crlf body none
  rw [Option.map_none] at h
  rw [h, List.filterMap_map, funext (f := localId? ∘ crlf) localId?_crlf]

theorem interiorsFrom_append_newline : ∀ (text : Text) (pending : Option Text),
    interiorsFrom pending (text ++ ['\n']) = interiorsFrom pending text
  | [], _ => rfl
  | c :: text, pending => by
    simp only [List.cons_append, interiorsFrom, interiorsFrom_append_newline text]

theorem localIds_append_newline (body : Text) : localIds (body ++ ['\n']) = localIds body := by
  unfold localIds interiors
  rw [interiorsFrom_append_newline]

/-! ## GUID values -/

theorem stops_return : Stops '\r' := by constructor <;> decide

theorem guidItem?_return (atLineStart : Bool) (text : Text) : guidItem? atLineStart ('\r' :: text) = none := by
  cases atLineStart <;> rfl

/-- **A carriage return at the end of a line** changes none of the entries. -/
theorem guidEntries_return (atLineStart : Bool) (a b : Text) :
    guidEntries atLineStart (a ++ '\r' :: '\n' :: b) = guidEntries atLineStart (a ++ '\n' :: b) := by
  obtain ⟨next, hnext⟩ := guidEntries_append stops_return (by decide) atLineStart a ('\n' :: b)
  have hreturn : guidEntries next ('\r' :: '\n' :: b) = guidEntries true b := by
    rw [guidEntries_none (guidItem?_return next _), guidEntries_none (guidItem?_newline _ b)]
    rfl
  rw [hnext, hreturn, guidEntries_newline]

theorem guidEntries_crlf (text : Text) (atLineStart : Bool) :
    guidEntries atLineStart (crlf text) = guidEntries atLineStart text := by
  by_cases hmem : '\n' ∈ text
  · -- The text up to its first line feed, and the text behind it.
    obtain ⟨a, b, htext, ha⟩ := List.eq_append_cons_of_mem hmem
    rw [htext, crlf_append, crlf_of_not_mem ha, crlf_newline, guidEntries_return, guidEntries_newline,
      guidEntries_newline, guidEntries_crlf b true]
  · rw [crlf_of_not_mem hmem]
termination_by text.length
decreasing_by
  rw [htext, List.length_append, List.length_cons]
  omega

theorem guids_crlf (text : Text) : guids (crlf text) = guids text := by
  unfold guids
  rw [guidEntries_crlf]

theorem guids_append_newline (text : Text) : guids (text ++ ['\n']) = guids text := by
  unfold guids
  rw [guidEntries_newline, guidEntries_nil, List.append_nil]

end Text
end AssetIntegrity
