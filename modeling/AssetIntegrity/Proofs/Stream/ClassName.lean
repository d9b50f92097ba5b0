import AssetIntegrity.Index.Table
import AssetIntegrity.Proofs.Stream.MarkerLine
import AssetIntegrity.Proofs.Stream.Sections
import AssetIntegrity.Proofs.Text.Integer
/-!
# Class names — which class ids have a name

A class id has a name exactly when it is a number whose integer is in the table, and then the name that stands there
(`className?_eq_some_iff`).  Words are enough to find it, since a word holds every integer of the table
(`fits_of_mem_classNames`).  Marker lines bound neither the length nor the script of a class id, so any run of digits
can be that of a document (`Stream.exists_document_of_render`); digits of another script than ASCII have no name
(`className?_eq_none_of_not_isDigit`), and messages show the class id as written (`Document.label_of_className?`).
-/
namespace AssetIntegrity

open Text

/-! ## Looking up a number -/

theorem lookup_classNames_eq_some_iff {n : Int} {name : String} :
    classNames.lookup n = some name ↔ (n, name) ∈ classNames :=
  Table.lookup_eq_some_iff_mem (by decide)

theorem fits_of_mem_classNames {n : Int} {name : String} (h : (n, name) ∈ classNames) : Word.Fits n := by
  have hall : ∀ entry ∈ classNames, Word.Fits entry.1 := by decide
  exact hall (n, name) h

/-- **A class id has a name** exactly when it is a number whose integer, of whatever size, is in the table. -/
theorem className?_eq_some_iff {classId name : String} :
    className? classId = some name ↔
      ∃ numeral : Numeral, classId.toList = numeral.text ∧ (numeral.value, name) ∈ classNames := by
  rw [className?, Option.bind_eq_some_iff]
  constructor
  · rintro ⟨w, hw, hname⟩
    obtain ⟨numeral, htext, hvalue⟩ := word?_eq_some_iff.1 hw
    exact ⟨numeral, htext, hvalue ▸ lookup_classNames_eq_some_iff.1 hname⟩
  · rintro ⟨numeral, htext, hmem⟩
    obtain ⟨w, hw⟩ := Word.fits_iff_exists.1 (fits_of_mem_classNames hmem)
    exact ⟨w, word?_eq_some_iff.2 ⟨numeral, htext, hw.symm⟩, lookup_classNames_eq_some_iff.2 (hw ▸ hmem)⟩

theorem className?_toString (n : Int) : className? (toString n) = classNames.lookup n := by
  refine Option.ext fun name => ?_
  obtain ⟨numeral, htext, rfl⟩ := Numeral.exists_toString n
  rw [className?_eq_some_iff, lookup_classNames_eq_some_iff]
  constructor
  · rintro ⟨numeral', htext', hmem⟩
    rwa [Numeral.text_injective (htext.symm.trans htext')]
  · exact fun hmem => ⟨numeral, htext, hmem⟩

theorem className?_of_not_fits {numeral : Numeral} (h : ¬ Word.Fits numeral.value) :
    className? (String.ofList numeral.text) = none := by
  rw [className?, String.toList_ofList, word?_text, if_neg h, Option.bind_none]

/-! ## Leading zeros -/

/-- Zeros alone stand for no class, and neither does no digit at all. -/
theorem className?_zeros (sign : Sign) (zeros : Nat) :
    className? (String.ofList (sign.text ++ List.replicate zeros '0')) = none := by
  refine Option.eq_none_iff_forall_ne_some.2 fun name hname => ?_
  obtain ⟨numeral, htext, hmem⟩ := className?_eq_some_iff.1 hname
  rw [String.toList_ofList] at htext
  obtain ⟨-, hdigits⟩ := Sign.eq_of_append_eq (sign.leads_of_isDigit fun _ => isDigit_of_mem_zeros)
    (numeral.sign.leads_of_isDigit numeral.isRun_digits.2) htext
  have hzero : numeral.value = 0 := by
    rw [Numeral.value, ← hdigits, Nat.ofDigitChars_replicate_zero, Nat.mul_zero]
    exact Int.mul_zero _
  have hmissing : ∀ entry ∈ classNames, entry.1 ≠ 0 := by decide
  exact hmissing _ hmem hzero

/-- **Zeros behind the sign do not change the answer**, whatever follows them. -/
theorem className?_zeros_append {sign : Sign} {rest : Text} (h : sign.Leads rest) (zeros : Nat) :
    className? (String.ofList (sign.text ++ (List.replicate zeros '0' ++ rest))) =
      className? (String.ofList (sign.text ++ rest)) := by
  cases rest with
  | nil =>
    have hnone := className?_zeros sign 0
    rw [List.append_nil, className?_zeros]
    exact hnone.symm
  | cons c rest =>
    rw [className?, className?, String.toList_ofList, String.toList_ofList, Sign.word?_append (h.zeros_append zeros),
      Sign.word?_append h, digitsWord?_zeros_append sign (List.cons_ne_nil c rest)]

/-! ## Digits of other scripts -/

theorem className?_eq_none_of_not_isDigit {classId : String} {c : Char} (hc : c ∈ classId.toList)
    (hdecimal : isDecimalDigit c = true) (hascii : c.isDigit = false) : className? classId = none := by
  refine Option.eq_none_iff_forall_ne_some.2 fun name hname => ?_
  obtain ⟨numeral, htext, -⟩ := className?_eq_some_iff.1 hname
  have hdigit : c.isDigit = true := numeral.isDigit_of_mem_text (htext ▸ hc) hdecimal
  rw [hascii] at hdigit
  cases hdigit

theorem Document.label_of_className? {document : Document} (h : document.className? = none) :
    document.label = "!u!" ++ document.classId ++ " &" ++ document.id := by
  rw [label, h]

/-! ## The class ids of documents -/

theorem Marker.newline_notMem_render {marker : Marker} (hclassId : IsRun isDecimalDigit marker.classId.toList)
    (hid : IsNumber marker.id.toList) : '\n' ∉ marker.render := by
  rw [← text_usualWords hclassId hid]
  intro hmem
  have hplain := (marker.usualWords hclassId hid).isLineEnd_of_mem_text '\n' hmem
  exact absurd hplain (by decide)

/-- **Any line in the usual form gives a document**, with its class id as written, in whatever text it stands. -/
theorem Stream.exists_document_of_render {front : Text} (hfront : EndsLine front) {marker : Marker}
    (hclassId : IsRun isDecimalDigit marker.classId.toList) (hid : IsNumber marker.id.toList) (back : Text) :
    ∃ document ∈ (ofText (front ++ (marker.render ++ '\n' :: back))).documents, document.toMarker = marker := by
  have hline : lines (marker.render ++ ['\n']) = [marker.render ++ ['\n']] := by
    refine lines_singleton (List.append_ne_nil_of_right_ne_nil _ (List.cons_ne_nil _ _)) ?_
    rw [List.dropLast_concat]
    exact Marker.newline_notMem_render hclassId hid
  have hmarks : Marker.parse? (marker.render ++ ['\n']) = some marker :=
    (Marker.parse?_render_append (List.forall_mem_singleton.2 (by decide))).2 ⟨hclassId, hid⟩
  have hmem : marker ∈ (lines (front ++ (marker.render ++ '\n' :: back))).filterMap Marker.parse? := by
    rw [lines_append hfront, lines_append_newline, hline]
    exact List.mem_filterMap.2 ⟨_, List.mem_append_right _ (List.mem_append_left _ List.mem_cons_self), hmarks⟩
  rw [← markers_readAt _ .start] at hmem
  exact List.mem_map.1 hmem

/-- **Class names are found by the exact integer.**
- A class id has a name exactly when it is ASCII digits behind at most one sign, which it is in one way only, and the
  integer that they stand for is in the table.  So every integer is looked up under its usual form.
- Zeros behind the sign change nothing, whatever follows them.
- A number is read as its integer or not at all, and one that no word holds has no name.
- A class id with a digit of another script has no name, and the label of its document shows it as written.  Every run
  of digits is the class id of a document, in any text in which its line stands. -/
theorem className?_exact :
    (∀ classId name : String, className? classId = some name ↔
      ∃ numeral : Numeral, classId.toList = numeral.text ∧ (numeral.value, name) ∈ classNames) ∧
    (∀ numeral numeral' : Numeral, numeral.text = numeral'.text → numeral = numeral') ∧
    (∀ n : Int, className? (toString n) = classNames.lookup n) ∧
    (∀ (sign : Sign) (zeros : Nat) (rest : Text), sign.Leads rest →
      className? (String.ofList (sign.text ++ (List.replicate zeros '0' ++ rest))) =
        className? (String.ofList (sign.text ++ rest))) ∧
    (∀ numeral : Numeral,
      word? numeral.text = (if Word.Fits numeral.value then some (Int64.ofInt numeral.value) else none) ∧
        (¬ Word.Fits numeral.value → className? (String.ofList numeral.text) = none)) ∧
    (∀ document : Document, (∃ c ∈ document.classId.toList, isDecimalDigit c = true ∧ c.isDigit = false) →
      document.className? = none ∧ document.label = "!u!" ++ document.classId ++ " &" ++ document.id) ∧
    ∀ (front back : Text) (marker : Marker), EndsLine front → IsRun isDecimalDigit marker.classId.toList →
      IsNumber marker.id.toList →
        ∃ document ∈ (Stream.ofText (front ++ (marker.render ++ '\n' :: back))).documents,
          document.toMarker = marker := by
  refine ⟨fun classId name => className?_eq_some_iff, fun numeral numeral' => Numeral.text_injective,
    className?_toString, fun sign zeros rest h => className?_zeros_append h zeros,
    fun numeral => ⟨word?_text numeral, className?_of_not_fits⟩, ?_,
    fun front back marker hfront hclassId hid => Stream.exists_document_of_render hfront hclassId hid back⟩
  rintro document ⟨c, hc, hdecimal, hascii⟩
  have hnone : document.className? = none := className?_eq_none_of_not_isDigit hc hdecimal hascii
  exact ⟨hnone, Document.label_of_className? hnone⟩

/-- A number of 65 bits does not wrap around to the class of its low bits. -/
example : className? "+000114" = some "MonoBehaviour" ∧ className? "-1" = none ∧
    className? "18446744073709551617" = none ∧ className? "1١" = none := by decide +kernel

end AssetIntegrity
