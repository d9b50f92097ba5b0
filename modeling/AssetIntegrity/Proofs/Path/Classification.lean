import AssetIntegrity.Proofs.Path.FileName
import AssetIntegrity.Proofs.Path.LetterCase
import Mathlib.Data.List.Forall2
/-!
# Classification — which paths a classifier accepts

A classifier accepts a path exactly when the extension of the path is text, and one of the extensions from which the
classifier is made spells this text (`Classifier.accepts_exact`).  What is kept of an extension is the lower case of
what stands behind the dots in front (`Classifier.normalize_eq`), so neither these dots nor the case of letters make a
difference.  The case of letters in a path makes none either, since slashes and dots are no letters
(`Path.HasExtension.of_sameCase`).
-/
namespace AssetIntegrity

/-! ## Paths in another case -/

/-- Bytes that differ in the case of letters only. -/
def SameCase (a b : List UInt8) : Prop := a.map Classifier.lowerByte = b.map Classifier.lowerByte

namespace SameCase

variable {a b c : List UInt8}

theorem exists_append (h : SameCase c (a ++ b)) : ∃ a' b', c = a' ++ b' ∧ SameCase a' a ∧ SameCase b' b := by
  unfold SameCase at h
  rw [List.map_append] at h
  exact List.map_eq_append_iff.1 h

theorem eq_nil_iff (h : SameCase a b) : a = [] ↔ b = [] := by
  rw [← List.map_eq_nil_iff (f := Classifier.lowerByte), h, List.map_eq_nil_iff]

end SameCase

namespace Path

/-- The bytes that hold a path together: they are the lower case of themselves alone. -/
theorem lowerByte_eq_mark_iff {byte mark : UInt8} (hmark : mark = slash ∨ mark = dot) :
    Classifier.lowerByte byte = mark ↔ byte = mark := by
  constructor
  · intro h
    refine Classifier.eq_of_lowerByte_eq h ?_
    rcases hmark with rfl | rfl <;> decide
  · rintro rfl
    rcases hmark with rfl | rfl <;> rfl

theorem mark_mem_iff {a b : List UInt8} (h : SameCase a b) {mark : UInt8} (hmark : mark = slash ∨ mark = dot) :
    mark ∈ a ↔ mark ∈ b := by
  have hlower : ∀ l : List UInt8, mark ∈ l.map Classifier.lowerByte ↔ mark ∈ l := fun l => by
    simp only [List.mem_map, lowerByte_eq_mark_iff hmark, exists_eq_right]
  rw [← hlower a, h, hlower b]

theorem eq_of_marks : ∀ {a b : List UInt8}, SameCase a b → (∀ mark ∈ b, mark = slash ∨ mark = dot) → a = b
  | [], [], _, _ => rfl
  | [], _ :: _, h, _ => nomatch h
  | _ :: _, [], h, _ => nomatch h
  | byte :: a, mark :: b, h, hb => by
    obtain ⟨hmark, hb⟩ := List.forall_mem_cons.1 hb
    obtain ⟨hbyte, hrest⟩ := List.cons.inj h
    rw [(lowerByte_eq_mark_iff hmark).2 rfl] at hbyte
    rw [(lowerByte_eq_mark_iff hmark).1 hbyte, eq_of_marks hrest hb]

theorem normal_of_sameCase {name other : FileName} (h : SameCase other name) (hname : name.Normal) : other.Normal where
  ne_nil heq := hname.ne_nil (h.eq_nil_iff.1 heq)
  ne_here heq := hname.ne_here (eq_of_marks (heq ▸ h.symm) (by simp))
  ne_parent heq := hname.ne_parent (eq_of_marks (heq ▸ h.symm) (by simp))
  slash_notMem hmem := hname.slash_notMem ((mark_mem_iff h (.inl rfl)).1 hmem)

theorem EndsIn.of_sameCase {path other : Path} {name : FileName} (hpath : path.EndsIn name) (h : SameCase other path) :
    ∃ name', other.EndsIn name' ∧ SameCase name' name := by
  obtain ⟨front, behind, rfl, hfront, hname, hbehind⟩ := hpath
  obtain ⟨front', rest, rfl, hfront', hrest⟩ := h.exists_append
  obtain ⟨name', tail, rfl, hname', htail⟩ := hrest.exists_append
  have hmarks : ∀ mark ∈ behind.flatMap (slash :: ·), mark = slash ∨ mark = dot := by
    intro mark hmark
    obtain ⟨part, hpart, hmark⟩ := List.mem_flatMap.1 hmark
    rcases hbehind part hpart with rfl | rfl <;> simp at hmark
    · exact .inl hmark
    · exact hmark
  -- what is behind the name has no letters, so it is the same in both paths
  obtain rfl := eq_of_marks htail hmarks
  refine ⟨name', ⟨front', behind, rfl, ?_, normal_of_sameCase hname' hname, hbehind⟩, hname'⟩
  refine hfront.imp hfront'.eq_nil_iff.2 fun hlast => ?_
  obtain ⟨front, rfl⟩ := List.getLast?_eq_some_iff.1 hlast
  obtain ⟨front', last, rfl, -, hlast⟩ := hfront'.exists_append
  rw [eq_of_marks hlast (by simp), List.getLast?_concat]

theorem HasExtension.of_sameCase {path other : Path} {extension : List UInt8} (hpath : path.HasExtension extension)
    (h : SameCase other path) : ∃ extension', other.HasExtension extension' ∧ SameCase extension' extension := by
  obtain ⟨stem, hname, hstem, hplain⟩ := hpath
  obtain ⟨name', hother, hname'⟩ := hname.of_sameCase h
  rw [← List.singleton_append] at hname'
  obtain ⟨stem', rest, rfl, hstem', hrest⟩ := hname'.exists_append
  obtain ⟨mark, extension', rfl, hmark, hextension⟩ := hrest.exists_append
  obtain rfl := eq_of_marks hmark (by simp)
  exact ⟨extension', ⟨stem', hother, fun hnil => hstem (hstem'.eq_nil_iff.1 hnil),
    fun hmem => hplain ((mark_mem_iff hextension (.inr rfl)).1 hmem)⟩, hextension⟩

end Path

namespace Classifier

/-! ## Extensions as they are written -/

/-- An extension is written behind any number of dots, in either case.  Dots alone spell nothing. -/
def Spells (written text : String) : Prop :=
  ∃ (dots : Nat) (letters : Text), written.toList = List.replicate dots '.' ++ letters ∧ letters ≠ [] ∧
    letters.head? ≠ some '.' ∧ (String.ofList letters).toLower = text.toLower

/-- An extension with more dots in front and in another case. -/
def Respells (written other : String) : Prop :=
  ∃ dots : Nat, other.toLower = (String.ofList (List.replicate dots '.') ++ written).toLower

theorem toLower_ofList (text : Text) : (String.ofList text).toLower = String.ofList (text.map Char.toLower) := by
  rw [← String.toList_inj, toList_toLower, String.toList_ofList, String.toList_ofList]

theorem exists_letters (written : String) : ∃ (dots : Nat) (letters : Text),
    written.toList = List.replicate dots '.' ++ letters ∧ letters.head? ≠ some '.' := by
  have hdots : ∀ c ∈ written.toList.takeWhile (· = '.'), c = '.' := fun c hc =>
    of_decide_eq_true (List.mem_takeWhile_imp (p := fun c => decide (c = '.')) hc)
  refine ⟨(written.toList.takeWhile (· = '.')).length, written.toList.dropWhile (· = '.'), ?_, fun h => ?_⟩
  · rw [← List.eq_replicate_of_mem hdots, List.takeWhile_append_dropWhile]
  · have hhead := List.head?_dropWhile_not (· = '.') written.toList
    rw [h] at hhead
    cases hhead

/-- **What is kept of an extension is the lower case of what stands behind the dots in front.** -/
theorem normalize_eq {written : String} {dots : Nat} {letters : Text}
    (h : written.toList = List.replicate dots '.' ++ letters) (hletters : letters.head? ≠ some '.') :
    normalize written = (String.ofList letters).toLower := by
  have hdots : ∀ c ∈ List.replicate dots '.', decide (c = '.') = true := by simp
  have hplain : letters.dropWhile (· = '.') = letters := by
    cases letters with
    | nil => rfl
    | cons c letters => exact List.dropWhile_cons_of_neg (by simpa using hletters)
  unfold normalize
  rw [h, List.dropWhile_append_of_pos hdots, hplain, toLower_ofList]

theorem spells_iff {written text : String} :
    Spells written text ↔ normalize written = text.toLower ∧ normalize written ≠ "" := by
  have hempty : ∀ {letters : Text}, (String.ofList letters).toLower = "" ↔ letters = [] := fun {letters} => by
    rw [toLower_ofList, ← String.toList_inj, String.toList_ofList]
    exact List.map_eq_nil_iff
  constructor
  · rintro ⟨dots, letters, hwritten, hne, hhead, hlower⟩
    rw [normalize_eq hwritten hhead]
    exact ⟨hlower, fun h => hne (hempty.1 h)⟩
  · rintro ⟨hlower, hne⟩
    obtain ⟨dots, letters, hwritten, hhead⟩ := exists_letters written
    rw [normalize_eq hwritten hhead] at hlower hne
    exact ⟨dots, letters, hwritten, fun h => hne (hempty.2 h), hhead, hlower⟩

theorem normalize_toLower (written : String) : normalize written.toLower = normalize written := by
  obtain ⟨dots, letters, hwritten, hhead⟩ := exists_letters written
  have hlower : written.toLower.toList = List.replicate dots '.' ++ letters.map Char.toLower := by
    rw [toList_toLower, hwritten, List.map_append, List.map_replicate]
    rfl
  have hhead' : (letters.map Char.toLower).head? ≠ some '.' := by
    rw [List.head?_map]
    intro h
    obtain ⟨c, hc, hdot⟩ := Option.map_eq_some_iff.1 h
    exact hhead (hc.trans (congrArg some ((toLower_eq_dot_iff c).1 hdot)))
  rw [normalize_eq hlower hhead', normalize_eq hwritten hhead, toLower_ofList, toLower_ofList, List.map_map]
  exact congrArg String.ofList (List.map_congr_left fun c _ => toLower_toLower c)

theorem normalize_of_respells {written other : String} (h : Respells written other) :
    normalize other = normalize written := by
  obtain ⟨more, hother⟩ := h
  obtain ⟨dots, letters, hwritten, hhead⟩ := exists_letters written
  have hdots : (String.ofList (List.replicate more '.') ++ written).toList =
      List.replicate (more + dots) '.' ++ letters := by
    rw [String.toList_append, String.toList_ofList, hwritten, ← List.append_assoc, List.replicate_append_replicate]
  rw [← normalize_toLower other, hother, normalize_toLower, normalize_eq hdots hhead, normalize_eq hwritten hhead]

theorem normalize_normalize (written : String) : normalize (normalize written) = normalize written := by
  obtain ⟨dots, letters, hwritten, hhead⟩ := exists_letters written
  have hletters : (String.ofList letters).toList = List.replicate 0 '.' ++ letters := String.toList_ofList
  rw [normalize_eq hwritten hhead, normalize_toLower, normalize_eq hletters hhead]

/-! ## Classifiers -/

theorem mem_ofExtensions {extensions : List String} {known : String} :
    known ∈ (ofExtensions extensions).extensions ↔ known ≠ "" ∧ ∃ written ∈ extensions, normalize written = known := by
  unfold ofExtensions
  simp only [List.mem_filter, List.mem_map, Bool.not_eq_true', String.isEmpty_eq_false_iff]
  exact and_comm

theorem accepts_iff {classifier : Classifier} {path : Path} :
    classifier.accepts path = true ↔ ∃ extension, path.HasExtension extension ∧
      ∃ known ∈ classifier.extensions, Utf8.encode known = extension.map lowerByte := by
  simp only [← Path.extension?_eq_some_iff]
  unfold accepts
  cases path.extension? with
  | none => simp
  | some extension => simp

theorem accepts_of_sameCase {classifier : Classifier} {path other : Path} (h : SameCase other path)
    (hpath : classifier.accepts path = true) : classifier.accepts other = true := by
  obtain ⟨extension, hextension, known, hknown, hencode⟩ := accepts_iff.1 hpath
  obtain ⟨extension', hother, hsame⟩ := hextension.of_sameCase h
  exact accepts_iff.2 ⟨extension', hother, known, hknown, hencode.trans hsame.symm⟩

theorem accepts_ofExtensions_iff {extensions : List String} {path : Path} :
    (ofExtensions extensions).accepts path = true ↔ ∃ extension text, path.HasExtension extension ∧
      Utf8.decode? extension = some text ∧ ∃ written ∈ extensions, Spells written text := by
  rw [accepts_iff]
  constructor
  · rintro ⟨extension, hpath, known, hknown, hencode⟩
    obtain ⟨hne, written, hwritten, rfl⟩ := mem_ofExtensions.1 hknown
    obtain ⟨text, htext, hlower⟩ := encode_eq_map_lowerByte_iff.1 hencode
    exact ⟨extension, text, hpath, htext, written, hwritten, spells_iff.2 ⟨hlower.symm, hne⟩⟩
  · rintro ⟨extension, text, hpath, htext, written, hwritten, hspells⟩
    obtain ⟨hlower, hne⟩ := spells_iff.1 hspells
    exact ⟨extension, hpath, normalize written, mem_ofExtensions.2 ⟨hne, written, hwritten, rfl⟩,
      encode_eq_map_lowerByte_iff.2 ⟨text, htext, hlower.symm⟩⟩

theorem accepts_congr {extensions others : List String} (h : ∀ written, written ∈ others ↔ written ∈ extensions)
    (path : Path) : (ofExtensions others).accepts path = (ofExtensions extensions).accepts path := by
  rw [Bool.eq_iff_iff, accepts_ofExtensions_iff, accepts_ofExtensions_iff]
  simp only [h]

theorem ofExtensions_of_respells {extensions others : List String} (h : List.Forall₂ Respells extensions others) :
    ofExtensions others = ofExtensions extensions := by
  have hmap : others.map normalize = extensions.map normalize := by
    induction h with
    | nil => rfl
    | cons hwritten _ ih => rw [List.map_cons, List.map_cons, normalize_of_respells hwritten, ih]
  unfold ofExtensions
  rw [hmap]

/-- **A classifier is made again from what it knows.** -/
theorem ofExtensions_extensions (extensions : List String) :
    ofExtensions (ofExtensions extensions).extensions = ofExtensions extensions := by
  have hnormal : ∀ known ∈ (ofExtensions extensions).extensions, normalize known = known := by
    intro known hknown
    obtain ⟨-, written, -, rfl⟩ := mem_ofExtensions.1 hknown
    exact normalize_normalize written
  have hmap : (ofExtensions extensions).extensions.map normalize = (ofExtensions extensions).extensions :=
    (List.map_congr_left hnormal).trans (List.map_id _)
  unfold ofExtensions at hmap ⊢
  rw [hmap, List.filter_filter]
  simp only [Bool.and_self]

theorem extensions_ofExtensions_append (extensions others : List String) :
    (ofExtensions (extensions ++ others)).extensions =
      (ofExtensions extensions).extensions ++ (ofExtensions others).extensions := by
  unfold ofExtensions
  rw [List.map_append, List.filter_append]

theorem accepts_standardAnd (extra : List String) (path : Path) :
    (standardAnd extra).accepts path = (standard.accepts path || (ofExtensions extra).accepts path) := by
  have hstandard : (ofExtensions standard.extensions).extensions = standard.extensions :=
    congrArg extensions (ofExtensions_extensions standardExtensions)
  unfold standardAnd accepts
  rw [extensions_ofExtensions_append, hstandard]
  cases path.extension? with
  | none => rfl
  | some extension => exact List.any_append

/-- **What a classifier accepts**: the paths with an extension that is text and that one of the extensions it is made
from spells.  Neither the order of these extensions, nor how often each stands there, nor dots in front of them, nor the
case of letters in them or in the path make a difference.  What a classifier knows makes the same classifier again, and
extensions beside the standard ones add what they accept alone. -/
theorem accepts_exact (extensions : List String) (path : Path) :
    ((ofExtensions extensions).accepts path = true ↔ ∃ extension text, path.HasExtension extension ∧
        Utf8.decode? extension = some text ∧ ∃ written ∈ extensions, Spells written text) ∧
      (∀ others : List String, (∀ written, written ∈ others ↔ written ∈ extensions) →
        (ofExtensions others).accepts path = (ofExtensions extensions).accepts path) ∧
      (∀ others : List String, List.Forall₂ Respells extensions others →
        (ofExtensions others).accepts path = (ofExtensions extensions).accepts path) ∧
      (∀ other : Path, SameCase other path →
        (ofExtensions extensions).accepts other = (ofExtensions extensions).accepts path) ∧
      ofExtensions (ofExtensions extensions).extensions = ofExtensions extensions ∧
      (standardAnd extensions).accepts path = (standard.accepts path || (ofExtensions extensions).accepts path) := by
  refine ⟨accepts_ofExtensions_iff, fun others h => accepts_congr h path, fun others h => ?_, fun other h => ?_,
    ofExtensions_extensions extensions, accepts_standardAnd extensions path⟩
  · rw [ofExtensions_of_respells h]
  · exact Bool.eq_iff_iff.2 ⟨accepts_of_sameCase h.symm, accepts_of_sameCase h⟩

/-- A slash behind a name does not count, and a dot in front of one does not begin an extension. -/
example : standard.accepts (Utf8.encode "Assets/Player.PREFAB/./") = true ∧
    standard.accepts (Utf8.encode "Assets/.unity") = false := by
  decide +kernel

end Classifier
end AssetIntegrity
