import AssetIntegrity.Proofs.Path.Components
import Mathlib.Data.List.TakeDrop
import Mathlib.Data.List.TakeWhile
/-!
# File names — the last name of a path and its extension

Slashes at the end of a path, and single dots between them, do not count: the last name of a path is the one in front of
them (`fileName?_eq_some_iff`).  The extension of a name is what stands behind its last dot, unless that dot is in front
(`extensionOf?_eq_some_iff`), and the extension of a path is that of its last name (`extension?_eq_some_iff`).
-/
namespace AssetIntegrity

/-- A name that is the name of something: neither nothing nor one of the two names that every directory has. -/
structure FileName.Normal (name : FileName) : Prop where
  ne_nil : name ≠ []
  ne_here : name ≠ [Path.dot]
  ne_parent : name ≠ [Path.dot, Path.dot]
  slash_notMem : Path.slash ∉ name

namespace Path

/-- A path ends in a name: only slashes, and single dots between them, are behind it. -/
def EndsIn (path : Path) (name : FileName) : Prop :=
  ∃ (front : Path) (behind : List FileName), path = front ++ (name ++ behind.flatMap (slash :: ·)) ∧
    (front = [] ∨ front.getLast? = some slash) ∧ name.Normal ∧ ∀ part ∈ behind, part = [] ∨ part = [dot]

/-- A path has an extension: its last name goes on behind its last dot, and the dot is not in front. -/
def HasExtension (path : Path) (extension : List UInt8) : Prop :=
  ∃ stem, path.EndsIn (stem ++ dot :: extension) ∧ stem ≠ [] ∧ dot ∉ extension

/-! ## Paths in parts -/

theorem slash_notMem_of_mem_splitOn : ∀ (path : Path), ∀ part ∈ path.splitOn slash, slash ∉ part
  | [], part, h => by
    rw [List.splitOn_nil, List.mem_singleton] at h
    exact h ▸ List.not_mem_nil
  | byte :: path, part, h => by
    obtain ⟨first, parts, hsplit⟩ := List.exists_cons_of_ne_nil (List.splitOn_ne_nil slash path)
    have ih := slash_notMem_of_mem_splitOn path
    rw [hsplit] at ih
    rw [List.splitOn_cons_eq_if_modifyHead, hsplit] at h
    split at h
    · rcases List.mem_cons.1 h with rfl | h
      · exact List.not_mem_nil
      · exact ih part h
    · rename_i hbyte
      rcases List.mem_cons.1 h with rfl | h
      · intro hmem
        rcases List.mem_cons.1 hmem with heq | hmem
        · exact hbyte (beq_iff_eq.2 heq.symm)
        · exact ih first List.mem_cons_self hmem
      · exact ih part (List.mem_cons_of_mem _ h)

theorem splitOn_append_flatMap : ∀ {name : FileName} {behind : List FileName}, slash ∉ name →
    (∀ part ∈ behind, slash ∉ part) → (name ++ behind.flatMap (slash :: ·)).splitOn slash = name :: behind
  | name, [], hname, _ => by rw [List.flatMap_nil, List.append_nil, List.splitOn_eq_singleton hname]
  | name, part :: behind, hname, hbehind => by
    obtain ⟨hpart, hbehind⟩ := List.forall_mem_cons.1 hbehind
    rw [List.flatMap_cons, List.cons_append, List.splitOn_append_cons_self_of_not_mem hname,
      splitOn_append_flatMap hpart hbehind]

theorem intercalate_cons : ∀ (name : FileName) (behind : List FileName),
    [slash].intercalate (name :: behind) = name ++ behind.flatMap (slash :: ·)
  | name, [] => by rw [List.intercalate_singleton, List.flatMap_nil, List.append_nil]
  | name, part :: behind => by
    rw [List.intercalate_cons_cons, intercalate_cons part behind, List.append_assoc]
    rfl

theorem intercalate_append_cons (name : FileName) (behind : List FileName) : ∀ before : List FileName,
    [slash].intercalate (before ++ name :: behind) =
      before.flatMap (· ++ [slash]) ++ (name ++ behind.flatMap (slash :: ·))
  | [] => intercalate_cons name behind
  | part :: before => by
    rw [List.cons_append, List.intercalate_cons_of_ne_nil (List.append_ne_nil_of_right_ne_nil _ (List.cons_ne_nil _ _)),
      intercalate_append_cons name behind before, List.flatMap_cons, List.append_assoc (part ++ [slash])]

theorem getLast?_flatMap_slash (before : List FileName) :
    before.flatMap (· ++ [slash]) = [] ∨ (before.flatMap (· ++ [slash])).getLast? = some slash := by
  rcases before.eq_nil_or_concat with rfl | ⟨before, part, rfl⟩
  · exact .inl rfl
  · right
    rw [List.concat_eq_append, List.flatMap_append, List.flatMap_singleton, ← List.append_assoc, List.getLast?_concat]

/-! ## The last name -/

theorem fileName?_eq_some_iff_getLast? {path : Path} {name : FileName} :
    path.fileName? = some name ↔ path.components.getLast? = some (.name name) := by
  unfold fileName?
  split
  · rename_i h
    rw [h]
    simp
  · rename_i h
    exact iff_of_false nofun (h name)

/-- A path says what its parts say, and in front of it what is special about the first part, which is not a name. -/
theorem exists_components (path : Path) : ∃ special : List Component,
    path.components = special ++ (path.splitOn slash).filterMap Component.ofName? ∧
      ∀ name, Component.name name ∉ special := by
  by_cases hpath : path = []
  · exact ⟨[], hpath ▸ rfl, fun name => List.not_mem_nil⟩
  · obtain ⟨front, names, hsplit⟩ := List.exists_cons_of_ne_nil (List.splitOn_ne_nil slash path)
    rw [components_of_splitOn hpath hsplit, hsplit]
    unfold Component.ofFront
    split
    · rename_i hfront
      exact ⟨[.root], hfront ▸ rfl, by simp⟩
    · split
      · rename_i hfront
        exact ⟨[.here], hfront ▸ rfl, by simp⟩
      · refine ⟨[], ?_, fun name => List.not_mem_nil⟩
        cases hname : Component.ofName? front with
        | none => rw [List.filterMap_cons_none hname, Option.toList_none]
        | some component => rw [List.filterMap_cons_some hname, Option.toList_some, List.singleton_append]; rfl

theorem fileName?_eq_some_iff_splitOn {path : Path} {name : FileName} :
    path.fileName? = some name ↔ ∃ before behind, path.splitOn slash = before ++ name :: behind ∧
      Component.ofName? name = some (.name name) ∧ ∀ part ∈ behind, Component.ofName? part = none := by
  obtain ⟨special, hcomponents, hspecial⟩ := path.exists_components
  have hlast : path.components.getLast? = some (.name name) ↔
      ((path.splitOn slash).filterMap Component.ofName?).getLast? = some (.name name) := by
    rw [hcomponents, List.getLast?_append]
    cases ((path.splitOn slash).filterMap Component.ofName?).getLast? with
    | some component => rfl
    | none => exact iff_of_false (fun h => hspecial name (List.mem_of_getLast? h)) nofun
  -- from behind, the name is the first part that says anything
  rw [fileName?_eq_some_iff_getLast?, hlast, List.getLast?_filterMap, List.findSome?_eq_some_iff]
  constructor
  · rintro ⟨behind, part, before, hparts, hpart, hbehind⟩
    obtain ⟨rfl, -⟩ := Component.ofName?_eq_some_name_iff.1 hpart
    refine ⟨before.reverse, behind.reverse, ?_, hpart, fun part h => hbehind part (List.mem_reverse.1 h)⟩
    rw [← List.reverse_reverse (path.splitOn slash), hparts, List.reverse_append, List.reverse_cons, List.append_assoc]
    rfl
  · rintro ⟨before, behind, hparts, hname, hbehind⟩
    refine ⟨behind.reverse, name, before.reverse, ?_, hname, fun part h => hbehind part (List.mem_reverse.1 h)⟩
    rw [hparts, List.reverse_append, List.reverse_cons, List.append_assoc]
    rfl

/-- **The last name of a path is the name in which it ends.** -/
theorem fileName?_eq_some_iff {path : Path} {name : FileName} : path.fileName? = some name ↔ path.EndsIn name := by
  rw [fileName?_eq_some_iff_splitOn]
  constructor
  · rintro ⟨before, behind, hparts, hname, hbehind⟩
    obtain ⟨-, hnil, hhere, hparent⟩ := Component.ofName?_eq_some_name_iff.1 hname
    have hslash : slash ∉ name :=
      slash_notMem_of_mem_splitOn path name (hparts ▸ List.mem_append_right before List.mem_cons_self)
    refine ⟨before.flatMap (· ++ [slash]), behind, ?_, getLast?_flatMap_slash before, ⟨hnil, hhere, hparent, hslash⟩,
      fun part hpart => Component.ofName?_eq_none_iff.1 (hbehind part hpart)⟩
    rw [← intercalate_append_cons, ← hparts, List.intercalate_splitOn]
  · rintro ⟨front, behind, rfl, hfront, hname, hbehind⟩
    have hslash : ∀ part ∈ behind, slash ∉ part := by
      intro part hpart
      rcases hbehind part hpart with rfl | rfl <;> decide
    have hparts := splitOn_append_flatMap hname.slash_notMem hslash
    obtain ⟨before, hsplit⟩ : ∃ before,
        (front ++ (name ++ behind.flatMap (slash :: ·))).splitOn slash = before ++ name :: behind := by
      rcases hfront with rfl | hfront
      · exact ⟨[], hparts⟩
      · obtain ⟨front, rfl⟩ := List.getLast?_eq_some_iff.1 hfront
        refine ⟨front.splitOn slash, ?_⟩
        rw [List.append_assoc, List.singleton_append, List.splitOn_append_cons_self, hparts]
    exact ⟨before, behind, hsplit,
      Component.ofName?_eq_some_name_iff.2 ⟨rfl, hname.ne_nil, hname.ne_here, hname.ne_parent⟩,
      fun part hpart => Component.ofName?_eq_none_iff.2 (hbehind part hpart)⟩

/-! ## Extensions -/

theorem extensionOf?_append (stem : List UInt8) {extension : List UInt8} (h : dot ∉ extension) :
    extensionOf? (stem ++ dot :: extension) = if stem = [] then none else some extension := by
  have hplain : ∀ byte ∈ extension.reverse, decide (byte ≠ dot) = true :=
    fun byte hbyte => decide_eq_true fun heq => h (heq ▸ List.mem_reverse.1 hbyte)
  have hspan : (stem ++ dot :: extension).reverse.span (· ≠ dot) = (extension.reverse, dot :: stem.reverse) := by
    rw [List.span_eq_takeWhile_dropWhile, List.reverse_append, List.reverse_cons, List.append_assoc,
      List.takeWhile_append_of_pos hplain, List.dropWhile_append_of_pos hplain, List.singleton_append,
      List.takeWhile_cons_of_neg (by simp), List.dropWhile_cons_of_neg (by simp), List.append_nil]
  unfold extensionOf?
  rw [hspan]
  rcases stem.eq_nil_or_concat with rfl | ⟨stem, byte, rfl⟩
  · rfl
  · have hstem : stem ++ [byte] ≠ [] := by simp
    rw [List.concat_eq_append, List.reverse_append, if_neg hstem]
    exact congrArg some (List.reverse_reverse extension)

theorem extensionOf?_of_notMem {name : FileName} (h : dot ∉ name) : extensionOf? name = none := by
  have hplain : ∀ byte ∈ name.reverse, decide (byte ≠ dot) = true :=
    fun byte hbyte => decide_eq_true fun heq => h (heq ▸ List.mem_reverse.1 hbyte)
  unfold extensionOf?
  rw [List.span_eq_takeWhile_dropWhile, List.dropWhile_eq_nil_iff.2 hplain]

/-- **The extension of a name is what stands behind its last dot**, when something is in front of the dot. -/
theorem extensionOf?_eq_some_iff {name : FileName} {extension : List UInt8} :
    extensionOf? name = some extension ↔
      ∃ stem, name = stem ++ dot :: extension ∧ stem ≠ [] ∧ dot ∉ extension := by
  constructor
  · intro h
    have hdot : dot ∈ name := by
      by_contra hdot
      rw [extensionOf?_of_notMem hdot] at h
      cases h
    obtain ⟨reversed, front, hname, hreversed⟩ := List.eq_append_cons_of_mem (List.mem_reverse.2 hdot)
    have heq : name = front.reverse ++ dot :: reversed.reverse := by
      rw [← List.reverse_reverse name, hname, List.reverse_append, List.reverse_cons, List.append_assoc]
      rfl
    have hplain : dot ∉ reversed.reverse := fun hmem => hreversed (List.mem_reverse.1 hmem)
    rw [heq, extensionOf?_append _ hplain] at h
    split at h
    · cases h
    · rename_i hstem
      cases h
      exact ⟨front.reverse, heq, hstem, hplain⟩
  · rintro ⟨stem, rfl, hstem, hextension⟩
    rw [extensionOf?_append stem hextension, if_neg hstem]

theorem extension?_eq_some_iff {path : Path} {extension : List UInt8} :
    path.extension? = some extension ↔ path.HasExtension extension := by
  unfold extension?
  rw [Option.bind_eq_some_iff]
  constructor
  · rintro ⟨name, hname, hextension⟩
    obtain ⟨stem, rfl, hstem, hplain⟩ := extensionOf?_eq_some_iff.1 hextension
    exact ⟨stem, fileName?_eq_some_iff.1 hname, hstem, hplain⟩
  · rintro ⟨stem, hname, hstem, hplain⟩
    exact ⟨_, fileName?_eq_some_iff.2 hname, extensionOf?_eq_some_iff.2 ⟨stem, rfl, hstem, hplain⟩⟩

end Path
end AssetIntegrity
