import AssetIntegrity.Path.Basic
import Mathlib.Data.List.Lex
/-!
# Order — paths component by component

Paths are compared by their components, components by their kind and then by their bytes.  Both are strict total orders
(`Component.Before`, `Path.Before`), so a list of paths with different components has one sorted form
(`pairwise_before_sort`, `eq_of_pairwise_before`).
-/
namespace AssetIntegrity
namespace Path

/-! ## Components -/

/-- The order of components, as a relation. -/
def Component.Before (a b : Component) : Prop := a.lt b = true

theorem Component.before_iff {a b : Component} :
    a.Before b ↔ a.rank < b.rank ∨ a.rank = b.rank ∧ a.bytes < b.bytes := by
  unfold Component.Before Component.lt
  simp only [Bool.or_eq_true, Bool.and_eq_true, decide_eq_true_eq, List.lex_eq_true_iff_lt]

theorem Component.ext_rank {a b : Component} (hrank : a.rank = b.rank) (hbytes : a.bytes = b.bytes) : a = b := by
  cases a with
  | name a =>
    cases b with
    | name b => exact congrArg Component.name hbytes
    | _ => cases hrank
  | _ => cases b <;> first | rfl | cases hrank

instance : IsStrictTotalOrder Component Component.Before where
  trichotomous a b hab hba := by
    rw [Component.before_iff, not_or, not_and] at hab hba
    have hrank : a.rank = b.rank := Nat.le_antisymm (Nat.not_lt.1 hba.1) (Nat.not_lt.1 hab.1)
    exact Component.ext_rank hrank (Std.Trichotomous.trichotomous _ _ (hab.2 hrank) (hba.2 hrank.symm))
  irrefl a h := by
    rw [Component.before_iff] at h
    exact h.elim (Nat.lt_irrefl _) fun h => List.lt_irrefl _ h.2
  trans a b c hab hbc := by
    rw [Component.before_iff] at hab hbc ⊢
    rcases hab with hab | ⟨hab, hbytes⟩
    · exact .inl (hbc.elim hab.trans fun h => h.1 ▸ hab)
    · rcases hbc with hbc | ⟨hbc, hbytes'⟩
      · exact .inl (hab ▸ hbc)
      · exact .inr ⟨hab.trans hbc, List.lt_trans hbytes hbytes'⟩

theorem Component.name_before_iff {a b : FileName} : (Component.name a).Before (.name b) ↔ a < b := by
  rw [Component.before_iff]
  exact ⟨fun h => h.elim (fun h => absurd h (Nat.lt_irrefl _)) And.right, fun h => .inr ⟨rfl, h⟩⟩

/-! ## Paths -/

/-- The order of paths, as a relation. -/
def Before (a b : Path) : Prop := a.lt b = true

theorem before_iff {a b : Path} : a.Before b ↔ List.Lex Component.Before a.components b.components := by
  unfold Before lt
  rw [List.lex_eq_true_iff_lex]
  rfl

theorem Before.asymm {a b : Path} (h : a.Before b) : ¬ b.Before a := by
  rw [before_iff] at h ⊢
  exact asymm_of _ h

/-- What comes before a path comes before any other path, or that path comes before it. -/
theorem Before.before_or_before {a c : Path} (h : a.Before c) (b : Path) : a.Before b ∨ b.Before c := by
  rw [before_iff] at h ⊢
  rw [before_iff]
  exact IsOrderConnected.conn _ _ _ h

theorem before_or_before_of_ne {a b : Path} (h : a.components ≠ b.components) : a.Before b ∨ b.Before a := by
  rw [before_iff, before_iff]
  by_contra hneither
  rw [not_or] at hneither
  exact h (Std.Trichotomous.trichotomous _ _ hneither.1 hneither.2)

theorem lex_append_iff (front : List Component) {a b : List Component} :
    List.Lex Component.Before (front ++ a) (front ++ b) ↔ List.Lex Component.Before a b := by
  induction front with
  | nil => rfl
  | cons c front ih => rw [List.cons_append, List.cons_append, List.lex_cons_iff, ih]

theorem lex_map_name_iff : ∀ {a b : List FileName},
    List.Lex Component.Before (a.map .name) (b.map .name) ↔ a < b
  | [], [] => iff_of_false (List.lex_irrefl (irrefl_of _) _) (List.lt_irrefl _)
  | [], _ :: _ => iff_of_true .nil .nil
  | _ :: _, [] => iff_of_false nofun nofun
  | x :: a, y :: b => by
    rw [List.map_cons, List.map_cons, List.cons_lex_cons_iff, Component.name_before_iff, Component.name.injEq,
      lex_map_name_iff, List.cons_lt_cons_iff]

/-! ## Sorted paths -/

/-- **Sorting puts paths in strict order**, when they differ in their components. -/
theorem pairwise_before_sort {paths : List Path} (h : (paths.map components).Nodup) :
    (sort paths).Pairwise Before := by
  have hsorted : (sort paths).Pairwise fun a b => (!lt b a) = true := by
    refine List.pairwise_mergeSort (fun a b c hab hbc => ?_) (fun a b => ?_) paths
    · rw [Bool.not_eq_true'] at hab hbc ⊢
      exact Bool.eq_false_iff.2 fun hca =>
        (Before.before_or_before hca b).elim (Bool.eq_false_iff.1 hbc) (Bool.eq_false_iff.1 hab)
    · rw [Bool.or_eq_true, Bool.not_eq_true', Bool.not_eq_true', Bool.eq_false_iff, Bool.eq_false_iff]
      exact not_and_or.1 fun hboth => Before.asymm hboth.1 hboth.2
  have hdistinct : (sort paths).Pairwise fun a b => a.components ≠ b.components :=
    List.pairwise_map.1 (((List.mergeSort_perm paths _).map components).nodup_iff.2 h)
  refine (hsorted.and hdistinct).imp fun {a b} hab => ?_
  rw [Bool.not_eq_true'] at hab
  exact (before_or_before_of_ne hab.2).resolve_right (Bool.eq_false_iff.1 hab.1)

/-- **A set of paths has one sorted form.** -/
theorem eq_of_pairwise_before {a b : List Path} (ha : a.Pairwise Before) (hb : b.Pairwise Before)
    (h : ∀ path, path ∈ a ↔ path ∈ b) : a = b := by
  have hnodup : ∀ {paths : List Path}, paths.Pairwise Before → paths.Nodup := by
    intro paths hpaths
    refine hpaths.imp ?_
    rintro a _ hlt rfl
    exact hlt.asymm hlt
  refine List.Perm.eq_of_pairwise (fun _ _ _ _ hlt hgt => absurd hgt hlt.asymm) ha hb ?_
  exact (List.perm_ext_iff_of_nodup (hnodup ha) (hnodup hb)).2 h

end Path
end AssetIntegrity
