import AssetIntegrity.Proofs.Disk.Resolution
import Mathlib.Data.List.Perm.Basic
/-!
# Reordering — directories that list their entries in another order

A system lists the entries of a directory in an order of its own.  Trees that differ in these orders only
(`Node.Reordered`) hold the same things in the same places (`Node.Reordered.at?`), and every path leads to the same
place or fails for the same reason (`Disk.resolve_reordered`).
-/
namespace AssetIntegrity
namespace Node

/-- **The same files in the same directories**, where each directory may list its entries in any order. -/
inductive Reordered : Node → Node → Prop where
  | file (content : ByteArray) : Reordered (.file content) (.file content)
  | special (reading : Except Fault ByteArray) : Reordered (.special reading) (.special reading)
  | directory {a b : List (FileName × Node)} (names : (a.map Prod.fst).Perm (b.map Prod.fst))
      (below : ∀ name x y, (name, x) ∈ a → (name, y) ∈ b → Reordered x y) : Reordered (.directory a) (.directory b)

namespace Reordered

theorem symm {a b : Node} (h : Reordered a b) : Reordered b a := by
  induction h with
  | file content => exact .file content
  | special reading => exact .special reading
  | directory names _ ih => exact .directory names.symm fun name x y hx hy => ih name y x hy hx

/-- An entry of one directory stands in the other as well. -/
theorem exists_entry {a b : List (FileName × Node)} (names : (a.map Prod.fst).Perm (b.map Prod.fst)) {name : FileName}
    {x : Node} (h : (name, x) ∈ a) : ∃ y, (name, y) ∈ b := by
  have hname : name ∈ b.map Prod.fst := names.mem_iff.1 (List.mem_map_of_mem h)
  obtain ⟨⟨_, y⟩, hy, rfl⟩ := List.mem_map.1 hname
  exact ⟨y, hy⟩

theorem wellFormed {a b : Node} (h : Reordered a b) (ha : a.WellFormed) : b.WellFormed := by
  induction h with
  | file content => exact .file content
  | special reading => exact .special reading
  | @directory a b names _ ih =>
    obtain ⟨hnodup, hvalid⟩ := ha.names
    cases ha with
    | directory _ _ hbelow =>
      refine .directory (names.nodup_iff.1 hnodup) ?_ ?_
      · rintro ⟨name, y⟩ hy
        obtain ⟨x, hx⟩ := exists_entry names.symm hy
        exact hvalid (name, x) hx
      · rintro ⟨name, y⟩ hy
        obtain ⟨x, hx⟩ := exists_entry names.symm hy
        exact ih name x y hx hy (hbelow _ hx)

/-- **What stands at a place** stands there in the other order as well. -/
theorem at? : ∀ {names : List FileName} {a b x : Node}, Reordered a b → a.WellFormed → a.at? names = some x →
    ∃ y, b.at? names = some y ∧ Reordered x y
  | [], _, b, _, h, _, hat => ⟨b, rfl, Option.some.inj hat ▸ h⟩
  | name :: names, .file _, _, _, _, _, hat | name :: names, .special _, _, _, _, _, hat => by cases hat
  | name :: names, .directory _, .directory _, x, h, ha, hat => by
    obtain ⟨hnodup, -⟩ := ha.names
    obtain ⟨hnodup', -⟩ := (h.wellFormed ha).names
    obtain ⟨child, hchild, hbelow⟩ := Option.bind_eq_some_iff.1 hat
    have hentry := (Table.lookup_eq_some_iff_mem hnodup).1 hchild
    cases h with
    | directory hnames hchildren =>
      obtain ⟨child', hentry'⟩ := exists_entry hnames hentry
      have hwell : child.WellFormed := by
        cases ha with
        | directory _ _ hbelow => exact hbelow _ hentry
      obtain ⟨y, hy, hxy⟩ := (hchildren name child child' hentry hentry').at? hwell hbelow
      refine ⟨y, ?_, hxy⟩
      rw [Node.at?, child?, (Table.lookup_eq_some_iff_mem hnodup').2 hentry']
      exact hy

theorem at?_eq_none {a b : Node} (h : Reordered a b) (ha : a.WellFormed) {names : List FileName}
    (hat : a.at? names = none) : b.at? names = none := by
  rw [Option.eq_none_iff_forall_ne_some]
  intro y hy
  obtain ⟨x, hx, -⟩ := h.symm.at? (h.wellFormed ha) hy
  rw [hat] at hx
  cases hx

theorem isSome_lookup {a b : List (FileName × Node)} (names : (a.map Prod.fst).Perm (b.map Prod.fst))
    (name : FileName) : (a.lookup name).isSome = (b.lookup name).isSome := by
  have hlisted : ∀ entries : List (FileName × Node),
      (entries.lookup name).isSome = true ↔ name ∈ entries.map Prod.fst :=
    fun entries => by simp [List.lookup_isSome_iff]
  rw [Bool.eq_iff_iff, hlisted, hlisted, names.mem_iff]

theorem refl {node : Node} (h : node.WellFormed) : Reordered node node := by
  induction h with
  | file content => exact .file content
  | special reading => exact .special reading
  | directory nodup _ _ ih =>
    refine .directory (.refl _) fun name x y hx hy => ?_
    have hlookup := (Table.lookup_eq_some_iff_mem nodup).2 hx
    rw [(Table.lookup_eq_some_iff_mem nodup).2 hy, Option.some.injEq] at hlookup
    exact hlookup ▸ ih _ hy

/-- One directory lists its entries in another order. -/
theorem of_perm {a b : List (FileName × Node)} (ha : WellFormed (.directory a)) (h : a.Perm b) :
    Reordered (.directory a) (.directory b) := by
  cases refl ha with
  | directory _ below => exact .directory (h.map Prod.fst) fun name x y hx hy => below name x y hx (h.mem_iff.2 hy)

end Reordered
end Node

namespace Disk

variable {root root' : Node}

/-! ## Paths on a reordered disk -/

theorem next_reordered (h : root.Reordered root') (hroot : root.WellFormed) (place : List FileName) (name : FileName) :
    next root' place name = next root place name := by
  unfold next
  cases hat : root.at? place with
  | none => rw [h.at?_eq_none hroot hat]
  | some x =>
    obtain ⟨y, hy, hxy⟩ := h.at? hroot hat
    rw [hy]
    cases hxy with
    | file _ | special _ => rfl
    | directory names _ => simp only [Node.Reordered.isSome_lookup names name]

/-- **A walk ends at the same place**, or is refused for the same reason. -/
theorem walk_reordered (h : root.Reordered root') (hroot : root.WellFormed) : ∀ names place : List FileName,
    (∃ x y, walk root place names = .ok x ∧ walk root' place names = .ok y ∧ x.Reordered y) ∨
      ∃ fault, walk root place names = .error fault ∧ walk root' place names = .error fault
  | [], place => by
    rw [walk_nil, walk_nil]
    cases hat : root.at? place with
    | none =>
      rw [h.at?_eq_none hroot hat]
      exact .inr ⟨_, rfl, rfl⟩
    | some x =>
      obtain ⟨y, hy, hxy⟩ := h.at? hroot hat
      rw [hy]
      exact .inl ⟨x, y, rfl, rfl, hxy⟩
  | name :: names, place => by
    rw [walk_cons, walk_cons, next_reordered h hroot]
    cases next root place name with
    | error fault => exact .inr ⟨fault, rfl, rfl⟩
    | ok there => exact walk_reordered h hroot names there

/-- **A path leads to the same place**, or is refused for the same reason. -/
theorem resolve_reordered {disk : Disk} (h : disk.root.Reordered root') (hdisk : disk.root.WellFormed) (path : Path) :
    (∃ x y, disk.resolve path = .ok x ∧ ({ disk with root := root' } : Disk).resolve path = .ok y ∧ x.Reordered y) ∨
      ∃ fault, disk.resolve path = .error fault ∧ ({ disk with root := root' } : Disk).resolve path = .error fault := by
  unfold resolve
  split
  · exact .inr ⟨_, rfl, rfl⟩
  · split
    · exact .inr ⟨_, rfl, rfl⟩
    · split
      · exact .inr ⟨_, rfl, rfl⟩
      · exact walk_reordered h hdisk _ _

end Disk
end AssetIntegrity
