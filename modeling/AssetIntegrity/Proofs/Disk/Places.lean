import AssetIntegrity.Proofs.Disk.Reordering
import AssetIntegrity.Proofs.Path.Components
/-!
# Places — the names that lead to an asset

Names lead from a root to an asset when there is a file, none of the directories on the way is generated, and the path
is accepted and short enough for the system (`Node.LeadsToAsset`).  They lead through one entry of the root or another
(`LeadsToAsset.cons_iff`), and in a tree whose directories list their entries in another order they lead there as well
(`LeadsToAsset.reordered`).
-/
namespace AssetIntegrity

variable {classifier : Classifier}

namespace Node

/-! ## Places below a directory -/

theorem wellFormed_of_cons {name : FileName} {node : Node} {rest : List (FileName × Node)}
    (h : WellFormed (.directory ((name, node) :: rest))) :
    name ∉ rest.map Prod.fst ∧ name.Valid ∧ node.WellFormed ∧ WellFormed (.directory rest) := by
  cases h with
  | directory nodup valid below =>
    rw [List.map_cons, List.nodup_cons] at nodup
    obtain ⟨hname, hvalid⟩ := List.forall_mem_cons.1 valid
    obtain ⟨hnode, hbelow⟩ := List.forall_mem_cons.1 below
    exact ⟨nodup.1, hname, hnode, .directory nodup.2 hvalid hbelow⟩

theorem at?_directory_cons (name first : FileName) (node : Node) (rest : List (FileName × Node))
    (names : List FileName) :
    (directory ((name, node) :: rest)).at? (first :: names) =
      if first = name then node.at? names else (directory rest).at? (first :: names) := by
  rw [Node.at?, Node.at?, child?, child?, List.lookup_cons]
  by_cases h : first = name
  · rw [if_pos h, h, beq_self_eq_true]
    rfl
  · rw [if_neg h, beq_false_of_ne h]

/-- The first name of a place below a directory is that of an entry. -/
theorem mem_names_of_at? {entries : List (FileName × Node)} {first : FileName} {names : List FileName} {x : Node}
    (h : (directory entries).at? (first :: names) = some x) : first ∈ entries.map Prod.fst := by
  obtain ⟨child, hchild, -⟩ := Option.bind_eq_some_iff.1 h
  obtain ⟨entry, hentry, heq⟩ := List.lookup_isSome_iff.1 (Option.isSome_of_eq_some hchild)
  exact List.mem_map.2 ⟨entry, hentry, (eq_of_beq heq).symm⟩

theorem WellFormed.valid_of_at? : ∀ {names : List FileName} {node x : Node}, node.WellFormed →
    node.at? names = some x → ∀ name ∈ names, FileName.Valid name
  | [], _, _, _, _ => nofun
  | name :: names, .file _, _, _, h | name :: names, .special _, _, _, h => by cases h
  | name :: names, .directory entries, x, hnode, h => by
    obtain ⟨child, hchild, hat⟩ := Option.bind_eq_some_iff.1 h
    obtain ⟨hnodup, hvalid⟩ := hnode.names
    have hentry : (name, child) ∈ entries := (Table.lookup_eq_some_iff_mem hnodup).1 hchild
    have hwell : child.WellFormed := by
      cases hnode with
      | directory _ _ below => exact below _ hentry
    exact List.forall_mem_cons.2 ⟨hvalid _ hentry, hwell.valid_of_at? hat⟩

/-! ## What a search finds -/

/-- **Names that lead from a root to an asset**: there is a file, none of the directories on the way is generated, and
its path is accepted and fits. -/
structure LeadsToAsset (classifier : Classifier) (root : Path) (node : Node) (names : List FileName) : Prop where
  file : ∃ content, node.at? names = some (.file content)
  entered : ∀ name ∈ names.dropLast, isGenerated name = false
  accepted : classifier.accepts (root.descend names) = true
  fits : (root.descend names).fits = true

namespace LeadsToAsset

variable {root : Path} {name : FileName} {node : Node} {rest : List (FileName × Node)} {names : List FileName}

theorem ne_nil {entries : List (FileName × Node)} (h : LeadsToAsset classifier root (.directory entries) names) :
    names ≠ [] := by
  rintro rfl
  obtain ⟨content, hfile⟩ := h.file
  cases hfile

theorem not_of_empty : ¬ LeadsToAsset classifier root (.directory []) names := by
  intro h
  obtain ⟨content, hfile⟩ := h.file
  cases names with
  | nil => cases hfile
  | cons first more => cases hfile

/-- From a file no names lead on. -/
theorem file_iff {content : ByteArray} :
    LeadsToAsset classifier root (.file content) names ↔
      names = [] ∧ (root.fits && classifier.accepts root) = true := by
  constructor
  · rintro ⟨⟨_, hfile⟩, -, haccepted, hfits⟩
    cases names with
    | nil => exact ⟨rfl, Bool.and_eq_true_iff.2 ⟨hfits, haccepted⟩⟩
    | cons first more => cases hfile
  · rintro ⟨rfl, htaken⟩
    obtain ⟨hfits, haccepted⟩ := Bool.and_eq_true_iff.1 htaken
    exact ⟨⟨content, rfl⟩, nofun, haccepted, hfits⟩

/-- From anything else that is no directory no names lead on either. -/
theorem not_of_special {reading : Except Fault ByteArray} :
    ¬ LeadsToAsset classifier root (.special reading) names := by
  intro h
  obtain ⟨content, hfile⟩ := h.file
  cases names with
  | nil => cases hfile
  | cons first more => cases hfile

/-- **Through the first entry**: a directory that names go on behind is entered, and must not be generated. -/
theorem cons_self_iff :
    LeadsToAsset classifier root (.directory ((name, node) :: rest)) (name :: names) ↔
      LeadsToAsset classifier (root.join name) node names ∧ (names ≠ [] → isGenerated name = false) := by
  have hat : (Node.directory ((name, node) :: rest)).at? (name :: names) = node.at? names := by
    rw [at?_directory_cons, if_pos rfl]
  have hentered : (∀ n ∈ (name :: names).dropLast, isGenerated n = false) ↔
      (∀ n ∈ names.dropLast, isGenerated n = false) ∧ (names ≠ [] → isGenerated name = false) := by
    cases names with
    | nil => exact iff_of_true nofun ⟨nofun, fun h => absurd rfl h⟩
    | cons first more =>
      rw [List.dropLast_cons_cons, List.forall_mem_cons, and_comm]
      exact and_congr_right fun _ => ⟨fun h _ => h, fun h => h (List.cons_ne_nil _ _)⟩
  constructor
  · rintro ⟨hfile, hnames, haccepted, hfits⟩
    exact ⟨⟨hat ▸ hfile, (hentered.1 hnames).1, haccepted, hfits⟩, (hentered.1 hnames).2⟩
  · rintro ⟨⟨hfile, hnames, haccepted, hfits⟩, hname⟩
    exact ⟨hat.symm ▸ hfile, hentered.2 ⟨hnames, hname⟩, haccepted, hfits⟩

/-- **Through another entry.** -/
theorem cons_of_ne_iff {first : FileName} (h : first ≠ name) :
    LeadsToAsset classifier root (.directory ((name, node) :: rest)) (first :: names) ↔
      LeadsToAsset classifier root (.directory rest) (first :: names) := by
  have hat : (Node.directory ((name, node) :: rest)).at? (first :: names) =
      (Node.directory rest).at? (first :: names) := by
    rw [at?_directory_cons, if_neg h]
  constructor
  · rintro ⟨hfile, hentered, haccepted, hfits⟩
    exact ⟨hat ▸ hfile, hentered, haccepted, hfits⟩
  · rintro ⟨hfile, hentered, haccepted, hfits⟩
    exact ⟨hat.symm ▸ hfile, hentered, haccepted, hfits⟩

/-- **Names lead through the first entry or through one of the others.** -/
theorem cons_iff (hname : name ∉ rest.map Prod.fst) :
    LeadsToAsset classifier root (.directory ((name, node) :: rest)) names ↔
      (∃ more, names = name :: more ∧ LeadsToAsset classifier (root.join name) node more ∧
        (more ≠ [] → isGenerated name = false)) ∨
      LeadsToAsset classifier root (.directory rest) names := by
  constructor
  · intro h
    obtain ⟨first, more, rfl⟩ := List.exists_cons_of_ne_nil h.ne_nil
    by_cases hfirst : first = name
    · subst hfirst
      exact .inl ⟨more, rfl, cons_self_iff.1 h⟩
    · exact .inr ((cons_of_ne_iff hfirst).1 h)
  · rintro (⟨more, rfl, h⟩ | h)
    · exact cons_self_iff.2 h
    · obtain ⟨first, more, rfl⟩ := List.exists_cons_of_ne_nil h.ne_nil
      obtain ⟨content, hfile⟩ := h.file
      have hfirst : first ≠ name := fun heq => hname (heq ▸ mem_names_of_at? hfile)
      exact (cons_of_ne_iff hfirst).2 h

/-- A reordered tree has the same assets. -/
theorem reordered {other : Node} (hnode : node.WellFormed) (h : node.Reordered other)
    (hleads : LeadsToAsset classifier root node names) : LeadsToAsset classifier root other names := by
  obtain ⟨⟨content, hfile⟩, hentered, haccepted, hfits⟩ := hleads
  obtain ⟨y, hy, hreordered⟩ := h.at? hnode hfile
  cases hreordered with
  | file _ => exact ⟨⟨content, hy⟩, hentered, haccepted, hfits⟩

end LeadsToAsset
end Node

end AssetIntegrity
