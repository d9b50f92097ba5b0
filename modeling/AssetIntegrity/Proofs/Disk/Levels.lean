import AssetIntegrity.Proofs.Disk.Collection
import AssetIntegrity.Proofs.Disk.Places
/-!
# Levels — how far down a search can go

A search enters the directories that names lead to when none of the names is generated and the path fits
(`Node.LeadsInto`).  When it can go down far enough for all of them, it finds the assets at any depth.  Otherwise it
fails at one that is too deep, and what it has found until then is not told (`traverse_ends`).
-/
namespace AssetIntegrity

variable {classifier : Classifier} {levels : Option Nat} {depth : Nat} {directory : Path}

theorem Path.fits_of_descend {root : Path} {names : List FileName} (h : (root.descend names).fits = true) :
    root.fits = true :=
  decide_eq_true (Nat.lt_of_le_of_lt (Path.length_le_descend names root) (of_decide_eq_true h))

namespace Node

/-- **Names that lead from a root into a directory**: none of them is generated, and the path fits. -/
structure LeadsInto (root : Path) (entries : List (FileName × Node)) (names : List FileName) : Prop where
  directory : ∃ inner, (Node.directory entries).at? names = some (.directory inner)
  entered : ∀ name ∈ names, isGenerated name = false
  fits : (root.descend names).fits = true

theorem exists_entries_of_at? : ∀ {node : Node} {names : List FileName} {inner : List (FileName × Node)},
    node.at? names = some (.directory inner) → ∃ entries, node = .directory entries
  | .directory entries, _, _, _ => ⟨entries, rfl⟩
  | .file _, [], _, h | .file _, _ :: _, _, h | .special _, [], _, h | .special _, _ :: _, _, h => by cases h

namespace LeadsInto

variable {root : Path} {name : FileName} {node : Node} {rest : List (FileName × Node)} {names : List FileName}

theorem nil_iff {entries : List (FileName × Node)} : LeadsInto root entries [] ↔ root.fits = true :=
  ⟨fun h => h.fits, fun h => ⟨⟨entries, rfl⟩, nofun, h⟩⟩

/-- **Through the first entry**, which has to be a directory. -/
theorem cons_self_iff : LeadsInto root ((name, node) :: rest) (name :: names) ↔
    ∃ inner, node = .directory inner ∧ isGenerated name = false ∧ LeadsInto (root.join name) inner names := by
  constructor
  · rintro ⟨⟨inner, hat⟩, hentered, hfits⟩
    rw [at?_directory_cons, if_pos rfl] at hat
    obtain ⟨entries, rfl⟩ := exists_entries_of_at? hat
    obtain ⟨hname, hnames⟩ := List.forall_mem_cons.1 hentered
    exact ⟨entries, rfl, hname, ⟨⟨inner, hat⟩, hnames, hfits⟩⟩
  · rintro ⟨entries, rfl, hname, ⟨⟨inner, hat⟩, hnames, hfits⟩⟩
    refine ⟨⟨inner, ?_⟩, List.forall_mem_cons.2 ⟨hname, hnames⟩, hfits⟩
    rw [at?_directory_cons, if_pos rfl, hat]

/-- **Through another entry.** -/
theorem cons_of_ne_iff {first : FileName} (h : first ≠ name) :
    LeadsInto root ((name, node) :: rest) (first :: names) ↔ LeadsInto root rest (first :: names) := by
  have hat : (Node.directory ((name, node) :: rest)).at? (first :: names) =
      (Node.directory rest).at? (first :: names) := by
    rw [at?_directory_cons, if_neg h]
  constructor
  · rintro ⟨hinner, hentered, hfits⟩
    exact ⟨hat ▸ hinner, hentered, hfits⟩
  · rintro ⟨hinner, hentered, hfits⟩
    exact ⟨hat.symm ▸ hinner, hentered, hfits⟩

/-- **Names lead through the first entry or through one of the others.** -/
theorem cons_iff (hname : name ∉ rest.map Prod.fst) :
    LeadsInto root ((name, node) :: rest) names ↔ LeadsInto root [(name, node)] names ∨ LeadsInto root rest names := by
  cases names with
  | nil => rw [nil_iff, nil_iff, nil_iff, or_self]
  | cons first more =>
    by_cases hfirst : first = name
    · subst hfirst
      rw [cons_self_iff, cons_self_iff]
      refine (or_iff_left ?_).symm
      rintro ⟨⟨inner, hat⟩, -, -⟩
      exact hname (mem_names_of_at? hat)
    · rw [cons_of_ne_iff hfirst]
      refine (or_iff_right ?_).symm
      rintro ⟨⟨inner, hat⟩, -, -⟩
      exact hfirst (List.mem_singleton.1 (mem_names_of_at? hat))

/-- **Through the only entry.** -/
theorem singleton_iff {first : FileName} : LeadsInto root [(name, node)] (first :: names) ↔
    first = name ∧ ∃ inner, node = .directory inner ∧ isGenerated name = false ∧
      LeadsInto (root.join name) inner names := by
  by_cases hfirst : first = name
  · rw [hfirst, cons_self_iff, and_iff_right rfl]
  · rw [cons_of_ne_iff hfirst]
    refine iff_of_false ?_ fun h => hfirst h.1
    rintro ⟨⟨inner, hat⟩, -, -⟩
    cases hat

/-- In a reordered directory names lead into the same directories. -/
theorem reordered {entries others : List (FileName × Node)} (hentries : WellFormed (.directory entries))
    (h : Reordered (.directory entries) (.directory others)) (hleads : LeadsInto root entries names) :
    LeadsInto root others names := by
  obtain ⟨⟨inner, hat⟩, hentered, hfits⟩ := hleads
  obtain ⟨y, hy, hreordered⟩ := h.at? hentries hat
  cases hreordered with
  | directory _ _ => exact ⟨⟨_, hy⟩, hentered, hfits⟩

end LeadsInto
end Node

open Node

/-! ## How a search ends -/

/-- **A search ends in one of two ways.**  It has found the assets at any depth, and no directory was too deep; or one
was, and the failure names it. -/
def Ends (classifier : Classifier) (levels : Option Nat) (depth : Nat) (directory : Path)
    (entries : List (FileName × Node)) : Prop :=
  (traverse classifier levels depth directory entries = .ok (assetsIn classifier directory entries) ∧
    ∀ names, LeadsInto directory entries names → levels.any (· < depth + names.length) = false) ∨
  ∃ names, LeadsInto directory entries names ∧ levels.any (· < depth + names.length) = true ∧
    traverse classifier levels depth directory entries = .error (.reading (directory.descend names) .tooManyOpen)

theorem assetsIn_cons (root : Path) (entry : FileName × Node) (rest : List (FileName × Node)) :
    assetsIn classifier root (entry :: rest) = assetsIn classifier root [entry] ++ assetsIn classifier root rest := by
  obtain ⟨name, node⟩ := entry
  cases node <;> simp only [assetsIn, List.append_nil, List.nil_append]

/-- **A search goes through the entries one by one.** -/
theorem traverse_cons (entry : FileName × Node) (rest : List (FileName × Node)) :
    traverse classifier levels depth directory (entry :: rest) =
      (traverse classifier levels depth directory [entry]).bind fun found =>
        (traverse classifier levels depth directory rest).map (found ++ ·) := by
  obtain ⟨name, node⟩ := entry
  cases node with
  | special _ =>
    rw [traverse, traverse, traverse]
    cases traverse classifier levels depth directory rest <;> rfl
  | file _ =>
    rw [traverse, traverse, traverse]
    cases traverse classifier levels depth directory rest with
    | error _ => rfl
    | ok _ => exact congrArg (fun found => Except.ok (found ++ _)) (List.append_nil _).symm
  | directory entries =>
    rw [traverse, traverse, traverse]
    split
    · split
      · rfl
      · cases traverse classifier levels (depth + 1) (directory.join name) entries with
        | error _ => rfl
        | ok found =>
          cases traverse classifier levels depth directory rest with
          | error _ => rfl
          | ok _ => exact congrArg (fun found => Except.ok (found ++ _)) (List.append_nil found).symm
    · cases traverse classifier levels depth directory rest <;> rfl

theorem Ends.cons {entry : FileName × Node} {rest : List (FileName × Node)} (hname : entry.1 ∉ rest.map Prod.fst)
    (hfirst : Ends classifier levels depth directory [entry]) (hrest : Ends classifier levels depth directory rest) :
    Ends classifier levels depth directory (entry :: rest) := by
  unfold Ends
  rw [traverse_cons]
  rcases hfirst with ⟨hfirst, hall⟩ | ⟨names, hnames, hdeep, hfirst⟩
  · rcases hrest with ⟨hrest, hall'⟩ | ⟨names, hnames, hdeep, hrest⟩
    · refine .inl ⟨?_, fun names hnames => ?_⟩
      · rw [hfirst, hrest, assetsIn_cons directory entry rest]
        rfl
      · exact ((LeadsInto.cons_iff hname).1 hnames).elim (hall names) (hall' names)
    · refine .inr ⟨names, (LeadsInto.cons_iff hname).2 (.inr hnames), hdeep, ?_⟩
      rw [hfirst, hrest]
      rfl
  · refine .inr ⟨names, (LeadsInto.cons_iff hname).2 (.inl hnames), hdeep, ?_⟩
    rw [hfirst]
    rfl

/-- Where names lead into no directory below, nothing is too deep. -/
theorem Ends.of_noneBelow {entries : List (FileName × Node)} (hdepth : levels.any (· < depth) = false)
    (hnone : ∀ first more, ¬ LeadsInto directory entries (first :: more))
    (htraverse : traverse classifier levels depth directory entries = .ok (assetsIn classifier directory entries)) :
    Ends classifier levels depth directory entries := by
  refine .inl ⟨htraverse, fun names hnames => ?_⟩
  cases names with
  | nil => exact hdepth
  | cons first more => exact absurd hnames (hnone first more)

theorem Ends.of_directory {name : FileName} {entries : List (FileName × Node)}
    (hdepth : levels.any (· < depth) = false)
    (hbelow : levels.any (· < depth + 1) = false → Ends classifier levels (depth + 1) (directory.join name) entries) :
    Ends classifier levels depth directory [(name, .directory entries)] := by
  have hlength : ∀ more : List FileName, depth + (name :: more).length = depth + 1 + more.length := fun more => by
    rw [List.length_cons, Nat.add_assoc, Nat.add_comm 1]
  by_cases hentered : ((directory.join name).fits && !isGenerated name) = true
  · obtain ⟨hfits, hname⟩ := Bool.and_eq_true_iff.1 hentered
    rw [Bool.not_eq_true'] at hname
    have hleads : ∀ more, LeadsInto (directory.join name) entries more →
        LeadsInto directory [(name, .directory entries)] (name :: more) :=
      fun more hmore => LeadsInto.singleton_iff.2 ⟨rfl, entries, rfl, hname, hmore⟩
    unfold Ends
    rw [traverse, if_pos hentered]
    by_cases hdeep : levels.any (· < depth + 1) = true
    · rw [if_pos hdeep]
      exact .inr ⟨[name], hleads [] (LeadsInto.nil_iff.2 hfits), hdeep, rfl⟩
    · rw [if_neg hdeep]
      rcases hbelow (Bool.eq_false_iff.2 hdeep) with ⟨hfound, hall⟩ | ⟨more, hmore, hdeep', hfailed⟩
      · rw [hfound]
        refine .inl ⟨?_, fun names hnames => ?_⟩
        · rw [assetsIn, if_pos hentered, traverse, assetsIn]
          rfl
        · cases names with
          | nil => exact hdepth
          | cons first more =>
            obtain ⟨rfl, inner, hinner, -, hmore⟩ := LeadsInto.singleton_iff.1 hnames
            rw [hlength]
            cases hinner
            exact hall more hmore
      · rw [hfailed]
        refine .inr ⟨name :: more, hleads more hmore, ?_, rfl⟩
        rw [hlength]
        exact hdeep'
  · refine .of_noneBelow hdepth (fun first more hnames => hentered ?_) ?_
    · -- a directory that names lead into is one that is entered
      obtain ⟨rfl, inner, -, hname, hmore⟩ := LeadsInto.singleton_iff.1 hnames
      rw [Path.fits_of_descend hmore.fits, hname]
      rfl
    · rw [traverse, if_neg hentered, traverse, assetsIn, if_neg hentered, assetsIn]
      rfl

/-- **How a search ends**, at every depth that it can go down to. -/
theorem traverse_ends : ∀ {depth : Nat} {root : Path} {entries : List (FileName × Node)},
    WellFormed (.directory entries) → levels.any (· < depth) = false →
      Ends classifier levels depth root entries
  | depth, root, [], _, hdepth => by
    refine .of_noneBelow hdepth (fun first more hnames => ?_) (by rw [traverse, assetsIn])
    obtain ⟨inner, hat⟩ := hnames.directory
    cases hat
  | depth, root, (name, .special _) :: rest, h, hdepth => by
    obtain ⟨hname, -, -, hrest⟩ := wellFormed_of_cons h
    refine .cons hname (.of_noneBelow hdepth (fun first more hnames => ?_) ?_) (traverse_ends hrest hdepth)
    · obtain ⟨-, inner, hinner, -⟩ := LeadsInto.singleton_iff.1 hnames
      cases hinner
    · rw [traverse, traverse, assetsIn, assetsIn]
  | depth, root, (name, .file _) :: rest, h, hdepth => by
    obtain ⟨hname, -, -, hrest⟩ := wellFormed_of_cons h
    refine .cons hname (.of_noneBelow hdepth (fun first more hnames => ?_) ?_) (traverse_ends hrest hdepth)
    · obtain ⟨-, inner, hinner, -⟩ := LeadsInto.singleton_iff.1 hnames
      cases hinner
    · rw [traverse, traverse, assetsIn, assetsIn]
      rfl
  | depth, root, (name, .directory entries) :: rest, h, hdepth => by
    obtain ⟨hname, -, hnode, hrest⟩ := wellFormed_of_cons h
    exact .cons hname (.of_directory hdepth (traverse_ends hnode)) (traverse_ends hrest hdepth)

end AssetIntegrity
