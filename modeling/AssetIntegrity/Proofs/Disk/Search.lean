import AssetIntegrity.Proofs.Disk.Levels
import Mathlib.Data.List.Nodup
/-!
# Search — exactly the assets below a root

A search finds a file when names lead to it from the root (`mem_assetsIn_iff`).  It finds each file once
(`nodup_components_assetsIn`) and lists the files in the order of their names, in whatever order the directories list
them (`Disk.assets_exact`).

The length of the path cannot be left out: the same root spelled with more slashes may hide every file in it
(`Disk.assets_of_long_root`).
-/
namespace AssetIntegrity

variable {classifier : Classifier}

open Node

/-! ## A search -/

/-- **A search finds an asset exactly when names lead to it.** -/
theorem mem_assetsIn_iff {path : Path} : ∀ {root : Path} {entries : List (FileName × Node)},
    WellFormed (.directory entries) →
      (path ∈ assetsIn classifier root entries ↔
        ∃ names, LeadsToAsset classifier root (.directory entries) names ∧ path = root.descend names)
  | root, [], _ => by
    rw [assetsIn]
    refine iff_of_false List.not_mem_nil ?_
    rintro ⟨names, hleads, -⟩
    exact LeadsToAsset.not_of_empty hleads
  | root, (name, .special _) :: rest, h => by
    obtain ⟨hname, -, -, hrest⟩ := wellFormed_of_cons h
    simp only [assetsIn, mem_assetsIn_iff hrest, LeadsToAsset.cons_iff hname, LeadsToAsset.not_of_special, false_and,
      and_false, exists_false, false_or]
  | root, (name, .file content) :: rest, h => by
    obtain ⟨hname, -, -, hrest⟩ := wellFormed_of_cons h
    simp only [assetsIn, List.mem_append, mem_assetsIn_iff hrest, LeadsToAsset.cons_iff hname, or_and_right, exists_or,
      LeadsToAsset.file_iff, List.mem_ite_nil_right, List.mem_singleton]
    refine or_congr_left ⟨?_, ?_⟩
    · rintro ⟨htaken, rfl⟩
      exact ⟨[name], ⟨[], rfl, ⟨rfl, htaken⟩, fun h => absurd rfl h⟩, rfl⟩
    · rintro ⟨_, ⟨_, rfl, ⟨rfl, htaken⟩, -⟩, rfl⟩
      exact ⟨htaken, rfl⟩
  | root, (name, .directory entries) :: rest, h => by
    obtain ⟨hname, -, hnode, hrest⟩ := wellFormed_of_cons h
    simp only [assetsIn, List.mem_append, mem_assetsIn_iff hrest, LeadsToAsset.cons_iff hname, or_and_right, exists_or,
      List.mem_ite_nil_right, mem_assetsIn_iff hnode]
    refine or_congr_left ⟨?_, ?_⟩
    · rintro ⟨htaken, names, hleads, rfl⟩
      obtain ⟨-, hgenerated⟩ := Bool.and_eq_true_iff.1 htaken
      exact ⟨name :: names, ⟨names, rfl, hleads, fun _ => by simpa using hgenerated⟩, rfl⟩
    · rintro ⟨_, ⟨names, rfl, hleads, hgenerated⟩, rfl⟩
      refine ⟨Bool.and_eq_true_iff.2 ⟨Path.fits_of_descend hleads.fits, ?_⟩, names, hleads, rfl⟩
      rw [hgenerated hleads.ne_nil]
      rfl

/-- Assets behind different entries have different paths. -/
theorem nodup_components_cons {root : Path} (hroot : root ≠ []) {entry : FileName × Node}
    {rest : List (FileName × Node)} (h : WellFormed (.directory (entry :: rest)))
    (hfirst : ((assetsIn classifier root [entry]).map Path.components).Nodup)
    (hrest : ((assetsIn classifier root rest).map Path.components).Nodup) :
    ((assetsIn classifier root (entry :: rest)).map Path.components).Nodup := by
  obtain ⟨hname, hvalid, hnode, hwell⟩ := wellFormed_of_cons h
  have hsingle : WellFormed (.directory [entry]) :=
    .directory (List.nodup_singleton _) (List.forall_mem_singleton.2 hvalid) (List.forall_mem_singleton.2 hnode)
  rw [assetsIn_cons, List.map_append, List.nodup_append]
  refine ⟨hfirst, hrest, ?_⟩
  rintro _ hleft _ hright heq
  obtain ⟨a, ha, rfl⟩ := List.mem_map.1 hleft
  obtain ⟨b, hb, rfl⟩ := List.mem_map.1 hright
  obtain ⟨names, hnames, rfl⟩ := (mem_assetsIn_iff hsingle).1 ha
  obtain ⟨names', hnames', rfl⟩ := (mem_assetsIn_iff hwell).1 hb
  obtain ⟨content, hfile⟩ := hnames.file
  obtain ⟨content', hfile'⟩ := hnames'.file
  obtain rfl := Path.eq_of_components_descend hroot (hsingle.valid_of_at? hfile) (hwell.valid_of_at? hfile') heq
  obtain ⟨first, more, rfl⟩ := List.exists_cons_of_ne_nil hnames.ne_nil
  obtain rfl := List.mem_singleton.1 (mem_names_of_at? hfile)
  exact hname (mem_names_of_at? hfile')

/-- **No asset is found twice**, not even under another spelling of its path. -/
theorem nodup_components_assetsIn : ∀ {root : Path} {entries : List (FileName × Node)}, root ≠ [] →
    WellFormed (.directory entries) → ((assetsIn classifier root entries).map Path.components).Nodup
  | root, [], _, _ => by
    rw [assetsIn]
    exact List.nodup_nil
  | root, (name, .special _) :: rest, hroot, h => by
    rw [assetsIn]
    exact nodup_components_assetsIn hroot (wellFormed_of_cons h).2.2.2
  | root, (name, .file content) :: rest, hroot, h => by
    refine nodup_components_cons hroot h ?_ (nodup_components_assetsIn hroot (wellFormed_of_cons h).2.2.2)
    simp only [assetsIn, List.append_nil]
    split
    · exact List.nodup_singleton _
    · exact List.nodup_nil
  | root, (name, .directory entries) :: rest, hroot, h => by
    obtain ⟨-, -, hnode, hrest⟩ := wellFormed_of_cons h
    refine nodup_components_cons hroot h ?_ (nodup_components_assetsIn hroot hrest)
    simp only [assetsIn, List.append_nil]
    split
    · exact nodup_components_assetsIn (Path.join_ne_nil hroot name) hnode
    · exact List.nodup_nil

namespace Disk

variable {disk : Disk}

/-- **The assets of a directory** are the paths along strictly increasing sequences of names. -/
theorem exists_places (hdisk : disk.root.WellFormed) (classifier : Classifier) {root : Path}
    {entries : List (FileName × Node)} (h : disk.resolve root = .ok (.directory entries)) :
    ∃ places : List (List FileName), disk.assets classifier root = .ok (places.map root.descend) ∧
      places.Pairwise (· < ·) ∧ (places.map root.descend).Pairwise Path.Before ∧
      ∀ names, names ∈ places ↔ LeadsToAsset classifier root (.directory entries) names := by
  have hroot : root ≠ [] := (resolve_eq_ok_iff.1 h).2.1
  have hwell : WellFormed (.directory entries) := wellFormed_of_resolve hdisk h
  let files := Path.sort (assetsIn classifier root entries)
  have hmem : ∀ path, path ∈ files ↔
      ∃ names, LeadsToAsset classifier root (.directory entries) names ∧ path = root.descend names :=
    fun path => List.mem_mergeSort.trans (mem_assetsIn_iff hwell)
  have hvalid : ∀ {names}, LeadsToAsset classifier root (.directory entries) names →
      ∀ name ∈ names, FileName.Valid name := by
    intro names hleads
    obtain ⟨content, hfile⟩ := hleads.file
    exact hwell.valid_of_at? hfile
  have hbefore : files.Pairwise Path.Before :=
    Path.pairwise_before_sort (nodup_components_assetsIn hroot hwell)
  have hfiles : (files.map root.namesBelow).map root.descend = files := by
    rw [List.map_map]
    refine (List.map_congr_left fun path hpath => ?_).trans (List.map_id _)
    obtain ⟨names, hleads, rfl⟩ := (hmem path).1 hpath
    rw [Function.comp_apply, Path.namesBelow_descend hroot (hvalid hleads), id]
  refine ⟨files.map root.namesBelow, ?_, ?_, hfiles.symm ▸ hbefore, fun names => ?_⟩
  · rw [hfiles]
    exact assets_eq_ok_iff.2 ⟨entries, h, rfl⟩
  · refine List.pairwise_map.2 (hbefore.imp_of_mem fun {a b} ha hb hlt => ?_)
    obtain ⟨names, hleads, rfl⟩ := (hmem a).1 ha
    obtain ⟨names', hleads', rfl⟩ := (hmem b).1 hb
    rw [Path.namesBelow_descend hroot (hvalid hleads), Path.namesBelow_descend hroot (hvalid hleads')]
    exact (Path.descend_before_iff hroot (hvalid hleads) (hvalid hleads')).1 hlt
  · constructor
    · intro h
      obtain ⟨path, hpath, rfl⟩ := List.mem_map.1 h
      obtain ⟨names, hleads, rfl⟩ := (hmem path).1 hpath
      rwa [Path.namesBelow_descend hroot (hvalid hleads)]
    · intro hleads
      refine List.mem_map.2 ⟨root.descend names, (hmem _).2 ⟨names, hleads, rfl⟩, ?_⟩
      exact Path.namesBelow_descend hroot (hvalid hleads)

/-- **The order in which directories list their entries does not matter** to a search, nor to why it fails. -/
theorem assets_reordered (hdisk : disk.root.WellFormed) {other : Node} (h : disk.root.Reordered other)
    (classifier : Classifier) (root : Path) :
    ({ disk with root := other } : Disk).assets classifier root = disk.assets classifier root := by
  have hother : other.WellFormed := h.wellFormed hdisk
  rcases resolve_reordered h hdisk root with ⟨x, y, hx, hy, hreordered⟩ | ⟨fault, hx, hy⟩
  · cases hreordered with
    | file _ | special _ =>
      unfold assets list
      rw [hx, hy]
    | @directory a b names below =>
      have hwell : WellFormed (.directory a) := wellFormed_of_resolve hdisk hx
      have hwell' : WellFormed (.directory b) := (Reordered.directory names below).wellFormed hwell
      have hroot : root ≠ [] := (resolve_eq_ok_iff.1 hx).2.1
      rw [assets_eq_ok_iff.2 ⟨a, hx, rfl⟩, assets_eq_ok_iff.2 ⟨b, hy, rfl⟩, Except.ok.injEq]
      refine Path.eq_of_pairwise_before (Path.pairwise_before_sort (nodup_components_assetsIn hroot hwell'))
        (Path.pairwise_before_sort (nodup_components_assetsIn hroot hwell)) fun path => ?_
      have hsame : ∀ names, LeadsToAsset classifier root (.directory b) names ↔
          LeadsToAsset classifier root (.directory a) names := fun _ =>
        ⟨.reordered hwell' (Reordered.directory names below).symm, .reordered hwell (.directory names below)⟩
      rw [Path.sort, Path.sort, List.mem_mergeSort, List.mem_mergeSort, mem_assetsIn_iff hwell, mem_assetsIn_iff hwell']
      simp only [hsame]
  · unfold assets list
    rw [hx, hy]

/-! ## Levels -/

/-- **A search that can go down some levels** finds the same as one that can go down as far as it has to, or fails at a
directory that is too deep. -/
theorem assets_ends (hdisk : disk.root.WellFormed) (classifier : Classifier) {root : Path}
    {entries : List (FileName × Node)} (h : disk.resolve root = .ok (.directory entries)) (levels : Option Nat) :
    (disk.assets classifier root levels = disk.assets classifier root ∧
      ∀ names, LeadsInto root entries names → levels.any (· < names.length) = false) ∨
    ∃ names, LeadsInto root entries names ∧ levels.any (· < names.length) = true ∧
      disk.assets classifier root levels = .error (.reading (root.descend names) .tooManyOpen) := by
  have hdepth : levels.any (· < 0) = false := by cases levels <;> rfl
  have hends : Ends classifier levels 0 root entries := traverse_ends (wellFormed_of_resolve hdisk h) hdepth
  unfold Ends at hends
  simp only [Nat.zero_add] at hends
  unfold assets
  rw [list_eq_ok_iff.2 h]
  dsimp only
  rcases hends with ⟨hfound, hall⟩ | ⟨names, hnames, hdeep, hfailed⟩
  · rw [hfound, traverse_none]
    exact .inl ⟨rfl, hall⟩
  · rw [hfailed]
    exact .inr ⟨names, hnames, hdeep, rfl⟩

/-- **A search succeeds** when it can go down far enough, and then it finds everything. -/
theorem assets_levels_eq_ok_iff (hdisk : disk.root.WellFormed) {classifier : Classifier} {root : Path}
    {levels : Option Nat} {files : List Path} :
    disk.assets classifier root levels = .ok files ↔ disk.assets classifier root = .ok files ∧
      ∀ entries, disk.resolve root = .ok (.directory entries) →
        ∀ names, LeadsInto root entries names → levels.any (· < names.length) = false := by
  by_cases hroot : ∃ entries, disk.resolve root = .ok (.directory entries)
  · obtain ⟨entries, h⟩ := hroot
    simp only [h, Except.ok.injEq, Node.directory.injEq, forall_eq']
    rcases assets_ends hdisk classifier h levels with ⟨hsame, hall⟩ | ⟨names, hnames, hdeep, hfailed⟩
    · rw [hsame, and_iff_left hall]
    · rw [hfailed]
      refine iff_of_false nofun fun hfound => ?_
      rw [hfound.2 names hnames] at hdeep
      cases hdeep
  · rw [← isDirectory_iff, Bool.not_eq_true] at hroot
    obtain ⟨fault, -, hfailed⟩ := assets_of_isDirectory_eq_false classifier hroot
    rw [hfailed levels, hfailed none]
    exact ⟨nofun, nofun⟩

/-- **Whether a search can go down far enough** does not depend on the order of the entries, nor what it finds then. -/
theorem assets_levels_reordered (hdisk : disk.root.WellFormed) {other : Node} (h : disk.root.Reordered other)
    (classifier : Classifier) (root : Path) (levels : Option Nat) (files : List Path) :
    ({ disk with root := other } : Disk).assets classifier root levels = .ok files ↔
      disk.assets classifier root levels = .ok files := by
  have hother : ({ disk with root := other } : Disk).root.WellFormed := h.wellFormed hdisk
  rw [assets_levels_eq_ok_iff hdisk, assets_levels_eq_ok_iff hother, assets_reordered hdisk h]
  refine and_congr_right fun _ => ?_
  rcases resolve_reordered h hdisk root with ⟨x, y, hx, hy, hreordered⟩ | ⟨fault, hx, hy⟩
  · rw [hx, hy]
    cases hreordered with
    | file _ | special _ => exact iff_of_true nofun nofun
    | @directory a b names below =>
      have hwell : WellFormed (.directory a) := wellFormed_of_resolve hdisk hx
      have hwell' : WellFormed (.directory b) := wellFormed_of_resolve hother hy
      simp only [Except.ok.injEq, Node.directory.injEq, forall_eq']
      have hsame : ∀ names, LeadsInto root b names ↔ LeadsInto root a names := fun _ =>
        ⟨.reordered hwell' (Reordered.directory names below).symm, .reordered hwell (.directory names below)⟩
      simp only [hsame]
  · rw [hx, hy]

/-! ## Roots that are too long -/

theorem resolve_append_slash {path : Path} {entries : List (FileName × Node)}
    (h : disk.resolve path = .ok (.directory entries)) (hfits : (path ++ [Path.slash]).length < pathLimit) :
    disk.resolve (path ++ [Path.slash]) = .ok (.directory entries) := by
  obtain ⟨hnul, hnil, -, hwalk⟩ := resolve_eq_ok_iff.1 h
  obtain ⟨place, hat, hmore⟩ := exists_place_of_walk hwalk
  refine resolve_eq_ok_iff.2 ⟨?_, List.append_ne_nil_of_left_ne_nil hnil _, hfits, ?_⟩
  · rw [List.mem_append, not_or]
    exact ⟨hnul, by decide⟩
  · rw [startOf_append disk hnil, List.splitOn_append_cons_self, List.splitOn_nil, hmore, walk_cons, next, hat]
    show walk disk.root place [] = _
    rw [walk_nil, hat]
    rfl

/-- **Slashes behind a directory say nothing**, as long as the path fits. -/
theorem resolve_append_slashes {path : Path} {entries : List (FileName × Node)}
    (h : disk.resolve path = .ok (.directory entries)) : ∀ count : Nat, path.length + count < pathLimit →
      disk.resolve (path ++ List.replicate count Path.slash) = .ok (.directory entries)
  | 0, _ => by rwa [List.replicate_zero, List.append_nil]
  | count + 1, hfits => by
    rw [List.replicate_succ', ← List.append_assoc]
    refine resolve_append_slash (resolve_append_slashes h count (by omega)) ?_
    simp only [List.length_append, List.length_replicate, List.length_singleton]
    omega

/-- **A root that is as long as a path can be hides everything below it**: no path to an entry fits. -/
theorem assets_of_long_root (hdisk : disk.root.WellFormed) (classifier : Classifier) {root : Path}
    {entries : List (FileName × Node)} (h : disk.resolve root = .ok (.directory entries))
    (hlong : pathLimit ≤ root.length + 1) : disk.assets classifier root = .ok [] := by
  obtain ⟨places, hassets, -, -, hmem⟩ := exists_places hdisk classifier h
  have hroot : root ≠ [] := (resolve_eq_ok_iff.1 h).2.1
  have hnone : places = [] := by
    refine List.eq_nil_iff_forall_not_mem.2 fun names hnames => ?_
    have hleads := (hmem names).1 hnames
    obtain ⟨content, hfile⟩ := hleads.file
    obtain ⟨first, more, rfl⟩ := List.exists_cons_of_ne_nil hleads.ne_nil
    have hfirst := (wellFormed_of_resolve hdisk h).valid_of_at? hfile first List.mem_cons_self
    have hlength := Path.length_le_descend more (root.join first)
    have hjoin := Path.length_lt_join hroot hfirst.ne_nil
    have hfits : (root.descend (first :: more)).length < pathLimit := of_decide_eq_true hleads.fits
    change ((root.join first).descend more).length < pathLimit at hfits
    omega
  rw [hassets, hnone]
  rfl

end Disk

theorem isGenerated_eq_false_iff {name : FileName} :
    isGenerated name = false ↔ name ∉ generatedDirectories.map Utf8.encode := by
  simp [isGenerated]

/-- **A search of a directory finds exactly its assets**, as far as it can go down.
- When it can go down as far as it has to, it succeeds and gives the paths along certain sequences of names, which
  strictly increase byte by byte in each name and name by name; the paths increase in the order of paths.  These
  sequences are those that lead from the root to a file through directories of which none is generated, when the path is
  accepted and shorter than the system's limit.
- When it can go down some levels only, either this is enough for all the directories that it enters, and it finds the
  same; or it fails, and the failure names a directory that is too deep.
- The order in which directories list their entries does not matter: the search succeeds or fails in every order, and
  finds the same.
- Where there is no directory the search fails, and the failure names the root. -/
theorem Disk.assets_exact (disk : Disk) (hdisk : disk.root.WellFormed) (classifier : Classifier) (root : Path) :
    (∀ entries, disk.resolve root = .ok (.directory entries) →
      (∃ places : List (List FileName),
        disk.assets classifier root = .ok (places.map fun names => names.foldl Path.join root) ∧
        places.Pairwise (fun a b => a < b) ∧
        (places.map fun names => names.foldl Path.join root).Pairwise (fun a b => a.lt b = true) ∧
        ∀ names, names ∈ places ↔
          (∃ content, (Node.directory entries).at? names = some (.file content)) ∧
          (∀ name ∈ names.dropLast, name ∉ generatedDirectories.map Utf8.encode) ∧
          classifier.accepts (names.foldl Path.join root) = true ∧
          (names.foldl Path.join root).length < 4096) ∧
      ∀ levels : Nat,
        (disk.assets classifier root (some levels) = disk.assets classifier root ∧
          ∀ names, LeadsInto root entries names → names.length ≤ levels) ∨
        ∃ names, LeadsInto root entries names ∧ levels < names.length ∧
          disk.assets classifier root (some levels) = .error (.reading (names.foldl Path.join root) .tooManyOpen)) ∧
    (∀ other, disk.root.Reordered other →
      ({ disk with root := other } : Disk).assets classifier root = disk.assets classifier root ∧
      ∀ levels files, ({ disk with root := other } : Disk).assets classifier root levels = .ok files ↔
        disk.assets classifier root levels = .ok files) ∧
    (disk.isDirectory root = false →
      ∃ fault, disk.list root = .error fault ∧
        ∀ levels, disk.assets classifier root levels = .error (.reading root fault)) := by
  refine ⟨fun entries h => ⟨?_, fun levels => ?_⟩, fun other h => ⟨Disk.assets_reordered hdisk h classifier root,
    Disk.assets_levels_reordered hdisk h classifier root⟩, Disk.assets_of_isDirectory_eq_false classifier⟩
  · obtain ⟨places, hassets, hnames, hpaths, hmem⟩ := Disk.exists_places hdisk classifier h
    refine ⟨places, hassets, hnames, hpaths, fun names => (hmem names).trans ?_⟩
    constructor
    · rintro ⟨hfile, hentered, haccepted, hfits⟩
      exact ⟨hfile, fun name hname => isGenerated_eq_false_iff.1 (hentered name hname), haccepted,
        of_decide_eq_true hfits⟩
    · rintro ⟨hfile, hentered, haccepted, hfits⟩
      exact ⟨hfile, fun name hname => isGenerated_eq_false_iff.2 (hentered name hname), haccepted,
        decide_eq_true hfits⟩
  · rcases Disk.assets_ends hdisk classifier h (some levels) with ⟨hsame, hall⟩ | ⟨names, hnames, hdeep, hfailed⟩
    · exact .inl ⟨hsame, fun names hnames => Nat.not_lt.1 (of_decide_eq_false (hall names hnames))⟩
    · exact .inr ⟨names, hnames, of_decide_eq_true hdeep, hfailed⟩

/-- The entries of a directory that lists them in an order of its own: a generated directory, `a.b/x.prefab`, the
directory `a` with the asset `z.prefab` and the directory `d.prefab` that holds `y.unity`, the text `n.txt` and
`q.prefab`, which is no file. -/
def sampleEntries : List (FileName × Node) :=
  [([0x6F, 0x62, 0x6A], .directory [([0x62, 0x2E, 0x70, 0x72, 0x65, 0x66, 0x61, 0x62], .file .empty)]),
    ([0x61, 0x2E, 0x62], .directory [([0x78, 0x2E, 0x70, 0x72, 0x65, 0x66, 0x61, 0x62], .file .empty)]),
    ([0x61], .directory
      [([0x7A, 0x2E, 0x70, 0x72, 0x65, 0x66, 0x61, 0x62], .file .empty),
        ([0x64, 0x2E, 0x70, 0x72, 0x65, 0x66, 0x61, 0x62], .directory
          [([0x79, 0x2E, 0x75, 0x6E, 0x69, 0x74, 0x79], .file .empty)])]),
    ([0x6E, 0x2E, 0x74, 0x78, 0x74], .file .empty),
    ([0x71, 0x2E, 0x70, 0x72, 0x65, 0x66, 0x61, 0x62], .special (.ok .empty))]

/-- A disk with these entries in the directory `p`. -/
def sampleDisk : Disk := ⟨.directory [([0x70], .directory sampleEntries)], []⟩

theorem sampleEntries_wellFormed : Node.WellFormed (.directory sampleEntries) := by
  have hprefab : ∀ name : FileName, name.Valid → Node.WellFormed (.directory [(name, .file .empty)]) := fun _ hname =>
    .directory (List.nodup_singleton _) (List.forall_mem_singleton.2 hname) (List.forall_mem_singleton.2 (.file _))
  refine .directory (by decide) (by decide) ?_
  refine List.forall_mem_cons.2 ⟨hprefab _ (by decide), List.forall_mem_cons.2 ⟨hprefab _ (by decide), ?_⟩⟩
  refine List.forall_mem_cons.2 ⟨.directory (by decide) (by decide) ?_,
    List.forall_mem_cons.2 ⟨.file _, List.forall_mem_singleton.2 (.special _)⟩⟩
  exact List.forall_mem_cons.2 ⟨.file _, List.forall_mem_singleton.2 (hprefab _ (by decide))⟩

theorem sampleDisk_wellFormed : sampleDisk.root.WellFormed :=
  .directory (List.nodup_singleton _) (List.forall_mem_singleton.2 (by decide))
    (List.forall_mem_singleton.2 sampleEntries_wellFormed)

theorem sampleDisk_resolve : sampleDisk.resolve [0x70] = .ok (.directory sampleEntries) := rfl

/-- The directory lists `obj` first and `a.b` in front of `a`.  A search that can only look into the root itself
fails. -/
theorem assets_exact_sampleDisk :
    (∃ places : List (List FileName),
      sampleDisk.assets .standard [0x70] = .ok (places.map fun names => names.foldl Path.join [0x70]) ∧
      places.Pairwise (fun a b => a < b) ∧
      [[0x61], [0x7A, 0x2E, 0x70, 0x72, 0x65, 0x66, 0x61, 0x62]] ∈ places ∧
      [[0x61], [0x64, 0x2E, 0x70, 0x72, 0x65, 0x66, 0x61, 0x62], [0x79, 0x2E, 0x75, 0x6E, 0x69, 0x74, 0x79]] ∈ places ∧
      [[0x6F, 0x62, 0x6A], [0x62, 0x2E, 0x70, 0x72, 0x65, 0x66, 0x61, 0x62]] ∉ places ∧
      [[0x71, 0x2E, 0x70, 0x72, 0x65, 0x66, 0x61, 0x62]] ∉ places) ∧
    (∃ names : List FileName, sampleDisk.assets .standard [0x70] (some 0) =
      .error (.reading (names.foldl Path.join [0x70]) .tooManyOpen)) ∧
    ({ sampleDisk with root := .directory [([0x70], .directory sampleEntries.reverse)] } : Disk).assets .standard
      [0x70] = sampleDisk.assets .standard [0x70] ∧
    sampleDisk.isDirectory [0x71] = false ∧
    ∃ fault, sampleDisk.assets .standard [0x71] = .error (.reading [0x71] fault) := by
  have hexact := fun root => Disk.assets_exact sampleDisk sampleDisk_wellFormed .standard root
  obtain ⟨⟨places, hassets, hnames, -, hmem⟩, hlevels⟩ := (hexact [0x70]).1 sampleEntries sampleDisk_resolve
  refine ⟨⟨places, hassets, hnames, ?_, ?_, ?_, ?_⟩, ?_, ?_, rfl, ?_⟩
  · exact (hmem _).2 ⟨⟨.empty, rfl⟩, by decide +kernel, by decide +kernel, by decide⟩
  · exact (hmem _).2 ⟨⟨.empty, rfl⟩, by decide +kernel, by decide +kernel, by decide⟩
  · intro h
    exact absurd ((hmem _).1 h).2.1 (by decide +kernel)
  · intro h
    obtain ⟨content, hcontent⟩ := ((hmem _).1 h).1
    cases hcontent
  · rcases hlevels 0 with ⟨-, hall⟩ | ⟨names, -, -, hfailed⟩
    · have hinto : LeadsInto [0x70] sampleEntries [[0x61]] := ⟨⟨_, rfl⟩, by decide +kernel, by decide⟩
      exact absurd (hall _ hinto) (by decide)
    · exact ⟨names, hfailed⟩
  · have hreversed : sampleDisk.root.Reordered (.directory [([0x70], .directory sampleEntries.reverse)]) := by
      refine .directory (.refl _) fun name x y hx hy => ?_
      obtain ⟨-, rfl⟩ := Prod.mk.inj (List.mem_singleton.1 hx)
      obtain ⟨-, rfl⟩ := Prod.mk.inj (List.mem_singleton.1 hy)
      exact .of_perm sampleEntries_wellFormed (List.reverse_perm _).symm
    exact ((hexact [0x70]).2.1 _ hreversed).1
  · obtain ⟨fault, -, hfault⟩ := (hexact [0x71]).2.2 rfl
    exact ⟨fault, hfault none⟩

/-- **A file that names lead to and that would be accepted is missed** when the root is spelled with 4094 slashes behind
its name: nothing is found and nothing is said. -/
theorem assets_miss_under_long_root :
    sampleDisk.root.WellFormed ∧
    sampleDisk.resolve ([0x70] ++ List.replicate 4094 Path.slash) = .ok (.directory sampleEntries) ∧
    (∃ content, (Node.directory sampleEntries).at? [[0x61], [0x7A, 0x2E, 0x70, 0x72, 0x65, 0x66, 0x61, 0x62]] =
      some (.file content)) ∧
    [0x61] ∉ generatedDirectories.map Utf8.encode ∧
    Classifier.standard.accepts
      ([[0x61], [0x7A, 0x2E, 0x70, 0x72, 0x65, 0x66, 0x61, 0x62]].foldl Path.join
        ([0x70] ++ List.replicate 4094 Path.slash)) = true ∧
    sampleDisk.assets .standard ([0x70] ++ List.replicate 4094 Path.slash) = .ok [] := by
  -- for any root, so that the slashes are not counted out
  have haccepts : ∀ root : Path, root ≠ [] → Classifier.standard.accepts
      ([[0x61], [0x7A, 0x2E, 0x70, 0x72, 0x65, 0x66, 0x61, 0x62]].foldl Path.join root) = true := fun root hroot =>
    (Classifier.standard.accepts_join (Path.join_ne_nil hroot [0x61]) (by decide)).trans (by decide +kernel)
  have hresolve := Disk.resolve_append_slashes sampleDisk_resolve 4094 (by decide)
  refine ⟨sampleDisk_wellFormed, hresolve, ⟨.empty, rfl⟩, by decide +kernel,
    haccepts _ (List.cons_ne_nil _ _), Disk.assets_of_long_root sampleDisk_wellFormed .standard hresolve ?_⟩
  simp only [List.length_append, List.length_replicate, List.length_singleton]
  decide

end AssetIntegrity
