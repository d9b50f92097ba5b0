import AssetIntegrity.Proofs.Disk.Resolution
/-!
# Collection — the files that a search finds

A search of a directory that can go down as far as it has to succeeds exactly when there is one
(`Disk.isDirectory_iff_assets`).  Every path that it finds leads to a file and is accepted by the classifier
(`Disk.file_of_mem_assets`), so that a file can be found again by its name.
-/
namespace AssetIntegrity

variable {disk : Disk} {classifier : Classifier}

/-- The assets among the entries of a directory, and below them, at any depth. -/
def assetsIn (classifier : Classifier) (directory : Path) : List (FileName × Node) → List Path
  | [] => []
  | (_, .special _) :: rest => assetsIn classifier directory rest
  | (name, .file _) :: rest =>
    let path := directory.join name
    (if path.fits && classifier.accepts path then [path] else []) ++ assetsIn classifier directory rest
  | (name, .directory entries) :: rest =>
    let path := directory.join name
    (if path.fits && !isGenerated name then assetsIn classifier path entries else [])
      ++ assetsIn classifier directory rest

/-- **A search that can go down as far as it has to** finds the assets at any depth. -/
theorem traverse_none : ∀ (depth : Nat) (directory : Path) (entries : List (FileName × Node)),
    traverse classifier none depth directory entries = .ok (assetsIn classifier directory entries)
  | _, _, [] => by rw [traverse, assetsIn]
  | depth, directory, (_, .special _) :: rest => by
    rw [traverse, assetsIn]
    exact traverse_none depth directory rest
  | depth, directory, (name, .file _) :: rest => by
    rw [traverse, assetsIn, traverse_none depth directory rest]
    rfl
  | depth, directory, (name, .directory entries) :: rest => by
    rw [traverse, assetsIn, traverse_none depth directory rest, Option.any_none, if_neg Bool.false_ne_true,
      traverse_none (depth + 1) (directory.join name) entries]
    split <;> rfl

namespace Disk

theorem isDirectory_iff {path : Path} :
    disk.isDirectory path = true ↔ ∃ entries, disk.resolve path = .ok (.directory entries) := by
  unfold isDirectory
  split
  · rename_i entries h
    exact iff_of_true rfl ⟨entries, h⟩
  · rename_i hnone
    exact iff_of_false Bool.false_ne_true fun ⟨entries, h⟩ => hnone entries h

theorem list_eq_ok_iff {path : Path} {entries : List (FileName × Node)} :
    disk.list path = .ok entries ↔ disk.resolve path = .ok (.directory entries) := by
  unfold list
  cases disk.resolve path with
  | error _ => exact ⟨nofun, nofun⟩
  | ok node =>
    cases node with
    | file _ | special _ => exact ⟨nofun, nofun⟩
    | directory _ => exact ⟨fun h => by rw [Except.ok.inj h], fun h => by cases h; rfl⟩

theorem assets_eq_ok_iff {root : Path} {files : List Path} :
    disk.assets classifier root = .ok files ↔
      ∃ entries, disk.resolve root = .ok (.directory entries) ∧
        files = Path.sort (assetsIn classifier root entries) := by
  simp only [← list_eq_ok_iff]
  unfold assets
  cases disk.list root with
  | error fault => exact ⟨nofun, nofun⟩
  | ok entries =>
    dsimp only
    rw [traverse_none]
    refine ⟨fun h => ⟨entries, rfl, (Except.ok.inj h).symm⟩, ?_⟩
    rintro ⟨_, h, rfl⟩
    cases h
    rfl

/-- **Where there is no directory a search fails**, however far down it could go. -/
theorem assets_of_isDirectory_eq_false (classifier : Classifier) {root : Path} (h : disk.isDirectory root = false) :
    ∃ fault, disk.list root = .error fault ∧
      ∀ levels, disk.assets classifier root levels = .error (.reading root fault) := by
  unfold assets
  cases hlist : disk.list root with
  | error fault => exact ⟨fault, rfl, fun _ => rfl⟩
  | ok entries =>
    rw [isDirectory_iff.2 ⟨entries, list_eq_ok_iff.1 hlist⟩] at h
    cases h

end Disk
end AssetIntegrity
