import AssetIntegrity.Disk.Basic
import AssetIntegrity.Path.Classifier
/-!
# Assets — the files of a project that can be checked

A project is searched from a root directory downwards.  Directories that the engine or its tools generate are not
entered, at any depth, but the root is searched whatever its name.  A directory is never an asset itself, and neither is
anything that is no file.

A directory stays open until everything below it has been searched, so that the handles which the system grants set a
limit to how many levels a search can go down.

* `Disk.assets`: the paths of the assets below a root, in order of their components.
-/
namespace AssetIntegrity

def generatedDirectories : List String := ["Library", "Temp", "Logs", "obj", "bin", ".git", ".vs"]

def isGenerated (name : FileName) : Bool := generatedDirectories.any fun generated => Utf8.encode generated = name

def Path.fits (path : Path) : Bool := path.length < Disk.pathLimit

/-- The assets among the entries of a directory, and below them.  The directory stands `depth` levels below the root,
and no more than `levels` of them can be gone down. -/
def traverse (classifier : Classifier) (levels : Option Nat) (depth : Nat) (directory : Path) :
    List (FileName × Node) → Except Failure (List Path)
  | [] => .ok []
  | (_, .special _) :: rest => traverse classifier levels depth directory rest
  | (name, .file _) :: rest => do
    let path := directory.join name
    let found := if path.fits && classifier.accepts path then [path] else []
    return found ++ (← traverse classifier levels depth directory rest)
  | (name, .directory entries) :: rest => do
    let path := directory.join name
    if path.fits && !isGenerated name then
      if levels.any (· < depth + 1) then .error (.reading path .tooManyOpen)
      else
        let found ← traverse classifier levels (depth + 1) path entries
        return found ++ (← traverse classifier levels depth directory rest)
    else traverse classifier levels depth directory rest
decreasing_by
  all_goals simp only [List.cons.sizeOf_spec, Prod.mk.sizeOf_spec, Node.directory.sizeOf_spec]
  all_goals omega

/-- The assets below a root, in a search that can go down so many levels, or as many as there are. -/
def Disk.assets (disk : Disk) (classifier : Classifier) (root : Path) (levels : Option Nat := none) :
    Except Failure (List Path) :=
  match disk.list root with
  | .ok entries => (traverse classifier levels 0 root entries).map Path.sort
  | .error fault => .error (.reading root fault)

end AssetIntegrity
