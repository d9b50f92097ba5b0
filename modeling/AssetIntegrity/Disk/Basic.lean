import AssetIntegrity.Disk.Fault
/-!
# Disks — files and directories

A disk is a tree of directories with a working directory in it.  What stands in them is a file, or a pipe, a socket or a
device, which can be opened like a file but is none.  A path is followed from its first name to its last;
each name needs a directory to stand in, also an empty name and `.`, so that a file followed by a slash is refused.

* `Disk.resolve`: what a path leads to.
* `Disk.load`: the bytes of a file, and `Disk.read`: its text.
* `Disk.write`, `Disk.makeDirectory` and `Disk.remove` change a disk.
-/
namespace AssetIntegrity

/-- A file, a directory with its entries in the order in which it lists them, or something else with what reading it
gives. -/
inductive Node where
  | file (content : ByteArray)
  | special (reading : Except Fault ByteArray)
  | directory (entries : List (FileName × Node))

namespace Node

def emptyDirectory : Node := directory []

instance : Inhabited Node := ⟨emptyDirectory⟩

def child? (name : FileName) : Node → Option Node
  | file _ | special _ => none
  | directory entries => entries.lookup name

def at? : List FileName → Node → Option Node
  | [], node => some node
  | name :: names, node => (node.child? name).bind (at? names)

def setEntry (name : FileName) (new? : Option Node) (entries : List (FileName × Node)) : List (FileName × Node) :=
  match new? with
  | none => entries.filter fun entry => entry.1 ≠ name
  | some new =>
    if entries.any fun entry => entry.1 = name then
      entries.map fun entry => if entry.1 = name then (name, new) else entry
    else entries ++ [(name, new)]

/-- Changes what stands at the end of these names, and makes the directories that are missing on the way. -/
def alter (f : Option Node → Option Node) : List FileName → Node → Node
  | [], node => (f (some node)).getD node
  | _ :: _, file content => file content
  | _ :: _, special reading => special reading
  | [name], directory entries => directory (setEntry name (f (entries.lookup name)) entries)
  | name :: names, directory entries =>
    directory (setEntry name (some (alter f names ((entries.lookup name).getD emptyDirectory))) entries)

end Node

/-- A tree of files and the place in it from which relative paths lead. -/
structure Disk where
  root : Node
  workingDirectory : List FileName

namespace Disk

/-- A disk with nothing on it but an empty working directory of this name. -/
def fresh (name : FileName) : Disk := ⟨.directory [(name, .emptyDirectory)], [name]⟩

def nameLimit : Nat := 255

def pathLimit : Nat := 4096

/-- Where one name leads from a place. -/
def next (root : Node) (place : List FileName) (name : FileName) : Except Fault (List FileName) :=
  match root.at? place with
  | none => .error .noSuchFile
  | some (.file _) | some (.special _) => .error .notADirectory
  | some (.directory entries) =>
    if name = [] ∨ name = [Path.dot] then .ok place
    else if name = [Path.dot, Path.dot] then .ok place.dropLast
    else if name.length > nameLimit then .error .nameTooLong
    else if (entries.lookup name).isSome then .ok (place ++ [name])
    else .error .noSuchFile

def walk (root : Node) (place : List FileName) : List FileName → Except Fault Node
  | [] => match root.at? place with
    | some node => .ok node
    | none => .error .noSuchFile
  | name :: names => do walk root (← next root place name) names

def startOf (disk : Disk) (path : Path) : List FileName :=
  if path.head? = some Path.slash then [] else disk.workingDirectory

def resolve (disk : Disk) (path : Path) : Except Fault Node :=
  if 0 ∈ path then .error .nulInName
  else if path = [] then .error .noSuchFile
  else if path.length ≥ pathLimit then .error .nameTooLong
  else walk disk.root (disk.startOf path) (path.splitOn Path.slash)

def isDirectory (disk : Disk) (path : Path) : Bool :=
  match disk.resolve path with
  | .ok (.directory _) => true
  | _ => false

def load (disk : Disk) (path : Path) : Except Fault ByteArray := do
  match ← disk.resolve path with
  | .file content => .ok content
  | .special reading => reading
  | .directory _ => .error .isADirectory

def list (disk : Disk) (path : Path) : Except Fault (List (FileName × Node)) := do
  match ← disk.resolve path with
  | .file _ | .special _ => .error .notADirectory
  | .directory entries => .ok entries

/-- The names that lead to a path's end, found without looking at the disk. -/
def placeOf (disk : Disk) (path : Path) : List FileName :=
  (path.splitOn Path.slash).foldl
    (fun place name =>
      if name = [] ∨ name = [Path.dot] then place
      else if name = [Path.dot, Path.dot] then place.dropLast
      else place ++ [name])
    (disk.startOf path)

def alter (disk : Disk) (path : Path) (f : Option Node → Option Node) : Disk :=
  { disk with root := disk.root.alter f (disk.placeOf path) }

/-- The disk with a file at a path; missing directories are made. -/
def write (disk : Disk) (path : Path) (content : ByteArray) : Disk := disk.alter path fun _ => some (.file content)

/-- The disk with a directory at a path, unless something is there already. -/
def makeDirectory (disk : Disk) (path : Path) : Disk := disk.alter path fun old => old.getD .emptyDirectory

def remove (disk : Disk) (path : Path) : Disk :=
  if (disk.root.at? (disk.placeOf path)).isSome then disk.alter path fun _ => none else disk

end Disk

def contentOf (path : Path) (loaded : Except Fault ByteArray) : Except Failure Text :=
  match loaded with
  | .error fault => .error (.reading path fault)
  | .ok bytes =>
    match String.fromUTF8? bytes with
    | some text => .ok text.toList
    | none => .error (.encoding path)

def Disk.read (disk : Disk) (path : Path) : Except Failure Text := contentOf path (disk.load path)

end AssetIntegrity
