import AssetIntegrity.CommandLine.Log
/-!
# The program

What the arguments name is copied from the disk into a value, the command is run on that value, and its answer is
written.  Nothing is decided here.
-/
namespace AssetIntegrity

def bytesOf (word : String) : Path := Utf8.encode word

partial def copyEntry (entry : IO.FS.DirEntry) : IO (FileName × Node) := do
  let name := bytesOf entry.fileName
  match (← entry.path.metadata).type with
  | .dir => return (name, .directory (← (← entry.path.readDir).toList.mapM copyEntry))
  | .file => return (name, .file (← IO.FS.readBinFile entry.path))
  -- a search passes over anything else, and to read it might never end
  | .symlink | .other => return (name, .special (.error (.other false "Not a regular file")))

def copyPath (disk : Disk) (path : String) : IO Disk := do
  let place := (← IO.currentDir) / path
  if ← place.isDir then
    let entries ← (← place.readDir).toList.mapM copyEntry
    return disk.alter (bytesOf path) fun _ => some (.directory entries)
  else if ← place.pathExists then
    let content ← IO.FS.readBinFile place
    let node : Node := if (← place.metadata).type == .file then .file content else .special (.ok content)
    return disk.alter (bytesOf path) fun _ => some node
  else return disk

/-- The disk with every directory that a path leads through, and with what stands at its end. -/
def copyRoute (disk : Disk) (path : String) : IO Disk := do
  let names := path.splitOn "/"
  let mut disk := disk
  for length in List.range names.length do
    let front := "/".intercalate (names.take length) ++ "/"
    if ← ((← IO.currentDir) / front).isDir then disk := disk.makeDirectory (bytesOf front)
  copyPath disk path

def emptyDisk : IO Disk := do
  let here := bytesOf (← IO.currentDir).toString
  let blank : Disk := ⟨.emptyDirectory, []⟩
  return { blank.makeDirectory here with workingDirectory := blank.placeOf here }

def Command.paths : Command → List Path
  | .check request => request.paths
  | .gate path => [path]
  | .audit path => [path]

end AssetIntegrity

open AssetIntegrity in
def main (arguments : List String) : IO UInt32 := do
  let words := arguments.map bytesOf
  let mut disk ← emptyDisk
  if let .ok invocation := Invocation.parse words then
    for path in invocation.command.paths do
      if let some text := Utf8.decode? path then disk ← copyRoute disk text
    IO.eprint (invocation.log disk)
  let outcome := runArguments disk words
  IO.print outcome.output
  IO.eprint outcome.errors
  return UInt32.ofNat outcome.exit
