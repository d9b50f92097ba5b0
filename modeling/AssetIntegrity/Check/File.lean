import AssetIntegrity.Check.Profile
import AssetIntegrity.Disk.Basic
/-!
# Files — checking what stands on a disk

There is nothing wrong with a file that is not there yet.  Any other failure to read it is the only issue of its report.

* `Profile.checkContent`: the report on what reading a file has given.
* `Profile.checkFile`: the report on a file.
* `Profile.checkLoaded`: the report on a file whose bytes the caller has loaded, at any time and by any means.
-/
namespace AssetIntegrity
namespace Profile

def checkContent (profile : Profile) (content : Except Failure Text) : Report :=
  match content with
  | .ok text => profile.check text
  | .error failure =>
    if failure.isMissing then .clean else .ofIssues [(Finding.unreadable failure).issue profile.mode]

def checkFile (profile : Profile) (disk : Disk) (path : Path) : Report := profile.checkContent (disk.read path)

/-- The report on a file, given what loading its bytes has given. -/
def checkLoaded (profile : Profile) (path : Path) (loaded : Except Fault ByteArray) : Report :=
  let content : Except Failure String :=
    match loaded with
    | .ok bytes =>
      match String.fromUTF8? bytes with
      | some text => .ok text
      | none => .error (.encoding path)
    | .error fault => .error (.reading path fault)
  match content with
  | .ok text => profile.check text.toList
  | .error failure =>
    if failure.isMissing then .clean else .ofIssues [(Finding.unreadable failure).issue profile.mode]

end Profile
end AssetIntegrity
