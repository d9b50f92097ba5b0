import AssetIntegrity.CommandLine.Listing
import AssetIntegrity.Disk.Assets
import AssetIntegrity.Edit.Audit
import AssetIntegrity.Edit.Gate
/-!
# Runs — what a command answers

A command is run on a disk and answers with an exit status and two texts.  It changes nothing.

* `Command.run`: the answer to a command.
* `runArguments`: the answer to a command line.
-/
namespace AssetIntegrity

/-- The answer of a program. -/
structure Outcome where
  exit : Nat
  output : String := ""
  errors : String := ""
deriving DecidableEq

namespace CheckRequest

/-- The classifier that a request asks for. -/
def classifier (request : CheckRequest) : Classifier := .standardAnd request.extensions

def skipLine (path : Path) : String := s!"⚠ Skipping non-Unity file: {path.display}\n"

/-- The message that a directory could not be searched. -/
def searchMessage (directory : Path) (failure : Failure) : String :=
  failureMessage s!"Failed to scan directory {directory.display}" failure.causes

/-- The files that each path stands for, in order, unless this fails for one of them. -/
def collect (filesOf : Path → Except String (List Path)) : List Path → Except String (List Path)
  | [] => .ok []
  | path :: rest => do
    let files ← filesOf path
    return files ++ (← collect filesOf rest)

section Classified

variable (request : CheckRequest) (classifier : Classifier) (disk : Disk) (levels : Option Nat := none)

def admits (path : Path) : Bool := request.allExtensions || classifier.accepts path

/-- The files to check for one path: the assets below a directory, or the file itself. -/
def targetsOf (path : Path) : Except String (List Path) :=
  if disk.isDirectory path then (disk.assets classifier path levels).mapError (searchMessage path)
  else .ok (if request.admits classifier path then [path] else [])

def targets : Except String (List Path) := collect (request.targetsOf classifier disk levels) request.paths

def skips (path : Path) : Bool := !disk.isDirectory path && !request.admits classifier path

/-- The paths that are passed over, as far as it comes to them. -/
def skipped : List Path :=
  (request.paths.takeWhile fun path => (request.targetsOf classifier disk levels path).isOk).filter
    (request.skips classifier disk)

def listing : Except String Listing :=
  (request.targets classifier disk levels).map fun files =>
    files.map fun path => ⟨path, request.profile.checkFile disk path⟩

/-- The answer to a request when assets are known by a classifier. -/
def runWith : Outcome :=
  let notes := String.join ((request.skipped classifier disk levels).map skipLine)
  match request.listing classifier disk levels with
  | .error message => ⟨1, "", notes ++ message⟩
  | .ok listing =>
    match listing.render request.format with
    | .ok text => ⟨if listing.isValid then 0 else 1, text, notes⟩
    | .error message => ⟨1, "", notes ++ message⟩

end Classified

def run (request : CheckRequest) (disk : Disk) (levels : Option Nat := none) : Outcome :=
  request.runWith request.classifier disk levels

end CheckRequest

def runGate (disk : Disk) (path : Path) : Outcome :=
  match disk.gate .standard path with
  | .stopped message _ => { exit := 1, errors := message ++ "\n" }
  | _ => { exit := 0 }

def runAudit (disk : Disk) (path : Path) : Outcome :=
  match disk.audit .standard path with
  | some warning => { exit := 0, output := s!"Warning: {warning}\n" }
  | none => { exit := 0 }

def Command.run (disk : Disk) : Command → Outcome
  | .check request => request.run disk
  | .gate path => runGate disk path
  | .audit path => runAudit disk path

def versionLine : String := "unity-guard 0.1.0\n"

def usageText : String :=
  "Usage: unity-guard [-v] [--log-json] check [-m MODE] [-f FORMAT] [--skip-guids] [--skip-references]\n"
    ++ "                   [--all-extensions] [--extension EXT]... PATH...\n"
    ++ "       unity-guard [-v] [--log-json] gate PATH\n"
    ++ "       unity-guard [-v] [--log-json] audit PATH\n"

def Stop.outcome : Stop → Outcome
  | .usage => { exit := 2, errors := usageText }
  | .version => { exit := 0, output := versionLine }
  | .help => { exit := 0, output := usageText }

def runArguments (disk : Disk) (arguments : List Argument) : Outcome :=
  match Invocation.parse arguments with
  | .ok invocation => invocation.command.run disk
  | .error stop => stop.outcome

end AssetIntegrity
