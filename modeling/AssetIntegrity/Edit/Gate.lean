import AssetIntegrity.Check.File
import AssetIntegrity.Path.Classifier
/-!
# The gate — a check before an edit

The file that is about to be edited is checked as it stands.  An error in it stops the edit, and the message names every
error in the order of the report.
-/
namespace AssetIntegrity

/-- What the gate says about an edit. -/
inductive GateAnswer where
  /-- The path does not name an asset, so nothing was checked. -/
  | notAsset
  | passed (ruling : Ruling)
  | stopped (message : String) (ruling : Ruling)
deriving DecidableEq

namespace GateAnswer

def stopsEdit : GateAnswer → Bool
  | stopped .. => true
  | _ => false

end GateAnswer

def stopMessage (path : Path) (grounds : List String) : String :=
  s!"Unity file validation failed for {path.display}: " ++ "; ".intercalate grounds
    ++ s!". Please fix errors before editing {path.display}."

def gate (classifier : Classifier) (path : Path) (content : Except Failure Text) : GateAnswer :=
  if classifier.accepts path then
    let ruling := Ruling.ofReport (Profile.blocking.checkContent content)
    if ruling.allows then .passed ruling else .stopped (stopMessage path ruling.grounds) ruling
  else .notAsset

def Disk.gate (disk : Disk) (classifier : Classifier) (path : Path) : GateAnswer :=
  AssetIntegrity.gate classifier path (disk.read path)

end AssetIntegrity
