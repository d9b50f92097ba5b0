import AssetIntegrity.Data.Basic
import AssetIntegrity.Edit.Audit
import AssetIntegrity.Edit.Gate
/-!
# Events — what a log says about a check

A check leaves a trace that depends on its input alone, so the events of each step are a function beside it.
-/
namespace AssetIntegrity

inductive Level where
  | debug
  | info
  | warn
deriving DecidableEq

inductive Event where
  /-- The check of a text begins. -/
  | checking (bytes : Nat) (mode : Mode)
  | scanned (documents preambleBytes : Nat)
  | indexed (documents references guids duplicates : Nat)
  /-- A write is rejected because of the text that it would change. -/
  | rejected (grounds : Nat)
  /-- There is no file yet. -/
  | missingFile (path : Path)
  | blockedEdit (path : Path)
  | auditedEdit (path : Path) (warnings : Nat)
deriving DecidableEq

namespace Event

def level : Event → Level
  | checking .. => .info
  | scanned .. => .debug
  | indexed .. => .debug
  | rejected _ => .warn
  | missingFile _ => .debug
  | blockedEdit _ => .warn
  | auditedEdit .. => .info

def message : Event → String
  | checking .. => "validate"
  | scanned .. => "scanned Unity document stream"
  | indexed .. => "built reference graph"
  | rejected _ => "blocking validation rejected content"
  | missingFile _ => "file does not exist yet, nothing to validate"
  | blockedEdit _ => "blocking write to corrupted Unity file"
  | auditedEdit .. => "integrity warnings after edit"

def fields : Event → List (String × Data)
  | checking bytes mode => [("bytes", .number bytes), ("mode", .text mode.name)]
  | scanned documents preambleBytes => [("documents", .number documents), ("preamble_bytes", .number preambleBytes)]
  | indexed documents references guids duplicates =>
    [("documents", .number documents), ("references", .number references), ("guids", .number guids),
      ("duplicates", .number duplicates)]
  | rejected grounds => [("reasons", .number grounds)]
  | missingFile path => [("path", .text path.display)]
  | blockedEdit path => [("path", .text path.display)]
  | auditedEdit path warnings => [("path", .text path.display), ("warnings", .number warnings)]

def ofScan (text : Text) : Event :=
  let stream := Stream.ofText text
  .scanned stream.documents.length stream.preamble.byteLength

def ofIndex (stream : Stream) : Event :=
  let index := Index.ofStream stream
  .indexed index.documents.entries.length index.referenceCount index.guids.length stream.repeats.length

def ofCheck (profile : Profile) (text : Text) : List Event :=
  [.checking text.byteLength profile.mode, ofScan text, ofIndex (Stream.ofText text)]

def ofGateText (text : Text) : List Event :=
  let ruling := gateText text
  ofCheck .blocking text ++ if ruling.allows then [] else [.rejected ruling.grounds.length]

/-- The events of checking what reading a file has given, when the bytes were loaded for this check. -/
def ofContent (profile : Profile) (content : Except Failure Text) : List Event :=
  match content with
  | .ok text => ofCheck profile text
  | .error (.reading path fault) => if fault.isMissing then [.missingFile path] else []
  | .error _ => []

def ofLoaded (profile : Profile) (content : Except Failure Text) : List Event :=
  match content with
  | .ok text => ofCheck profile text
  | .error _ => []

def ofGate (classifier : Classifier) (path : Path) (content : Except Failure Text) : List Event :=
  match AssetIntegrity.gate classifier path content with
  | .notAsset => []
  | .passed _ => ofContent .blocking content
  | .stopped .. => ofContent .blocking content ++ [.blockedEdit path]

def ofAudit (classifier : Classifier) (path : Path) (content : Except Failure Text) : List Event :=
  if classifier.accepts path then
    let report := Profile.advisory.checkContent content
    ofContent .advisory content ++ if report.issues.isEmpty then [] else [.auditedEdit path report.issues.length]
  else []

end Event
end AssetIntegrity
