import AssetIntegrity.Data.Basic
import AssetIntegrity.Finding.Report
/-!
# Encoding — findings as plain values and back

A name stands for itself, or as the only member of a record, with no value.  An issue or a report is read from a record,
where other members do not matter and the document may be left out, or from a list of its parts in order.
-/
namespace AssetIntegrity

def Data.name? : Data → Option String
  | .text name => some name
  | .record [(name, .null)] => some name
  | _ => none

def Data.text? : Data → Option String
  | .text value => some value
  | _ => none

def Data.bool? : Data → Option Bool
  | .bool value => some value
  | _ => none

def Data.optionalText? : Data → Option (Option String)
  | .null => some none
  | .text value => some (some value)
  | _ => none

def Kind.ofData? (value : Data) : Option Kind := value.name?.bind Kind.ofName?

def Kind.toData (kind : Kind) : Data := .text kind.name

def Severity.ofData? (value : Data) : Option Severity :=
  value.name?.bind fun name =>
    if name = "error" then some .error else if name = "warning" then some .warning else none

def Severity.toData (severity : Severity) : Data := .text severity.name

def Mode.ofData? (value : Data) : Option Mode :=
  value.name?.bind fun name =>
    if name = "blocking" then some .blocking else if name = "advisory" then some .advisory else none

def Mode.toData (mode : Mode) : Data := .text mode.name

namespace Issue

def toData (issue : Issue) : Data :=
  .record [("kind", issue.kind.toData), ("severity", issue.severity.toData), ("message", .text issue.message),
    ("documentId", .ofText? issue.documentId)]

def ofParts? (kind severity message documentId : Data) : Option Issue := do
  let kind ← Kind.ofData? kind
  let severity ← Severity.ofData? severity
  let message ← message.text?
  let documentId ← documentId.optionalText?
  return ⟨kind, severity, message, documentId⟩

def ofData? : Data → Option Issue
  | .record members => do
    let kind ← members.lookup "kind"
    let severity ← members.lookup "severity"
    let message ← members.lookup "message"
    ofParts? kind severity message ((members.lookup "documentId").getD .null)
  | .list [kind, severity, message, documentId] => ofParts? kind severity message documentId
  | _ => none

end Issue

namespace Report

def members (report : Report) : List (String × Data) :=
  [("valid", .bool report.valid), ("issues", .list (report.issues.map Issue.toData))]

def toData (report : Report) : Data := .record report.members

def issuesOfData? : Data → Option (List Issue)
  | .list items => items.mapM Issue.ofData?
  | _ => none

def ofParts? (valid issues : Data) : Option Report := do
  let valid ← valid.bool?
  let issues ← issuesOfData? issues
  return ⟨valid, issues⟩

def ofData? : Data → Option Report
  | .record members => do
    let valid ← members.lookup "valid"
    let issues ← members.lookup "issues"
    ofParts? valid issues
  | .list [valid, issues] => ofParts? valid issues
  | _ => none

end Report
end AssetIntegrity
