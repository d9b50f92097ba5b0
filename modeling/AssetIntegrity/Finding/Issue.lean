import AssetIntegrity.Disk.Fault
/-!
# Issues — findings as they are reported

An issue is what a reader of a report sees: a kind, a severity, a message and the id of the document concerned.
-/
namespace AssetIntegrity

inductive Severity where
  | error
  | warning
deriving DecidableEq

def Severity.name : Severity → String
  | error => "error"
  | warning => "warning"

inductive Mode where
  /-- It decides on a write that is still to come: errors reject it. -/
  | blocking
  /-- It comments on a write that is done: there are only warnings. -/
  | advisory
deriving DecidableEq, Inhabited

namespace Mode

def name : Mode → String
  | blocking => "blocking"
  | advisory => "advisory"

def parse (word : String) : Except Failure Mode :=
  let lower := word.toLower
  if lower = "blocking" || lower = "block" then .ok .blocking
  else if lower = "advisory" || lower = "advise" then .ok .advisory
  else .error (.configuration s!"unknown validation mode '{lower}', expected blocking or advisory")

/-- The severity of what is an error only as long as a write can be rejected. -/
def severity : Mode → Severity
  | blocking => .error
  | advisory => .warning

end Mode

/-- What is wrong, in one of seven ways. -/
inductive Kind where
  | missingHeader
  | missingTag
  | noMarkers
  | duplicateId
  | brokenReference
  | invalidGuid
  | unreadable
deriving DecidableEq

namespace Kind

def name : Kind → String
  | missingHeader => "MissingFormatHeader"
  | missingTag => "MissingTagDirective"
  | noMarkers => "NoDocumentMarkers"
  | duplicateId => "DuplicateDocumentID"
  | brokenReference => "BrokenReference"
  | invalidGuid => "InvalidGUIDFormat"
  | unreadable => "IOError"

def all : List Kind :=
  [missingHeader, missingTag, noMarkers, duplicateId, brokenReference, invalidGuid, unreadable]

def ofName? (name : String) : Option Kind := all.find? fun kind => kind.name = name

theorem ofName?_name (kind : Kind) : ofName? kind.name = some kind := by
  cases kind <;> simp [ofName?, all, name, List.find?]

end Kind

structure Issue where
  kind : Kind
  severity : Severity
  message : String
  documentId : Option String
deriving DecidableEq

namespace Issue

def isError (issue : Issue) : Bool := issue.severity = .error

def regraded (issue : Issue) (severity : Severity) : Issue := { issue with severity }

def render (issue : Issue) : String := s!"[{issue.severity.name}] {issue.kind.name}: {issue.message}"

end Issue
end AssetIntegrity
