import AssetIntegrity.Finding.Issue
import AssetIntegrity.Text.Lines
/-!
# Findings — what is wrong with a stream, and why

A finding holds the cause; its kind, its message, the document concerned and its severity are functions of the cause.
Only a broken reference and an unreadable file weigh differently in the two modes, and a repeated id is never an error.
-/
namespace AssetIntegrity

def formatHeader : String := "%YAML"

def tagDirective : String := "%TAG !u! tag:unity3d.com"

/-- One thing that is wrong. -/
inductive Finding where
  | missingHeader
  | missingTag
  | noMarkers
  /-- An id is declared again. -/
  | duplicateId (id : String) (here first : Position)
  /-- A document points at an id that nothing declares; `label` names the document. -/
  | brokenReference (source label target : String)
  /-- A GUID value is not a GUID. -/
  | invalidGuid (value : String) (owner : Option String)
  /-- The content could not be read. -/
  | unreadable (cause : Failure)
deriving DecidableEq

namespace Finding

def kind : Finding → Kind
  | missingHeader => .missingHeader
  | missingTag => .missingTag
  | noMarkers => .noMarkers
  | duplicateId .. => .duplicateId
  | brokenReference .. => .brokenReference
  | invalidGuid .. => .invalidGuid
  | unreadable _ => .unreadable

def message : Finding → String
  | missingHeader => s!"Missing Unity YAML header: content must start with '{formatHeader}'"
  | missingTag => s!"Missing Unity tag directive '{tagDirective}'"
  | noMarkers => "No Unity document markers found (expected '--- !u!<class> &<id>')"
  | duplicateId id here first =>
    s!"Duplicate document ID {id} at line {here.line} (offset {here.offset}), "
      ++ s!"first declared at line {first.line} (offset {first.offset})"
  | brokenReference _ label target =>
    s!"Broken reference in {label}: fileID {target} does not match any document"
  | invalidGuid value _ => s!"Invalid GUID format: {value}"
  | unreadable cause => cause.message

def documentId : Finding → Option String
  | duplicateId id .. => some id
  | brokenReference source .. => some source
  | invalidGuid _ owner => owner
  | _ => none

/-- How serious a finding is, before an advisory check turns everything into warnings. -/
def severity (mode : Mode) : Finding → Severity
  | duplicateId .. => .warning
  | brokenReference .. => mode.severity
  | unreadable _ => mode.severity
  | _ => .error

def issue (mode : Mode) (finding : Finding) : Issue :=
  ⟨finding.kind, finding.severity mode, finding.message, finding.documentId⟩

end Finding
end AssetIntegrity
