import AssetIntegrity.Check.File
import AssetIntegrity.Path.Classifier
/-!
# The audit — a check after an edit

The file that was edited is checked as it stands.  The edit is done, so the audit only says what it has found.
-/
namespace AssetIntegrity

/-- The warning about an edit after which a report has these messages. -/
def auditMessage (path : Path) (messages : String) : String :=
  s!"Integrity check found issues after editing {path.display}: {messages}"

/-- The warning about an edit, if any, given what reading the file has given. -/
def audit (classifier : Classifier) (path : Path) (content : Except Failure Text) : Option String :=
  if classifier.accepts path then
    let report := Profile.advisory.checkContent content
    if report.issues.isEmpty then none else some (auditMessage path (report.joined ", "))
  else none

def Disk.audit (disk : Disk) (classifier : Classifier) (path : Path) : Option String :=
  AssetIntegrity.audit classifier path (disk.read path)

end AssetIntegrity
