import AssetIntegrity.Finding.Issue
/-!
# Reports and rulings — the outcome of a check

A report is a list of issues with a flag beside it that says whether the content is valid.  A ruling on a write follows
the flag.

* `Report.valid_ofIssues`: in a report made of issues, the flag holds exactly when no issue is an error.
-/
namespace AssetIntegrity

/-- The outcome of one check.  A report that nothing has filled is not valid. -/
structure Report where
  valid : Bool := false
  issues : List Issue := []
deriving DecidableEq, Inhabited

namespace Report

def ofIssues (issues : List Issue) : Report := ⟨!issues.any Issue.isError, issues⟩

theorem valid_ofIssues {issues : List Issue} :
    (ofIssues issues).valid = true ↔ ∀ issue ∈ issues, ¬ issue.isError := by
  simp [ofIssues]

def clean : Report := ofIssues []

def countErrors (report : Report) : Nat := report.issues.countP Issue.isError

def countWarnings (report : Report) : Nat := report.issues.length - report.countErrors

def messages (report : Report) : List String := report.issues.map Issue.message

def joined (report : Report) (separator : String) : String := separator.intercalate report.messages

def ofKind (report : Report) (kind : Kind) : List Issue := report.issues.filter fun issue => issue.kind = kind

end Report

/-- Whether a write may go on. -/
inductive Verdict where
  | allow
  | reject
deriving DecidableEq

structure Ruling where
  verdict : Verdict
  issues : List Issue
deriving DecidableEq

namespace Ruling

def nothingFound : Ruling := ⟨.allow, []⟩

def ofReport (report : Report) : Ruling := ⟨if report.valid then .allow else .reject, report.issues⟩

def allows (ruling : Ruling) : Bool := ruling.verdict = .allow

def grounds (ruling : Ruling) : List String := (ruling.issues.filter Issue.isError).map Issue.message

end Ruling
end AssetIntegrity
