import AssetIntegrity.Proofs.Check.FileReports
import AssetIntegrity.Proofs.Finding.Encoding
/-!
# Flags — when the flag of a report tells the truth about its issues

The flag of a report stands beside its issues, so each way in which a report comes about (`Report.Origin`) has to keep
the two in step.  A report that is made of issues, be they given or found in a text or a file, is truthful
(`Report.truthful_ofIssues`).  A report that nothing has filled is not: it is not valid and has no issue.  A report that
is read from a value has the flag that is written there (`Report.IsForm.flag?`), whatever its issues are.

A ruling follows the flag alone, so it is right exactly when the report is truthful
(`Ruling.reject_iff_error_iff_truthful`).
-/
namespace AssetIntegrity

/-! ## Values of reports -/

namespace Data

/-- The flag in a value that is read as a report. -/
def flag? : Data → Option Bool
  | .record members => (members.lookup "valid").bind bool?
  | .list [valid, _] => valid.bool?
  | _ => none

/-- The values of the issues in a value that is read as a report. -/
def items : Data → List Data
  | .record members =>
    match members.lookup "issues" with
    | some (.list items) => items
    | _ => []
  | .list [_, .list items] => items
  | _ => []

/-- Whether a value that is read as an issue gives it the severity of an error. -/
def isErrorForm : Data → Bool
  | .record members => (members.lookup "severity").bind name? = some Severity.error.name
  | .list [_, severity, _, _] => severity.name? = some Severity.error.name
  | _ => false

end Data

theorem Severity.name_eq_iff {severity severity' : Severity} :
    severity.name = severity'.name ↔ severity = severity' := by
  cases severity <;> cases severity' <;> decide

theorem Issue.IsForm.isErrorForm_eq {issue : Issue} {value : Data} (h : issue.IsForm value) :
    value.isErrorForm = issue.isError := by
  have hseverity : ∀ {part : Data}, part.IsName issue.severity.name →
      decide (part.name? = some Severity.error.name) = issue.isError := by
    intro part hpart
    rw [Issue.isError, decide_eq_decide, Data.name?_eq_some_iff.2 hpart, Option.some.injEq, Severity.name_eq_iff]
  cases h with
  | record _ hmember _ hparts =>
    rw [Data.isErrorForm, hmember]
    exact hseverity hparts.severity
  | list hparts => exact hseverity hparts.severity

namespace Report

/-- Whether the flag says what the issues say: the content is valid exactly when no issue is an error. -/
def Truthful (report : Report) : Prop := report.valid = true ↔ ∀ issue ∈ report.issues, ¬ issue.isError

variable {report : Report}

theorem truthful_iff : report.Truthful ↔ report.valid = !report.issues.any Issue.isError := by
  have hflag : (!report.issues.any Issue.isError) = true ↔ ∀ issue ∈ report.issues, ¬ issue.isError := by simp
  unfold Truthful
  rw [← hflag]
  exact Bool.eq_iff_iff.symm

theorem truthful_ofIssues (issues : List Issue) : (ofIssues issues).Truthful := valid_ofIssues

theorem IsForm.flag? {value : Data} (h : report.IsForm value) : value.flag? = some report.valid := by
  cases h with
  | record hvalid _ _ =>
    rw [Data.flag?, hvalid]
    rfl
  | list _ => rfl

theorem IsForm.items {value : Data} (h : report.IsForm value) :
    List.Forall₂ Issue.IsForm report.issues value.items := by
  cases h with
  | record _ hissues hforms =>
    rw [Data.items, hissues]
    exact hforms
  | list hforms => exact hforms

theorem IsForm.any_isErrorForm {value : Data} (h : report.IsForm value) :
    value.items.any Data.isErrorForm = report.issues.any Issue.isError := by
  have hitems := h.items
  generalize value.items = items, report.issues = issues at hitems
  induction hitems with
  | nil => rfl
  | cons hissue _ ih => rw [List.any_cons, List.any_cons, hissue.isErrorForm_eq, ih]

end Report

namespace Ruling

theorem verdict_ofReport_eq_reject_iff {report : Report} :
    (ofReport report).verdict = .reject ↔ report.valid = false := by
  unfold ofReport
  cases report.valid <;> simp

/-- **A ruling is right exactly when the flag of its report tells the truth.** -/
theorem reject_iff_error_iff_truthful {report : Report} :
    ((ofReport report).verdict = .reject ↔ ∃ issue ∈ report.issues, issue.isError) ↔ report.Truthful := by
  rw [verdict_ofReport_eq_reject_iff, Report.truthful_iff, ← List.any_eq_true]
  cases report.valid <;> cases report.issues.any Issue.isError <;> decide

theorem grounds_ne_nil_iff {report : Report} :
    (ofReport report).grounds ≠ [] ↔ ∃ issue ∈ report.issues, issue.isError := by
  unfold grounds ofReport
  rw [ne_eq, List.map_eq_nil_iff, List.filter_eq_nil_iff]
  push Not
  rfl

end Ruling

namespace Report

/-! ## The ways to a report -/

/-- A way in which a report comes about. -/
inductive Origin where
  /-- From issues, whatever they are. -/
  | issues (found : List Issue)
  /-- From the absence of anything to check. -/
  | nothing
  /-- From nothing at all. -/
  | unfilled
  | text (profile : Profile) (content : Text)
  | file (profile : Profile) (disk : Disk) (path : Path)
  | loaded (profile : Profile) (path : Path) (bytes : Except Fault ByteArray)
  /-- From a value that may have the form of a report. -/
  | data (value : Data)

namespace Origin

def report? : Origin → Option Report
  | issues found => some (ofIssues found)
  | nothing => some clean
  | unfilled => some default
  | text profile content => some (profile.check content)
  | file profile disk path => some (profile.checkFile disk path)
  | loaded profile path bytes => some (profile.checkLoaded path bytes)
  | data value => Report.ofData? value

/-- Whether a report that comes about in this way has the flag that goes with its issues. -/
def Honest : Origin → Prop
  | unfilled => False
  | data value => value.flag? = some !value.items.any Data.isErrorForm
  | _ => True

theorem truthful_iff_honest {origin : Origin} {report : Report} (h : origin.report? = some report) :
    report.Truthful ↔ origin.Honest := by
  cases origin with
  | issues found =>
    obtain rfl := Option.some.inj h
    exact iff_true_intro (truthful_ofIssues found)
  | nothing =>
    obtain rfl := Option.some.inj h
    exact iff_true_intro (truthful_ofIssues [])
  | unfilled =>
    obtain rfl := Option.some.inj h
    exact iff_false_intro (by rw [truthful_iff]; decide)
  | text profile content =>
    obtain rfl := Option.some.inj h
    exact iff_true_intro valid_ofIssues
  | file profile disk path =>
    obtain rfl := Option.some.inj h
    exact iff_true_intro (profile.valid_checkContent _)
  | loaded profile path bytes =>
    obtain rfl := Option.some.inj h
    rw [profile.checkLoaded_eq]
    exact iff_true_intro (profile.valid_checkContent _)
  | data value =>
    have hform : report.IsForm value := Report.ofData?_eq_some_iff.1 h
    rw [truthful_iff, Honest, hform.flag?, hform.any_isErrorForm, Option.some.injEq]

/-- **Every way to a report but two keeps its flag in step with its issues.**  A report that nothing has filled never
tells the truth, and one that is read from a value tells the truth exactly when the value does.  Where a report tells
the truth, and only there, a ruling on it is a rejection exactly when it has an error; then a rejection has a ground. -/
theorem truthful_of_origin (origin : Origin) (report : Report) (h : origin.report? = some report) :
    (report.Truthful ↔ origin.Honest) ∧
    (((Ruling.ofReport report).verdict = .reject ↔ ∃ issue ∈ report.issues, issue.isError) ↔ origin.Honest) ∧
    (origin.Honest → (Ruling.ofReport report).verdict = .reject → (Ruling.ofReport report).grounds ≠ []) := by
  have htruthful := truthful_iff_honest h
  refine ⟨htruthful, Ruling.reject_iff_error_iff_truthful.trans htruthful, fun hhonest hreject => ?_⟩
  rw [Ruling.grounds_ne_nil_iff]
  exact (Ruling.reject_iff_error_iff_truthful.2 (htruthful.2 hhonest)).1 hreject

/-- A value that says what its issue says. -/
def rejected : Data :=
  .list [.bool false, .list [.list [.record [("BrokenReference", .null)], .text "error", .text "m", .text "7"]]]

/-- A value that passes an error off as valid. -/
def passedOff : Data :=
  .record [("valid", .bool true), ("issues", .list [.record [("kind", .text "BrokenReference"),
    ("severity", .text "error"), ("message", .text "m"), ("documentId", .null)]])]

theorem truthful_of_rejected :
    (data rejected).report? = some ⟨false, [⟨.brokenReference, .error, "m", some "7"⟩]⟩ ∧ (data rejected).Honest ∧
      Truthful ⟨false, [⟨.brokenReference, .error, "m", some "7"⟩]⟩ := by
  have hread : (data rejected).report? = some ⟨false, [⟨.brokenReference, .error, "m", some "7"⟩]⟩ := by decide +kernel
  have hhonest : rejected.flag? = some !rejected.items.any Data.isErrorForm := by decide +kernel
  exact ⟨hread, hhonest, (truthful_of_origin _ _ hread).1.2 hhonest⟩

/-- **Two ways to a report mislead a ruling.**  What nothing has filled is rejected without a ground, and what is read
from a value may be let through with an error. -/
theorem flags_mislead :
    (¬ ∀ (origin : Origin) (report : Report), origin.report? = some report → report.Truthful) ∧
    (¬ (default : Report).Truthful ∧ (Ruling.ofReport default).verdict = .reject ∧
      (Ruling.ofReport default).grounds = []) ∧
    ∃ report, Report.ofData? passedOff = some report ∧ ¬ report.Truthful ∧
      (Ruling.ofReport report).verdict = .allow ∧ ∃ issue ∈ report.issues, issue.isError := by
  have hunfilled : unfilled.report? = some default := rfl
  have hdefault : ¬ (default : Report).Truthful := (truthful_iff_honest hunfilled).1
  have hread : Report.ofData? passedOff = some ⟨true, [⟨.brokenReference, .error, "m", none⟩]⟩ := by decide +kernel
  refine ⟨fun h => hdefault (h unfilled default rfl), ⟨hdefault, rfl, rfl⟩, _, hread, ?_, rfl, ?_⟩
  · rw [truthful_iff]
    decide
  · exact ⟨_, List.mem_singleton_self _, rfl⟩

end Origin
end Report
end AssetIntegrity
