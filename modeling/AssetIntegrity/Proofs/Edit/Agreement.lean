import AssetIntegrity.Edit.Audit
import AssetIntegrity.Edit.Gate
import AssetIntegrity.Proofs.Check.FileReports
/-!
# Agreement — the gate and the audit see the same

The gate answers with a ruling on the strict report on a file, and the audit speaks of the advisory one, which has the
same messages (`gate_eq`, `audit_eq`).  So whatever one of them has to say, the other one has to say as well, in every
state of the file (`gate_audit_agree`).
-/
namespace AssetIntegrity

open Profile (blocking)

/-! ## The two answers, by the strict report -/

/-- **What the gate answers.** -/
theorem gate_eq (classifier : Classifier) (path : Path) (content : Except Failure Text) :
    gate classifier path content =
      if classifier.accepts path then
        if (blocking.checkContent content).valid then .passed ⟨.allow, (blocking.checkContent content).issues⟩
        else
          .stopped (stopMessage path (((blocking.checkContent content).issues.filter Issue.isError).map Issue.message))
            ⟨.reject, (blocking.checkContent content).issues⟩
      else .notAsset := by
  unfold gate
  split
  · cases hvalid : (blocking.checkContent content).valid <;>
      simp [Ruling.ofReport, Ruling.allows, Ruling.grounds, hvalid]
  · rfl

/-- **What the audit answers**: the messages are those of the strict report. -/
theorem audit_eq (classifier : Classifier) (path : Path) (content : Except Failure Text) :
    audit classifier path content =
      if classifier.accepts path then
        if (blocking.checkContent content).issues = [] then none
        else some (auditMessage path (", ".intercalate ((blocking.checkContent content).issues.map Issue.message)))
      else none := by
  have hmessages : (Profile.advisory.checkContent content).joined ", " =
      ", ".intercalate ((blocking.checkContent content).issues.map Issue.message) :=
    congrArg (", ".intercalate ·) (Profile.messages_checkContent_advisory content)
  have hempty : (Profile.advisory.checkContent content).issues.isEmpty =
      (blocking.checkContent content).issues.isEmpty := by
    rw [Profile.checkContent_advisory, Report.ofIssues, List.isEmpty_map]
  unfold audit
  simp only [hmessages, hempty, List.isEmpty_iff]

theorem gate_eq_notAsset_iff {classifier : Classifier} {path : Path} {content : Except Failure Text} :
    gate classifier path content = .notAsset ↔ classifier.accepts path = false := by
  rw [gate_eq]
  grind

theorem gate_eq_passed_iff {classifier : Classifier} {path : Path} {content : Except Failure Text} {ruling : Ruling} :
    gate classifier path content = .passed ruling ↔
      classifier.accepts path = true ∧ (blocking.checkContent content).valid = true ∧
        ruling = ⟨.allow, (blocking.checkContent content).issues⟩ := by
  rw [gate_eq]
  grind

theorem gate_eq_stopped_iff {classifier : Classifier} {path : Path} {content : Except Failure Text} {message : String}
    {ruling : Ruling} :
    gate classifier path content = .stopped message ruling ↔
      classifier.accepts path = true ∧ (blocking.checkContent content).valid = false ∧
        message = stopMessage path (((blocking.checkContent content).issues.filter Issue.isError).map Issue.message) ∧
        ruling = ⟨.reject, (blocking.checkContent content).issues⟩ := by
  rw [gate_eq]
  grind

/-! ## Their agreement -/

/-- **The audit is silent exactly when the gate has nothing to say.** -/
theorem audit_eq_none_iff (classifier : Classifier) (path : Path) (content : Except Failure Text) :
    audit classifier path content = none ↔
      gate classifier path content = .notAsset ∨
        ∃ ruling, gate classifier path content = .passed ruling ∧ ruling.issues = [] := by
  rw [audit_eq, gate_eq_notAsset_iff]
  simp only [gate_eq_passed_iff]
  cases haccepts : classifier.accepts path with
  | false => exact iff_of_true rfl (.inl rfl)
  | true =>
    by_cases hissues : (blocking.checkContent content).issues = []
    · have hvalid : (blocking.checkContent content).valid = true := by
        rw [blocking.valid_checkContent, hissues]
        exact List.forall_mem_nil _
      refine iff_of_true ?_ (.inr ⟨_, ⟨rfl, hvalid, rfl⟩, hissues⟩)
      rw [if_pos rfl, if_pos hissues]
    · refine iff_of_false ?_ ?_
      · rw [if_pos rfl, if_neg hissues]
        exact Option.some_ne_none _
      · rintro (hasset | ⟨ruling, ⟨-, -, rfl⟩, hnone⟩)
        · cases hasset
        · exact hissues hnone

/-- **What passes with an issue** has warnings about repeated ids only. -/
theorem warning_of_gate_passed {classifier : Classifier} {path : Path} {content : Except Failure Text} {ruling : Ruling}
    (h : gate classifier path content = .passed ruling) :
    ∀ issue ∈ ruling.issues, issue.kind = .duplicateId ∧ issue.severity = .warning := by
  obtain ⟨-, hvalid, rfl⟩ := gate_eq_passed_iff.1 h
  intro issue hissue
  have herror : ¬ issue.isError = true := (blocking.valid_checkContent content).1 hvalid issue hissue
  refine ⟨Profile.kind_of_mem_checkContent_blocking hissue herror, ?_⟩
  cases hseverity : issue.severity with
  | error => exact absurd (decide_eq_true hseverity) herror
  | warning => rfl

/-- **What is stopped has an error.** -/
theorem exists_error_of_gate_stopped {classifier : Classifier} {path : Path} {content : Except Failure Text}
    {message : String} {ruling : Ruling} (h : gate classifier path content = .stopped message ruling) :
    ∃ issue ∈ ruling.issues, issue.severity = .error := by
  obtain ⟨-, hvalid, -, rfl⟩ := gate_eq_stopped_iff.1 h
  refine Decidable.byContradiction fun hnone => ?_
  have hall : (blocking.checkContent content).valid = true :=
    (blocking.valid_checkContent content).2 fun issue hissue herror => hnone ⟨issue, hissue, of_decide_eq_true herror⟩
  rw [hvalid] at hall
  cases hall

/-- **What the audit speaks of is in the gate's ruling.** -/
theorem ruling_of_audit {classifier : Classifier} {path : Path} {content : Except Failure Text} {warning : String}
    (h : audit classifier path content = some warning) :
    ∃ ruling, (gate classifier path content = .passed ruling ∨
        ∃ message, gate classifier path content = .stopped message ruling) ∧
      warning = auditMessage path (", ".intercalate (ruling.issues.map Issue.message)) := by
  rw [audit_eq] at h
  split at h
  · rename_i haccepts
    split at h
    · cases h
    · obtain rfl := Option.some.inj h
      cases hvalid : (blocking.checkContent content).valid with
      | true => exact ⟨_, .inl (gate_eq_passed_iff.2 ⟨haccepts, hvalid, rfl⟩), rfl⟩
      | false => exact ⟨_, .inr ⟨_, gate_eq_stopped_iff.2 ⟨haccepts, hvalid, rfl, rfl⟩⟩, rfl⟩
  · cases h

/-- **The gate and the audit agree on every state of a file**, that is on whatever reading it has given.
- The audit is silent exactly when the gate has nothing to check or passes the edit without an issue.
- An edit that passes with issues has only warnings about repeated ids.
- An edit that is stopped has an error, and the message names the errors in the order of the report.
- When the audit speaks, it names what is in the gate's ruling, all of it and in that order.
- Advice on the file is the strict report with every severity a warning, and the flag found anew.
- On a disk this is so for what the disk holds, and it does not matter who loads the bytes. -/
theorem gate_audit_agree (classifier : Classifier) (path : Path) (content : Except Failure Text) :
    (audit classifier path content = none ↔
      gate classifier path content = .notAsset ∨
        ∃ ruling, gate classifier path content = .passed ruling ∧ ruling.issues = []) ∧
    (∀ ruling, gate classifier path content = .passed ruling →
      ∀ issue ∈ ruling.issues, issue.kind = .duplicateId ∧ issue.severity = .warning) ∧
    (∀ message ruling, gate classifier path content = .stopped message ruling →
      (∃ issue ∈ ruling.issues, issue.severity = .error) ∧
        message = s!"Unity file validation failed for {path.display}: "
          ++ "; ".intercalate ((ruling.issues.filter fun issue => issue.severity = .error).map Issue.message)
          ++ s!". Please fix errors before editing {path.display}.") ∧
    (∀ warning, audit classifier path content = some warning →
      ∃ ruling, (gate classifier path content = .passed ruling ∨
          ∃ message, gate classifier path content = .stopped message ruling) ∧
        warning = s!"Integrity check found issues after editing {path.display}: "
          ++ ", ".intercalate (ruling.issues.map Issue.message)) ∧
    (Profile.ofMode .advisory).checkContent content =
      .ofIssues (((Profile.ofMode .blocking).checkContent content).issues.map fun issue =>
        { issue with severity := .warning }) ∧
    ∀ disk : Disk, disk.read path = content →
      disk.gate classifier path = gate classifier path content ∧
      disk.audit classifier path = audit classifier path content ∧
      ∀ mode, (Profile.ofMode mode).checkFile disk path = (Profile.ofMode mode).checkContent content ∧
        (Profile.ofMode mode).checkLoaded path (disk.load path) = (Profile.ofMode mode).checkFile disk path := by
  refine ⟨audit_eq_none_iff classifier path content, fun _ => warning_of_gate_passed, fun message ruling h => ?_,
    fun warning h => ruling_of_audit h, Profile.checkContent_advisory content, ?_⟩
  · refine ⟨exists_error_of_gate_stopped h, ?_⟩
    obtain ⟨-, -, rfl, rfl⟩ := gate_eq_stopped_iff.1 h
    rfl
  · rintro disk rfl
    exact ⟨rfl, rfl, fun mode => ⟨rfl, (Profile.ofMode mode).checkLoaded_eq path (disk.load path)⟩⟩

end AssetIntegrity
