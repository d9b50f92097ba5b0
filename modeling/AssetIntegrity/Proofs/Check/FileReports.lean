import AssetIntegrity.Check.File
import AssetIntegrity.Proofs.Check.Kinds
/-!
# File reports — what a check says about a file in every state

A file that is missing has no findings, one that cannot be read has one, and any other has those of its text
(`Profile.contentFindings`).  Every report has one issue for each finding and the flag that goes with them
(`Profile.checkContent_eq`), so that
- the same is reported when the caller has loaded the bytes (`Profile.checkLoaded_eq`);
- an advisory report is always valid (`Profile.valid_checkContent_of_advisory`);
- the warnings of a blocking report are the repeated ids (`Profile.kind_of_mem_checkContent_blocking`);
- the advisory report is the blocking one with every severity a warning (`Profile.checkContent_advisory`).
-/
namespace AssetIntegrity
namespace Profile

/-- What is wrong with a file, given what reading it has given. -/
def contentFindings (profile : Profile) (content : Except Failure Text) : List Finding :=
  match content with
  | .ok text => profile.findings text
  | .error failure => if failure.isMissing then [] else [.unreadable failure]

theorem issueOf_unreadable (profile : Profile) (failure : Failure) :
    profile.issueOf (.unreadable failure) = (Finding.unreadable failure).issue profile.mode := by
  unfold issueOf severityOf Finding.issue
  cases profile.mode <;> rfl

/-- **A report on a file in any state** is made of its findings. -/
theorem checkContent_eq (profile : Profile) (content : Except Failure Text) :
    profile.checkContent content = .ofIssues ((profile.contentFindings content).map profile.issueOf) := by
  unfold checkContent contentFindings
  cases content with
  | ok text =>
    have hissues := profile.issues_check text
    unfold check at hissues ⊢
    exact congrArg Report.ofIssues hissues
  | error failure =>
    dsimp only
    by_cases hmissing : failure.isMissing = true
    · rw [if_pos hmissing, if_pos hmissing]
      rfl
    · rw [if_neg hmissing, if_neg hmissing, List.map_singleton, issueOf_unreadable]

theorem issues_checkContent (profile : Profile) (content : Except Failure Text) :
    (profile.checkContent content).issues = (profile.contentFindings content).map profile.issueOf := by
  rw [checkContent_eq]
  rfl

theorem valid_checkContent (profile : Profile) (content : Except Failure Text) :
    (profile.checkContent content).valid = true ↔ ∀ issue ∈ (profile.checkContent content).issues, ¬ issue.isError := by
  rw [checkContent_eq]
  exact Report.valid_ofIssues

theorem mem_issues_checkContent {profile : Profile} {content : Except Failure Text} {issue : Issue} :
    issue ∈ (profile.checkContent content).issues ↔
      ∃ finding ∈ profile.contentFindings content, profile.issueOf finding = issue := by
  rw [issues_checkContent]
  exact List.mem_map

/-- **It does not matter who loads the bytes**: the report is the one on what reading the file gives. -/
theorem checkLoaded_eq (profile : Profile) (path : Path) (loaded : Except Fault ByteArray) :
    profile.checkLoaded path loaded = profile.checkContent (contentOf path loaded) := by
  unfold checkLoaded contentOf
  cases loaded with
  | error fault => rfl
  | ok bytes =>
    dsimp only
    cases String.fromUTF8? bytes with
    | none => rfl
    | some text => rfl

/-- **What is no error in a blocking report is a repeated id.** -/
theorem kind_of_mem_checkContent_blocking {content : Except Failure Text} {issue : Issue}
    (hissue : issue ∈ (blocking.checkContent content).issues) (herror : ¬ issue.isError) :
    issue.kind = .duplicateId := by
  obtain ⟨finding, -, rfl⟩ := mem_issues_checkContent.1 hissue
  refine Decidable.byContradiction fun hkind => ?_
  exact herror (decide_eq_true ((blocking.severityOf_eq_error_iff finding).2 ⟨rfl, hkind⟩))

/-- **Advice on a file is the strict report on it**, with every severity a warning. -/
theorem checkContent_advisory (content : Except Failure Text) :
    advisory.checkContent content =
      .ofIssues ((blocking.checkContent content).issues.map fun issue => { issue with severity := .warning }) := by
  have hfindings : advisory.contentFindings content = blocking.contentFindings content := by
    cases content <;> rfl
  rw [checkContent_eq, issues_checkContent, hfindings, List.map_map]
  rfl

theorem messages_checkContent_advisory (content : Except Failure Text) :
    (advisory.checkContent content).messages = (blocking.checkContent content).messages := by
  unfold Report.messages
  rw [checkContent_advisory, Report.ofIssues, List.map_map]
  rfl

end Profile
end AssetIntegrity
