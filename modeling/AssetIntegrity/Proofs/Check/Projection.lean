import AssetIntegrity.Proofs.Check.Kinds
/-!
# Projections — every profile against the strict one

A profile leaves out the rules that it does not ask for and changes nothing else about what is found
(`Profile.findings_eq_filter`); its mode changes nothing but severities (`Profile.issueOf_eq_weigh`).  So the report of
every profile is read off the report of the strict one (`check_eq_projection`).
-/
namespace AssetIntegrity
namespace Profile

/-- Whether a profile asks for issues of a kind. -/
def asksFor (profile : Profile) : Kind → Bool
  | .brokenReference => profile.followsReferences
  | .invalidGuid => profile.examinesGuids
  | _ => true

/-- An issue of the strict profile as it counts here. -/
def weigh (profile : Profile) (issue : Issue) : Issue :=
  match profile.mode with
  | .blocking => issue
  | .advisory => { issue with severity := .warning }

variable (profile : Profile)

theorem filter_asksFor {findings : List Finding} {own : Kind} (h : ∀ finding ∈ findings, finding.kind = own) :
    (findings.filter fun finding => profile.asksFor finding.kind) = if profile.asksFor own then findings else [] := by
  split
  · rename_i hown
    exact List.filter_eq_self.2 fun finding hf => by rw [h finding hf, hown]
  · rename_i hown
    exact List.filter_eq_nil_iff.2 fun finding hf => by rwa [h finding hf]

theorem filter_asksFor_headerFindings (preamble : Text) (documents : Nat) :
    ((headerFindings preamble documents).filter fun finding => profile.asksFor finding.kind) =
      headerFindings preamble documents := by
  refine List.filter_eq_self.2 fun finding hf => ?_
  have hkind := kind_of_mem_headerFindings hf
  simp only [List.mem_cons, List.not_mem_nil, or_false] at hkind
  rcases hkind with h | h | h <;> rw [h] <;> rfl

/-- **A profile finds what the strict one finds**, without the kinds that it does not ask for. -/
theorem findings_eq_filter (text : Text) :
    profile.findings text = (blocking.findings text).filter fun finding => profile.asksFor finding.kind := by
  have hrepeats : ∀ finding ∈ (Stream.ofText text).repeats, finding.kind = .duplicateId :=
    fun _ => kind_of_mem_repeatsAfter
  have hbroken : ∀ finding ∈ (Index.ofStream (Stream.ofText text)).brokenReferences, finding.kind = .brokenReference :=
    fun _ => kind_of_mem_brokenReferences
  have hguids : ∀ finding ∈ (Index.ofStream (Stream.ofText text)).invalidGuids, finding.kind = .invalidGuid :=
    fun _ => kind_of_mem_invalidGuids
  rw [findings_blocking]
  simp only [List.filter_append, filter_asksFor_headerFindings, filter_asksFor profile hrepeats,
    filter_asksFor profile hbroken, filter_asksFor profile hguids]
  rfl

theorem issueOf_eq_weigh (finding : Finding) : profile.issueOf finding = profile.weigh (blocking.issueOf finding) := by
  unfold issueOf weigh severityOf
  cases profile.mode <;> rfl

end Profile

theorem Severity.eq_warning_iff {severity : Severity} : severity = .warning ↔ severity ≠ .error := by
  cases severity <;> decide

/-- **Every profile is a projection of the strict one.**  Its issues are those of the strict profile, without the
kinds that it does not ask for and, in the advisory mode, with every severity a warning.  In the blocking mode the
warnings are exactly the repeated ids and a report is valid exactly when it has no error; in the advisory mode every
report is valid, so that advice on a text has the messages of the ruling on it. -/
theorem check_eq_projection (profile : Profile) (text : Text) :
    ((profile.check text).issues =
      ((Profile.blocking.check text).issues.filter fun issue =>
        (issue.kind ≠ .brokenReference || profile.followsReferences)
          && (issue.kind ≠ .invalidGuid || profile.examinesGuids)).map fun issue =>
        match profile.mode with
        | .blocking => issue
        | .advisory => { issue with severity := .warning }) ∧
    ((profile.check text).valid = true ↔ ∀ issue ∈ (profile.check text).issues, issue.severity ≠ .error) ∧
    (match profile.mode with
      | .blocking => ∀ issue ∈ (profile.check text).issues, (issue.severity = .warning ↔ issue.kind = .duplicateId)
      | .advisory => (profile.check text).valid = true) ∧
    (adviseText text).map Issue.message = (gateText text).issues.map Issue.message := by
  have hvalid : (profile.check text).valid = true ↔
      ∀ issue ∈ (profile.check text).issues, issue.severity ≠ .error := by
    refine Report.valid_ofIssues.trans (forall₂_congr fun issue _ => not_congr ?_)
    rw [Issue.isError, decide_eq_true_iff]
  refine ⟨?_, hvalid, ?_, ?_⟩
  · have hasks : ∀ kind, ((kind ≠ Kind.brokenReference || profile.followsReferences)
        && (kind ≠ .invalidGuid || profile.examinesGuids)) = profile.asksFor kind := by
      intro kind
      cases kind <;> simp [Profile.asksFor]
    simp only [hasks]
    rw [Profile.issues_check, Profile.issues_check, Profile.findings_eq_filter, List.filter_map, List.map_map]
    exact List.map_congr_left fun finding _ => profile.issueOf_eq_weigh finding
  · rw [Profile.issues_check] at hvalid ⊢
    rw [hvalid, List.forall_mem_map, List.forall_mem_map]
    cases hmode : profile.mode with
    | blocking =>
      intro finding _
      have herror := (profile.severityOf_eq_error_iff finding).trans (and_iff_right hmode)
      exact Severity.eq_warning_iff.trans ((not_congr herror).trans Decidable.not_not)
    | advisory =>
      intro finding _ herror
      have := ((profile.severityOf_eq_error_iff finding).1 herror).1
      rw [hmode] at this
      cases this
  · have hmessages : ∀ p : Profile,
        (p.check text).issues.map Issue.message = (p.findings text).map Finding.message := by
      intro p
      rw [Profile.issues_check, List.map_map]
      rfl
    exact (hmessages .advisory).trans (hmessages .blocking).symm

end AssetIntegrity
