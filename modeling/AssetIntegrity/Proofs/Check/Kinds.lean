import AssetIntegrity.Check.Profile
/-!
# Kinds — which rule an issue comes from

Every rule reports findings of its own kind only, so the issues of one kind in a report are the findings of one rule,
in the order of that rule (`Profile.ofKind_brokenReference`, `Profile.ofKind_invalidGuid`).  A profile turns each
finding into an issue by itself (`Profile.issues_check`); in the advisory mode the issue is a warning.
-/
namespace AssetIntegrity

/-! ## The kind of a rule -/

theorem kind_of_mem_headerFindings {preamble : Text} {documents : Nat} {finding : Finding}
    (h : finding ∈ headerFindings preamble documents) : finding.kind ∈ [.missingHeader, .missingTag, .noMarkers] := by
  unfold headerFindings at h
  rcases List.mem_append.1 h with h | h
  · rcases List.mem_append.1 h with h | h
    · split at h
      · cases h
      · obtain rfl := List.mem_singleton.1 h
        decide
    · split at h
      · cases h
      · obtain rfl := List.mem_singleton.1 h
        decide
  · split at h
    · obtain rfl := List.mem_singleton.1 h
      decide
    · cases h

theorem kind_ne_duplicateId_of_mem_headerFindings {preamble : Text} {documents : Nat} {finding : Finding}
    (h : finding ∈ headerFindings preamble documents) : finding.kind ≠ .duplicateId := by
  intro heq
  have hkind := kind_of_mem_headerFindings h
  rw [heq] at hkind
  exact absurd hkind (by decide)

theorem kind_of_mem_repeatsAfter : ∀ {documents : List Document} {declared : Table Document} {finding : Finding},
    finding ∈ repeatsAfter declared documents → finding.kind = .duplicateId
  | [], _, _, h => by cases h
  | d :: documents, declared, finding, h => by
    rw [repeatsAfter, List.mem_append] at h
    rcases h with h | h
    · split at h
      · obtain rfl := List.mem_singleton.1 h
        rfl
      · cases h
    · exact kind_of_mem_repeatsAfter h

theorem kind_of_mem_brokenReferences {index : Index} {finding : Finding} (h : finding ∈ index.brokenReferences) :
    finding.kind = .brokenReference := by
  obtain ⟨⟨source, targets⟩, -, h⟩ := List.mem_flatMap.1 h
  obtain ⟨target, -, rfl⟩ := List.mem_map.1 h
  rfl

theorem kind_of_mem_invalidGuids {index : Index} {finding : Finding} (h : finding ∈ index.invalidGuids) :
    finding.kind = .invalidGuid := by
  obtain ⟨token, -, rfl⟩ := List.mem_map.1 h
  rfl

theorem Profile.kind_ne_duplicateId_of_mem_indexFindings (profile : Profile) {index : Index} {finding : Finding}
    (h : finding ∈ profile.indexFindings index) : finding.kind ≠ .duplicateId := by
  unfold Profile.indexFindings at h
  rcases List.mem_append.1 h with h | h
  · split at h
    · rw [kind_of_mem_brokenReferences h]
      decide
    · cases h
  · split at h
    · rw [kind_of_mem_invalidGuids h]
      decide
    · cases h

theorem filter_kind {findings : List Finding} {own : Kind} (h : ∀ finding ∈ findings, finding.kind = own)
    (kind : Kind) : (findings.filter fun finding => finding.kind = kind) = if own = kind then findings else [] := by
  split
  · rename_i heq
    exact List.filter_eq_self.2 fun finding hf => by simpa [heq] using h finding hf
  · rename_i hne
    exact List.filter_eq_nil_iff.2 fun finding hf => by simpa [h finding hf] using hne

namespace Profile

/-! ## From findings to issues -/

/-- The severity of a finding in a report of this profile. -/
def severityOf (profile : Profile) (finding : Finding) : Severity :=
  match profile.mode with
  | .blocking => finding.severity .blocking
  | .advisory => .warning

/-- The issue that reports a finding. -/
def issueOf (profile : Profile) (finding : Finding) : Issue :=
  ⟨finding.kind, profile.severityOf finding, finding.message, finding.documentId⟩

/-- **Only a blocking profile has errors**, and a repeated id is none there either. -/
theorem severityOf_eq_error_iff (profile : Profile) (finding : Finding) :
    profile.severityOf finding = .error ↔ profile.mode = .blocking ∧ finding.kind ≠ .duplicateId := by
  unfold severityOf
  cases profile.mode with
  | blocking => cases finding <;> simp [Finding.severity, Finding.kind, Mode.severity]
  | advisory => simp

/-- **A report has one issue for each finding**, in the same order. -/
theorem issues_check (profile : Profile) (text : Text) :
    (profile.check text).issues = (profile.findings text).map profile.issueOf := by
  rw [check, Report.ofIssues, grade]
  split
  · rename_i hmode
    refine List.map_congr_left fun finding _ => ?_
    rw [Finding.issue, issueOf, severityOf, hmode]
  · rename_i hmode
    rw [List.map_map]
    refine List.map_congr_left fun finding _ => ?_
    rw [Function.comp_apply, Finding.issue, Issue.regraded, issueOf, severityOf, hmode]

/-- The strict profile runs every rule. -/
theorem findings_blocking (text : Text) :
    blocking.findings text =
      headerFindings (Stream.ofText text).preamble (Stream.ofText text).documents.length ++ (Stream.ofText text).repeats
        ++ ((Index.ofStream (Stream.ofText text)).brokenReferences
          ++ (Index.ofStream (Stream.ofText text)).invalidGuids) :=
  rfl

theorem ofKind_check (profile : Profile) (text : Text) (kind : Kind) :
    (profile.check text).ofKind kind =
      ((profile.findings text).filter fun finding => finding.kind = kind).map profile.issueOf := by
  rw [Report.ofKind, issues_check, List.filter_map]
  rfl

/-- **The findings of one kind, rule by rule.** -/
theorem filter_kind_streamFindings (profile : Profile) (stream : Stream) (kind : Kind) :
    ((profile.streamFindings stream).filter fun finding => finding.kind = kind) =
      ((headerFindings stream.preamble stream.documents.length).filter fun finding => finding.kind = kind)
        ++ (if .duplicateId = kind then stream.repeats else [])
        ++ ((if profile.followsReferences then
              if .brokenReference = kind then (Index.ofStream stream).brokenReferences else []
            else [])
          ++ if profile.examinesGuids then if .invalidGuid = kind then (Index.ofStream stream).invalidGuids else []
            else []) := by
  have hrepeats : ∀ finding ∈ stream.repeats, finding.kind = .duplicateId := fun _ => kind_of_mem_repeatsAfter
  have hbroken : ∀ finding ∈ (Index.ofStream stream).brokenReferences, finding.kind = .brokenReference :=
    fun _ => kind_of_mem_brokenReferences
  have hguids : ∀ finding ∈ (Index.ofStream stream).invalidGuids, finding.kind = .invalidGuid :=
    fun _ => kind_of_mem_invalidGuids
  rw [streamFindings, indexFindings, List.filter_append, List.filter_append, List.filter_append, filter_kind hrepeats,
    apply_ite (List.filter _), apply_ite (List.filter _), filter_kind hbroken, filter_kind hguids, List.filter_nil]

theorem filter_kind_headerFindings {kind : Kind} (h : kind ∉ [.missingHeader, .missingTag, .noMarkers])
    (preamble : Text) (documents : Nat) :
    ((headerFindings preamble documents).filter fun finding => finding.kind = kind) = [] := by
  refine List.filter_eq_nil_iff.2 fun finding hf heq => h ?_
  rw [← of_decide_eq_true heq]
  exact kind_of_mem_headerFindings hf

theorem ofKind_brokenReference (profile : Profile) (text : Text) :
    (profile.check text).ofKind .brokenReference =
      if profile.followsReferences then (Index.ofStream (Stream.ofText text)).brokenReferences.map profile.issueOf
      else [] := by
  rw [ofKind_check, findings, filter_kind_streamFindings, filter_kind_headerFindings (by decide)]
  cases profile.followsReferences <;> simp

theorem ofKind_invalidGuid (profile : Profile) (text : Text) :
    (profile.check text).ofKind .invalidGuid =
      if profile.examinesGuids then (Index.ofStream (Stream.ofText text)).invalidGuids.map profile.issueOf else [] := by
  rw [ofKind_check, findings, filter_kind_streamFindings, filter_kind_headerFindings (by decide)]
  cases profile.examinesGuids <;> simp

end Profile
end AssetIntegrity
