import AssetIntegrity.Proofs.Check.BrokenReferences
import AssetIntegrity.Proofs.Check.Flags
import AssetIntegrity.Proofs.Check.GuidOwners
/-!
# Grounds — what a write is rejected for, seen on the raw text

In a blocking check a rule is silent exactly when the text meets its condition:
- the header rules, when the text begins with the format header, holds the tag directive in front of the first marker
  line and has a marker line (`headerFindings_ofText`);
- the reference rule, when no document points at an undeclared id (`brokenReferences_ofText`);
- the GUID rule, when every GUID value of the text is a GUID (`invalidGuids_ofText`);
- the rule of repeated ids, when the ids on the marker lines are distinct (`repeats_ofText`).

Only the last rule has no error, so the others decide on the verdict (`gateText_iff_ground`).
-/
namespace AssetIntegrity

open Text

/-! ## The header -/

theorem Marker.parse?_of_formatHeader {line : Text} (h : formatHeader.toList <+: line) : Marker.parse? line = none := by
  refine Option.eq_none_iff_forall_ne_some.2 fun marker hmarker => ?_
  have hpercent : '%' ∈ line := h.subset (by decide)
  exact absurd (Marker.isMarkerChar_of_parse? hmarker '%' hpercent) (by decide)

/-- **The format header of a text is that of its preamble**, for no marker line can begin with it. -/
theorem formatHeader_aboveMarkers {text : Text} :
    formatHeader.toList <+: text.aboveMarkers ↔ formatHeader.toList <+: text := by
  have hcut := wellCut_lines text
  have hflat := flatten_lines text
  constructor
  · intro h
    exact h.trans (prefix_aboveMarkers text)
  · intro h
    unfold Text.aboveMarkers
    rw [← hflat] at h
    cases hlines : text.lines with
    | nil => rwa [hlines] at h
    | cons line more =>
      rw [hlines] at h hcut
      have hline : formatHeader.toList <+: line := hcut.prefix_of_flatten (by decide) h
      have hplain : (!Marker.isMarkerLine line) = true := by
        rw [Bool.not_eq_true', Marker.isMarkerLine_eq_false]
        exact Marker.parse?_of_formatHeader hline
      rw [List.takeWhile_cons_of_pos (p := fun l => !Marker.isMarkerLine l) hplain, List.flatten_cons]
      exact hline.trans (List.prefix_append _ _)

theorem headerFindings_eq_nil_iff {preamble : Text} {documents : Nat} :
    headerFindings preamble documents = [] ↔
      formatHeader.toList <+: preamble ∧ tagDirective.toList <:+: preamble ∧ documents ≠ 0 := by
  unfold headerFindings
  rw [List.append_eq_nil_iff, List.append_eq_nil_iff, ← List.isPrefixOf_iff_prefix, ← occursIn_iff, and_assoc]
  simp only [ite_eq_left_iff, ite_eq_right_iff, List.cons_ne_nil, imp_false, Decidable.not_not]

theorem headerFindings_ofText (text : Text) :
    headerFindings (Stream.ofText text).preamble (Stream.ofText text).documents.length = [] ↔
      formatHeader.toList <+: text ∧ tagDirective.toList <:+: text.aboveMarkers ∧
        ∃ line ∈ text.lines, Marker.isMarkerLine line = true := by
  have hmarkers : (Stream.ofText text).documents.map Document.toMarker = text.lines.filterMap Marker.parse? :=
    Stream.markers_readAt _ _
  have hnone : (Stream.ofText text).documents.length ≠ 0 ↔ ∃ line ∈ text.lines, Marker.isMarkerLine line = true := by
    rw [← List.length_map Document.toMarker, hmarkers, Ne, List.length_eq_zero_iff, List.filterMap_eq_nil_iff]
    simp only [← Marker.isMarkerLine_eq_false, not_forall, Bool.not_eq_false, exists_prop]
  rw [headerFindings_eq_nil_iff, Stream.preamble_ofText, formatHeader_aboveMarkers, hnone]

/-! ## Repeated ids -/

theorem repeatsAfter_eq_nil_iff : ∀ {documents : List Document} {declared : Table Document},
    repeatsAfter declared documents = [] ↔
      (documents.map (·.id)).Nodup ∧ ∀ d ∈ documents, declared.get? d.id = none
  | [], _ => by
    rw [repeatsAfter, List.map_nil]
    exact iff_of_true rfl ⟨List.nodup_nil, List.forall_mem_nil _⟩
  | d :: documents, declared => by
    have hlater : (∀ e ∈ documents, (declared.insertNew d.id d).get? e.id = none) ↔
        d.id ∉ documents.map (·.id) ∧ ∀ e ∈ documents, declared.get? e.id = none := by
      rw [List.mem_map, not_exists, ← forall_and]
      refine forall_congr' fun e => ?_
      rw [Table.insertNew, Table.get?_update]
      by_cases hid : e.id = d.id
      · rw [if_pos hid, and_iff_left hid]
        simp only [reduceCtorEq, imp_false]
        exact ⟨fun he => ⟨he, fun hmem => absurd hmem he⟩, And.left⟩
      · rw [if_neg hid]
        exact ⟨fun h => ⟨fun hmem => hid hmem.2, h⟩, And.right⟩
    rw [repeatsAfter, List.append_eq_nil_iff, repeatsAfter_eq_nil_iff, hlater, List.map_cons, List.nodup_cons,
      List.forall_mem_cons]
    cases declared.get? d.id with
    | some first => simp only [List.cons_ne_nil, false_and, and_false, reduceCtorEq]
    | none =>
      simp only [true_and]
      constructor
      · rintro ⟨hdistinct, hnew, hall⟩
        exact ⟨⟨hnew, hdistinct⟩, hall⟩
      · rintro ⟨⟨hnew, hdistinct⟩, hall⟩
        exact ⟨hdistinct, hnew, hall⟩

theorem repeats_ofText (text : Text) : (Stream.ofText text).repeats = [] ↔ text.declaredIds.Nodup := by
  rw [Stream.repeats, repeatsAfter_eq_nil_iff, Stream.ids_ofText]
  exact and_iff_left fun _ _ => rfl

/-! ## References and GUIDs -/

theorem Indexes.brokenReferences_eq_nil_iff {documents : List Document} {index : Index} (h : Indexes documents index) :
    index.brokenReferences = [] ↔ ∀ d ∈ documents, d.danglingIds documents = [] := by
  rw [h.brokenReferences]
  simp only [List.flatMap_eq_nil_iff, List.map_eq_nil_iff, List.mem_filter, decide_eq_true_eq]
  constructor
  · intro hall d hd
    obtain ⟨first, hfirst, hid⟩ := exists_firstDeclaration hd
    exact hall first hfirst d ⟨hd, hid.symm⟩
  · intro hall _ _ d hd
    exact hall d hd.1

theorem brokenReferences_ofText (text : Text) :
    (Index.ofStream (Stream.ofText text)).brokenReferences = [] ↔
      ∀ s : Section text.lines, ∀ r ∈ localIds s.body.flatten, r ≠ s.marker.id → r ≠ nullId → r ∈ text.declaredIds := by
  rw [(Indexes.ofStream _).brokenReferences_eq_nil_iff]
  have hdeclared : ∀ r, (∀ e ∈ (Stream.ofText text).documents, e.id ≠ r) ↔ r ∉ text.declaredIds := by
    intro r
    rw [← Stream.ids_ofText, List.mem_map]
    simp only [not_exists, not_and, ne_eq]
  simp only [Document.danglingIds, List.filter_eq_nil_iff, hdeclared, decide_eq_true_eq, not_and, not_not]
  constructor
  · intro h s
    exact h (s.document .start) (Stream.mem_documents_readAt.2 ⟨s, rfl⟩)
  · intro h d hd
    obtain ⟨s, rfl⟩ := Stream.mem_documents_readAt.1 hd
    exact h s

theorem isGuid_iff {value : String} :
    isGuid value = true ↔ value.toList.length = 32 ∧ ∀ c ∈ value.toList, isHexDigit c = true := by
  rw [isGuid, Bool.and_eq_true, decide_eq_true_eq, List.all_eq_true]
  rfl

theorem invalidGuids_ofText (text : Text) :
    (Index.ofStream (Stream.ofText text)).invalidGuids = [] ↔ ∀ value ∈ guids text, isGuid value = true := by
  have hvalues : (Index.ofStream (Stream.ofText text)).guids.map (·.value) = guids text := by
    rw [guids_ofText, List.map_map, ← map_snd_numberedGuids 0 text]
    rfl
  rw [Index.invalidGuids, List.map_eq_nil_iff, List.filter_eq_nil_iff, ← hvalues, List.forall_mem_map]
  simp only [Bool.not_eq_true', Bool.not_eq_false]

/-! ## The gate -/

/-- **A ground to reject a write of a text.** -/
inductive Ground (text : Text) : Prop
  | noHeader (h : ¬ "%YAML".toList <+: text)
  /-- The tag directive does not occur in front of the first marker line. -/
  | noTag (h : ¬ tagDirective.toList <:+: text.aboveMarkers)
  | noMarker (h : ∀ line ∈ text.lines, Marker.parse? line = none)
  /-- The body of a document points at an id that no marker line declares. -/
  | dangling (s : Section text.lines) (r : String) (hr : r ∈ localIds s.body.flatten) (hown : r ≠ s.marker.id)
      (hnull : r ≠ "0") (hdeclared : r ∉ text.declaredIds)
  /-- A GUID value is anything but 32 hexadecimal digits. -/
  | malformed (value : String) (hvalue : value ∈ guids text)
      (h : ¬ (value.toList.length = 32 ∧ ∀ c ∈ value.toList, isHexDigit c = true))

/-- **A text without a ground is one about which all rules with errors are silent.** -/
theorem not_ground_iff {text : Text} :
    ¬ Ground text ↔
      headerFindings (Stream.ofText text).preamble (Stream.ofText text).documents.length = [] ∧
        (Index.ofStream (Stream.ofText text)).brokenReferences = [] ∧
          (Index.ofStream (Stream.ofText text)).invalidGuids = [] := by
  rw [headerFindings_ofText, brokenReferences_ofText, invalidGuids_ofText]
  constructor
  · intro h
    refine ⟨⟨?_, ?_, ?_⟩, ?_, ?_⟩
    · exact not_not.1 fun hno => h (.noHeader hno)
    · exact not_not.1 fun hno => h (.noTag hno)
    · by_contra hno
      refine h (.noMarker fun line hline => ?_)
      rw [← Marker.isMarkerLine_eq_false, ← Bool.not_eq_true]
      exact fun hmarker => hno ⟨line, hline, hmarker⟩
    · intro s r hr hown hnull
      exact not_not.1 fun hno => h (.dangling s r hr hown hnull hno)
    · intro value hvalue
      exact not_not.1 fun hno => h (.malformed value hvalue (isGuid_iff.not.1 hno))
  · rintro ⟨⟨hheader, htag, line, hline, hmarker⟩, hreferences, hguids⟩ hground
    cases hground with
    | noHeader h => exact h hheader
    | noTag h => exact h htag
    | noMarker h =>
      rw [Marker.isMarkerLine, h line hline] at hmarker
      cases hmarker
    | dangling s r hr hown hnull hdeclared => exact hdeclared (hreferences s r hr hown hnull)
    | malformed value hvalue h => exact h (isGuid_iff.1 (hguids value hvalue))

namespace Profile

theorem isError_issueOf_blocking (finding : Finding) :
    (blocking.issueOf finding).isError = true ↔ finding.kind ≠ .duplicateId := by
  rw [Issue.isError, decide_eq_true_iff]
  exact (severityOf_eq_error_iff blocking finding).trans (and_iff_right rfl)

/-- A rule that never reports a repeated id reports nothing but repeated ids only when it is silent. -/
theorem forall_kind_iff_eq_nil {findings : List Finding} (h : ∀ finding ∈ findings, finding.kind ≠ .duplicateId) :
    (∀ finding ∈ findings, finding.kind = .duplicateId) ↔ findings = [] := by
  rw [List.eq_nil_iff_forall_not_mem]
  constructor
  · intro hall finding hmem
    exact h finding hmem (hall finding hmem)
  · intro hnone finding hmem
    exact absurd hmem (hnone finding)

/-- **A blocking check has an error exactly when there is a ground.** -/
theorem exists_error_iff_ground {text : Text} :
    (∃ issue ∈ (blocking.check text).issues, issue.isError = true) ↔ Ground text := by
  have hheader : ∀ finding ∈ headerFindings (Stream.ofText text).preamble (Stream.ofText text).documents.length,
      finding.kind ≠ .duplicateId := fun _ => kind_ne_duplicateId_of_mem_headerFindings
  have hbroken : ∀ finding ∈ (Index.ofStream (Stream.ofText text)).brokenReferences, finding.kind ≠ .duplicateId := by
    intro finding hmem
    rw [kind_of_mem_brokenReferences hmem]
    decide
  have hguids : ∀ finding ∈ (Index.ofStream (Stream.ofText text)).invalidGuids, finding.kind ≠ .duplicateId := by
    intro finding hmem
    rw [kind_of_mem_invalidGuids hmem]
    decide
  have hrepeats : ∀ finding ∈ (Stream.ofText text).repeats, finding.kind = .duplicateId :=
    fun _ => kind_of_mem_repeatsAfter
  rw [← not_iff_not, not_ground_iff, issues_check, findings_blocking, ← forall_kind_iff_eq_nil hheader,
    ← forall_kind_iff_eq_nil hbroken, ← forall_kind_iff_eq_nil hguids]
  simp only [List.mem_map, exists_exists_and_eq_and, isError_issueOf_blocking, not_exists, not_and, not_not,
    List.forall_mem_append, and_iff_left hrepeats]

end Profile

namespace Ruling

theorem verdict_ofIssues {issues : List Issue} :
    (ofReport (.ofIssues issues)).verdict = .reject ↔ ∃ issue ∈ issues, issue.isError = true :=
  reject_iff_error_iff_truthful.2 (Report.truthful_ofIssues issues)

theorem grounds_ofIssues {issues : List Issue} :
    (ofReport (.ofIssues issues)).grounds ≠ [] ↔ ∃ issue ∈ issues, issue.isError = true :=
  grounds_ne_nil_iff

end Ruling

/-- **The gate rejects a text exactly when there is a ground**, and then it names one; it has nothing to say about a
text exactly when there is no ground and no id is declared twice. -/
theorem gateText_iff_ground (text : Text) :
    ((gateText text).verdict = .reject ↔ Ground text) ∧
    ((gateText text).grounds ≠ [] ↔ (gateText text).verdict = .reject) ∧
    ((gateText text).issues = [] ↔ ¬ Ground text ∧ text.declaredIds.Nodup) := by
  have hreject : (gateText text).verdict = .reject ↔ Ground text :=
    Ruling.verdict_ofIssues.trans Profile.exists_error_iff_ground
  have hgrounds : (gateText text).grounds ≠ [] ↔ Ground text :=
    Ruling.grounds_ofIssues.trans Profile.exists_error_iff_ground
  refine ⟨hreject, hgrounds.trans hreject.symm, ?_⟩
  have hissues : (gateText text).issues = (Profile.blocking.findings text).map Profile.blocking.issueOf :=
    Profile.issues_check .blocking text
  rw [hissues, List.map_eq_nil_iff, Profile.findings_blocking, List.append_eq_nil_iff, List.append_eq_nil_iff,
    List.append_eq_nil_iff, not_ground_iff, repeats_ofText]
  constructor
  · rintro ⟨⟨hheader, hdistinct⟩, hbroken, hguids⟩
    exact ⟨⟨hheader, hbroken, hguids⟩, hdistinct⟩
  · rintro ⟨⟨hheader, hbroken, hguids⟩, hdistinct⟩
    exact ⟨⟨hheader, hdistinct⟩, hbroken, hguids⟩

end AssetIntegrity
