import AssetIntegrity.Proofs.Check.BrokenReferences
/-!
# Rewriting — what the rules see of a document

A rule sees what a document declares, where it stands, and the ids and GUID values that its body holds; it does not see
the body itself.  A rewriting that keeps all this but the place (`Keeps`) moves the places in what is found about
repeated ids and changes nothing else (`Keeps.streamFindings_map`).
-/
namespace AssetIntegrity

open Text

/-- The finding with its places moved; only a repeated id has any. -/
def Finding.moved (move : Position → Position) : Finding → Finding
  | .duplicateId id here first => .duplicateId id (move here) (move first)
  | finding => finding

theorem Finding.moved_of_kind_ne {move : Position → Position} {finding : Finding} (h : finding.kind ≠ .duplicateId) :
    finding.moved move = finding := by
  cases finding <;> first | rfl | exact absurd rfl h

theorem Finding.map_moved {move : Position → Position} {findings : List Finding}
    (h : ∀ finding ∈ findings, finding.kind ≠ .duplicateId) : findings.map (moved move) = findings := by
  conv => rhs; rw [← List.map_id findings]
  exact List.map_congr_left fun finding hf => moved_of_kind_ne (h finding hf)

theorem Finding.moved_id (finding : Finding) : finding.moved id = finding := by
  cases finding <;> rfl

/-- **Places show in messages only.** -/
theorem Profile.issueOf_moved (profile : Profile) (move : Position → Position) (finding : Finding) :
    profile.issueOf (finding.moved move) =
      { profile.issueOf finding with message := (finding.moved move).message } := by
  cases finding <;> rfl

/-- **A rewriting of documents that keeps what the rules see of them**, but for their places. -/
structure Keeps (move : Position → Position) (rewrite : Document → Document) : Prop where
  marker : ∀ d, (rewrite d).toMarker = d.toMarker
  position : ∀ d, (rewrite d).position = move d.position
  localIds : ∀ d, localIds (rewrite d).body = localIds d.body
  guids : ∀ d, guids (rewrite d).body = guids d.body

namespace Keeps

variable {move : Position → Position} {rewrite : Document → Document} (h : Keeps move rewrite)
include h

theorem id (d : Document) : (rewrite d).id = d.id := congrArg Marker.id (h.marker d)

theorem label (d : Document) : (rewrite d).label = d.label := by
  have hclass : (rewrite d).classId = d.classId := congrArg Marker.classId (h.marker d)
  unfold Document.label Document.className?
  rw [h.id, hclass]

theorem guidMentions (d : Document) : (rewrite d).guidMentions = d.guidMentions := by
  unfold Document.guidMentions
  rw [h.guids, h.id]

theorem ids (documents : List Document) : (documents.map rewrite).map (·.id) = documents.map (·.id) := by
  rw [List.map_map]
  exact List.map_congr_left fun d _ => h.id d

theorem filter_id (documents : List Document) (p : String → Bool) :
    ((documents.map rewrite).filter fun d => p d.id) = (documents.filter fun d => p d.id).map rewrite := by
  rw [List.filter_map]
  exact congrArg _ (List.filter_congr fun d _ => congrArg p (h.id d))

theorem firstDeclarations_map (documents : List Document) :
    firstDeclarations (documents.map rewrite) = (firstDeclarations documents).map rewrite := by
  induction documents with
  | nil => rfl
  | cons d documents ih =>
    have hlater := h.filter_id (firstDeclarations documents) fun id => decide (id ≠ d.id)
    rw [List.map_cons, firstDeclarations, firstDeclarations, List.map_cons, h.id, ih, hlater]

theorem danglingIds (documents : List Document) (d : Document) :
    (rewrite d).danglingIds (documents.map rewrite) = d.danglingIds documents := by
  unfold Document.danglingIds
  rw [h.localIds, h.id]
  simp only [List.forall_mem_map, h.id]

/-! ## The rules -/

theorem repeatsAfter_map {documents : List Document} : ∀ {declared declared' : Table Document},
    (∀ id, declared'.get? id = (declared.get? id).map rewrite) →
    repeatsAfter declared' (documents.map rewrite) = (repeatsAfter declared documents).map (Finding.moved move) := by
  induction documents with
  | nil => exact fun _ => rfl
  | cons d documents ih =>
    intro declared declared' hdeclared
    have hnext : ∀ id, (declared'.insertNew d.id (rewrite d)).get? id =
        ((declared.insertNew d.id d).get? id).map rewrite := by
      intro id
      unfold Table.insertNew
      rw [Table.get?_update, Table.get?_update, hdeclared, hdeclared]
      by_cases hid : id = d.id
      · rw [if_pos hid, if_pos hid, Option.map_some]
        cases declared.get? d.id <;> rfl
      · rw [if_neg hid, if_neg hid]
    rw [List.map_cons, repeatsAfter, repeatsAfter, List.map_append, h.id, ih hnext, hdeclared, h.position]
    cases declared.get? d.id with
    | none => rfl
    | some first => simp only [Option.map_some, List.map_cons, List.map_nil, Finding.moved, h.position]

theorem brokenReferences_map (preamble preamble' : Text) (documents : List Document) :
    (Index.ofStream ⟨preamble', documents.map rewrite⟩).brokenReferences =
      (Index.ofStream ⟨preamble, documents⟩).brokenReferences := by
  rw [(Indexes.ofStream _).brokenReferences, (Indexes.ofStream _).brokenReferences]
  simp only [h.firstDeclarations_map, List.flatMap_map, h.label, h.id]
  refine List.flatMap_congr fun first _ => ?_
  rw [h.filter_id documents fun id => decide (id = first.id), List.flatMap_map]
  simp only [h.danglingIds]

theorem invalidGuids_map {preamble preamble' : Text} (hguids : Text.guids preamble' = Text.guids preamble)
    (documents : List Document) :
    (Index.ofStream ⟨preamble', documents.map rewrite⟩).invalidGuids =
      (Index.ofStream ⟨preamble, documents⟩).invalidGuids := by
  have hmentions : (Index.ofStream ⟨preamble', documents.map rewrite⟩).guids =
      (Index.ofStream ⟨preamble, documents⟩).guids := by
    rw [Index.guids_ofStream, Index.guids_ofStream, Stream.preambleMentions, Stream.preambleMentions, hguids,
      List.flatMap_map]
    simp only [h.guidMentions]
  unfold Index.invalidGuids
  rw [hmentions]

/-- **The findings of a rewritten stream** are those of the stream with their places moved, when the rules see the same
in the two preambles. -/
theorem streamFindings_map (profile : Profile) {preamble preamble' : Text}
    (hheader : ∀ documents, headerFindings preamble' documents = headerFindings preamble documents)
    (hguids : Text.guids preamble' = Text.guids preamble) (documents : List Document) :
    profile.streamFindings ⟨preamble', documents.map rewrite⟩ =
      (profile.streamFindings ⟨preamble, documents⟩).map (Finding.moved move) := by
  have hfirst : (headerFindings preamble documents.length).map (Finding.moved move) =
      headerFindings preamble documents.length :=
    Finding.map_moved fun _ hf => kind_ne_duplicateId_of_mem_headerFindings hf
  have hlast : (profile.indexFindings (Index.ofStream ⟨preamble, documents⟩)).map (Finding.moved move) =
      profile.indexFindings (Index.ofStream ⟨preamble, documents⟩) :=
    Finding.map_moved fun _ hf => profile.kind_ne_duplicateId_of_mem_indexFindings hf
  have hrepeats : Stream.repeats ⟨preamble', documents.map rewrite⟩ =
      (Stream.repeats ⟨preamble, documents⟩).map (Finding.moved move) :=
    h.repeatsAfter_map fun _ => rfl
  unfold Profile.streamFindings
  rw [List.map_append, List.map_append, hfirst, hlast, hrepeats, hheader, List.length_map]
  unfold Profile.indexFindings
  rw [h.brokenReferences_map preamble, h.invalidGuids_map hguids]

end Keeps
end AssetIntegrity
