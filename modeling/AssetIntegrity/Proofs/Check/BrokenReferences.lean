import AssetIntegrity.Proofs.Check.Kinds
import AssetIntegrity.Proofs.Index.Contents
import Mathlib.Data.List.Basic
/-!
# Broken references — the exact list of them

The references that lead nowhere are reported id by id in the order of first declaration, under each id document by
document, and in each document in the order of the text (`Indexes.brokenReferences`).  The label in a message is that of
the first document with the id, for every id in an index has one (`brokenReferences_exact`).
-/
namespace AssetIntegrity

/-- The ids that a document points at and that no document of a stream declares, without its own and the null id. -/
def Document.danglingIds (d : Document) (documents : List Document) : List String :=
  (Text.localIds d.body).filter fun r => r ≠ d.id ∧ r ≠ nullId ∧ ∀ e ∈ documents, e.id ≠ r

namespace Indexes

theorem brokenFrom_references {documents : List Document} {index : Index} (h : Indexes documents index) (d : Document) :
    index.brokenFrom d.id d.references =
      (d.danglingIds documents).map fun r => .brokenReference d.id (index.labelOf d.id) r := by
  unfold Index.brokenFrom Document.references Document.danglingIds
  rw [List.filter_filter]
  refine congrArg (List.map _) (List.filter_congr fun r _ => ?_)
  have hdeclares : index.declares r = !decide (∀ e ∈ documents, e.id ≠ r) := by
    rw [Bool.eq_iff_iff, h.declares_iff, List.mem_map]
    simp
  rw [hdeclares, isNullId, Bool.and_comm]
  simp only [Bool.decide_and, Bool.not_or, Bool.not_not, decide_not]

theorem brokenFrom_flatMap (index : Index) (source : String) (documents : List Document) (g : Document → List String) :
    index.brokenFrom source (documents.flatMap g) = documents.flatMap fun d => index.brokenFrom source (g d) := by
  unfold Index.brokenFrom
  rw [List.filter_flatMap, List.map_flatMap]

/-- **The broken references of an index**, id by id and document by document. -/
theorem brokenReferences {documents : List Document} {index : Index} (h : Indexes documents index) :
    index.brokenReferences =
      (firstDeclarations documents).flatMap fun first =>
        (documents.filter fun d => d.id = first.id).flatMap fun d =>
          (d.danglingIds documents).map fun r => .brokenReference first.id first.label r := by
  rw [Index.brokenReferences, h.entries_references, List.flatMap_map]
  refine List.flatMap_congr fun first hfirst => ?_
  refine (brokenFrom_flatMap index first.id _ _).trans ?_
  refine List.flatMap_congr fun d hd => ?_
  have hid : d.id = first.id := of_decide_eq_true (List.mem_filter.1 hd).2
  rw [← hid, h.brokenFrom_references, hid, (h.labelOf hfirst).2]

end Indexes

theorem Profile.issueOf_brokenReference (profile : Profile) (source label target : String) :
    profile.issueOf (.brokenReference source label target) =
      { kind := .brokenReference
        severity := match profile.mode with
          | .blocking => .error
          | .advisory => .warning
        message := s!"Broken reference in {label}: fileID {target} does not match any document"
        documentId := some source } := by
  unfold issueOf severityOf
  cases profile.mode <;> rfl

/-- **The broken references of a report, exactly.**  They are those of the first declarations in order, under each the
documents with its id in order, and in each document the ids in order of appearance that are neither its own nor null
nor declared by any document; every message has the label of the first declaration.  No id of an index lacks a
document. -/
theorem brokenReferences_exact (profile : Profile) (text : Text) :
    ((profile.check text).ofKind .brokenReference =
      if profile.followsReferences then
        (firstDeclarations (Stream.ofText text).documents).flatMap fun first =>
          ((Stream.ofText text).documents.filter fun d => d.id = first.id).flatMap fun d =>
            ((Text.localIds d.body).filter fun r =>
              r ≠ first.id ∧ r ≠ "0" ∧ ∀ e ∈ (Stream.ofText text).documents, e.id ≠ r).map fun r =>
                { kind := .brokenReference
                  severity := match profile.mode with
                    | .blocking => .error
                    | .advisory => .warning
                  message := s!"Broken reference in {first.label}: fileID {r} does not match any document"
                  documentId := some first.id }
      else []) ∧
    ∀ (stream : Stream), ∀ id ∈ (Index.ofStream stream).references.keys,
      ∃ first ∈ firstDeclarations stream.documents, first.id = id ∧
        (Index.ofStream stream).document? id = some first ∧ (Index.ofStream stream).labelOf id = first.label := by
  constructor
  · rw [Profile.ofKind_brokenReference, (Indexes.ofStream _).brokenReferences]
    cases profile.followsReferences with
    | false => rfl
    | true =>
      rw [if_pos rfl, if_pos rfl, List.map_flatMap]
      refine List.flatMap_congr fun first _ => ?_
      rw [List.map_flatMap]
      refine List.flatMap_congr fun d hd => ?_
      have hid : d.id = first.id := of_decide_eq_true (List.mem_filter.1 hd).2
      rw [List.map_map, Document.danglingIds, hid]
      exact List.map_congr_left fun r _ => Profile.issueOf_brokenReference profile first.id first.label r
  · intro stream id hid
    have h := Indexes.ofStream stream
    rw [h.keys_references, List.mem_map] at hid
    obtain ⟨first, hfirst, rfl⟩ := hid
    exact ⟨first, hfirst, rfl, h.labelOf hfirst⟩

end AssetIntegrity
