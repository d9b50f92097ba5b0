import AssetIntegrity.Check.Rules
import AssetIntegrity.Proofs.Index.Contents
import Mathlib.Algebra.GroupWithZero.Nat
import Mathlib.Data.List.Basic
import Mathlib.Data.List.Induction
/-!
# Construction — nothing is merged silently and nothing is lost

The documents of any stream, also of one that no text has, are accounted for: each of them is an entry of the index or
is reported as a repeat (`length_repeatsAfter`), a repeat is reported against the first declaration of its id
(`repeatsAfter_eq`), and every reference is kept under the id of its document (`Indexes.referenceCount`).
`Stream.index_exact` puts this together with what the entries are.
-/
namespace AssetIntegrity

/-- The ids of the first declarations are all ids, in the order in which they come first. -/
theorem map_id_firstDeclarations (documents : List Document) :
    (firstDeclarations documents).map (·.id) = (documents.map (·.id)).eraseDups := by
  induction documents using List.reverseRecOn with
  | nil => rfl
  | append_singleton documents d ih =>
    rw [firstDeclarations_concat, List.map_append, List.eraseDups_append, ← ih]
    by_cases hid : d.id ∈ documents.map (·.id)
    · rw [if_pos hid, List.map_singleton, List.cons_removeAll]
      simp [hid]
    · rw [if_neg hid, List.map_singleton, List.cons_removeAll]
      simp [hid, List.eraseDups_cons]

/-! ## Repeats -/

/-- **Every document with an earlier one of its id is a repeat**, and it is reported against the first of those. -/
theorem repeatsAfter_eq : ∀ {earlier : List Document} {declared : Table Document},
    (∀ id, declared.get? id = earlier.find? fun d => d.id = id) → ∀ documents : List Document,
      repeatsAfter declared documents = (documents.zipIdx earlier.length).filterMap fun (d, place) =>
        (((earlier ++ documents).take place).find? fun e => e.id = d.id).map fun first =>
          .duplicateId d.id d.position first.position
  | _, _, _, [] => rfl
  | earlier, declared, h, d :: documents => by
    have hrest := repeatsAfter_eq (Table.get?_insertNew_eq_find? h d) documents
    rw [List.length_append, List.length_singleton, List.append_assoc, List.singleton_append] at hrest
    have hfront : (earlier ++ d :: documents).take earlier.length = earlier := List.take_left
    rw [repeatsAfter, hrest, h, List.zipIdx_cons, List.filterMap_cons]
    simp only [hfront]
    cases earlier.find? fun e => e.id = d.id <;> rfl

/-- **Every document is a first declaration or a repeat**, and none is both. -/
theorem length_repeatsAfter : ∀ {earlier : List Document} {declared : Table Document},
    (∀ id, declared.get? id = earlier.find? fun d => d.id = id) → ∀ documents : List Document,
      (firstDeclarations earlier).length + documents.length =
        (firstDeclarations (earlier ++ documents)).length + (repeatsAfter declared documents).length
  | earlier, _, _, [] => by rw [List.append_nil]; rfl
  | earlier, declared, h, d :: documents => by
    have hrest := length_repeatsAfter (Table.get?_insertNew_eq_find? h d) documents
    rw [List.append_assoc, List.singleton_append, firstDeclarations_concat] at hrest
    rw [repeatsAfter, List.length_append, h, List.length_cons]
    cases hfirst : earlier.find? fun e => e.id = d.id with
    | none =>
      have hid : d.id ∉ earlier.map (·.id) := by simpa using hfirst
      rw [if_neg hid, List.length_append, List.length_singleton] at hrest
      simp only [List.length_nil]
      omega
    | some first =>
      have hid : d.id ∈ earlier.map (·.id) :=
        List.mem_map.2 ⟨first, List.mem_of_find?_eq_some hfirst, by simpa using List.find?_some hfirst⟩
      rw [if_pos hid] at hrest
      simp only [List.length_singleton]
      omega

theorem Stream.repeats_eq (stream : Stream) :
    stream.repeats = stream.documents.zipIdx.filterMap fun (d, place) =>
      ((stream.documents.take place).find? fun e => e.id = d.id).map fun first =>
        .duplicateId d.id d.position first.position :=
  @repeatsAfter_eq [] .empty (fun _ => rfl) stream.documents

namespace Indexes

variable {documents : List Document} {index : Index}

/-! ## Entries -/

theorem entries_documents_eq_filterMap (h : Indexes documents index) :
    index.documents.entries =
      (documents.map (·.id)).eraseDups.filterMap fun id => (documents.find? fun d => d.id = id).map (id, ·) := by
  rw [h.entries_documents, ← map_id_firstDeclarations, List.filterMap_map, ← List.filterMap_eq_map]
  refine List.filterMap_congr fun d hd => ?_
  rw [Function.comp_apply, Function.comp_apply, find?_of_mem_firstDeclarations hd]
  rfl

theorem entries_references_eq_map (h : Indexes documents index) :
    index.references.entries =
      (documents.map (·.id)).eraseDups.map fun id =>
        (id, (documents.filter fun d => d.id = id).flatMap fun d => (Text.localIds d.body).filter (· ≠ id)) := by
  rw [h.entries_references, ← map_id_firstDeclarations, List.map_map]
  refine List.map_congr_left fun first _ => congrArg (Prod.mk first.id) (List.flatMap_congr fun d hd => ?_)
  have hid : d.id = first.id := of_decide_eq_true (List.mem_filter.1 hd).2
  rw [Document.references, hid]

/-- **No document points at itself.** -/
theorem notMem_of_mem_references (h : Indexes documents index) {id : String} {targets : List String}
    (hentry : (id, targets) ∈ index.references.entries) : id ∉ targets := by
  rw [h.entries_references_eq_map] at hentry
  obtain ⟨_, -, heq⟩ := List.mem_map.1 hentry
  obtain ⟨rfl, rfl⟩ := Prod.mk.inj heq
  intro hmem
  obtain ⟨d, -, hmem⟩ := List.mem_flatMap.1 hmem
  exact of_decide_eq_true (List.mem_filter.1 hmem).2 rfl

/-- **Every reference is kept once**, under the id of its document. -/
theorem referenceCount (h : Indexes documents index) :
    index.referenceCount = (documents.map fun d => d.references.length).sum := by
  have hvalues : index.references.values.flatten =
      (((firstDeclarations documents).map (·.id)).flatMap fun id => documents.filter fun d => d.id = id).flatMap
        Document.references := by
    rw [Table.values, h.entries_references, List.map_map, ← List.flatMap_def, List.flatMap_map, List.flatMap_assoc]
    rfl
  have hperm : (((firstDeclarations documents).map (·.id)).flatMap fun id => documents.filter fun d => d.id = id).Perm
      documents :=
    flatMap_filter_id_perm h.nodup_firstDeclarations fun d hd =>
      mem_ids_firstDeclarations.2 (List.mem_map_of_mem hd)
  rw [Index.referenceCount, hvalues, (hperm.flatMap_right _).length_eq, List.length_flatMap]

end Indexes

/-- **What is built from a stream, exactly**, whether or not a text has this stream.
- There is an entry for each distinct id in the order of first occurrence, and it holds the first document of that id.
- Under the same ids stand the references of all documents with that id, one document behind the other and without the
  id itself; each reference of a document is kept once.
- Every document with an earlier one of its id gives one warning, in order, which names its own place and the place of
  the first one.  So a document is an entry or it is reported.
- The GUID values are those of the preamble, and then those of all documents in order, each with its document. -/
theorem Stream.index_exact (stream : Stream) :
    (Index.ofStream stream).documents.entries =
      ((stream.documents.map (·.id)).eraseDups.filterMap fun id =>
        (stream.documents.find? fun d => d.id = id).map (id, ·)) ∧
    (Index.ofStream stream).documents.keys = (stream.documents.map (·.id)).eraseDups ∧
    (Index.ofStream stream).references.keys = (Index.ofStream stream).documents.keys ∧
    (Index.ofStream stream).references.entries =
      ((stream.documents.map (·.id)).eraseDups.map fun id =>
        (id, (stream.documents.filter fun d => d.id = id).flatMap fun d => (Text.localIds d.body).filter (· ≠ id))) ∧
    (∀ entry ∈ (Index.ofStream stream).references.entries, entry.1 ∉ entry.2) ∧
    (Index.ofStream stream).referenceCount =
      (stream.documents.map fun d => ((Text.localIds d.body).filter (· ≠ d.id)).length).sum ∧
    (∀ mode, stream.repeats.map (·.issue mode) =
      stream.documents.zipIdx.filterMap fun (d, place) =>
        ((stream.documents.take place).find? fun e => e.id = d.id).map fun first =>
          { kind := .duplicateId
            severity := .warning
            message := s!"Duplicate document ID {d.id} at line {d.position.line} (offset {d.position.offset}), "
              ++ s!"first declared at line {first.position.line} (offset {first.position.offset})"
            documentId := some d.id }) ∧
    stream.documents.length = (Index.ofStream stream).documents.entries.length + stream.repeats.length ∧
    (Index.ofStream stream).guids =
      ((Text.guids stream.preamble).map fun value => ⟨value, none⟩)
        ++ stream.documents.flatMap fun d => (Text.guids d.body).map fun value => ⟨value, some d.id⟩ := by
  have h := Indexes.ofStream stream
  refine ⟨h.entries_documents_eq_filterMap, h.keys_documents.trans (map_id_firstDeclarations _),
    h.keys_references.trans h.keys_documents.symm, h.entries_references_eq_map,
    fun _ hentry => h.notMem_of_mem_references hentry, h.referenceCount, fun mode => ?_, ?_,
    Index.guids_ofStream stream⟩
  · rw [stream.repeats_eq, List.map_filterMap]
    refine List.filterMap_congr fun (d, place) _ => ?_
    rw [Option.map_map]
    rfl
  · have hlength := @length_repeatsAfter [] .empty (fun _ => rfl) stream.documents
    rw [firstDeclarations, List.length_nil, Nat.zero_add, List.nil_append] at hlength
    rw [h.entries_documents, List.length_map]
    exact hlength

end AssetIntegrity
