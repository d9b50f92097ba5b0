import AssetIntegrity.Index.Basic
import Mathlib.Data.List.Basic
/-!
# Contents — what the index of a stream holds

An index is made by adding documents one behind the other.  Adding keeps the first document of each id and gathers the
references of all documents under their ids (`Indexes.add`), so the index of a stream holds
- the first document of each id, in the order of declaration (`entries_documents`);
- under the same ids in the same order, what all documents with that id point at (`entries_references`);
- the GUID values of the preamble and then of the documents (`guids_ofStream`).
-/
namespace AssetIntegrity

/-- The first document of each id, in the order of their declaration. -/
def firstDeclarations : List Document → List Document
  | [] => []
  | d :: more => d :: (firstDeclarations more).filter fun e => e.id ≠ d.id

theorem mem_of_mem_firstDeclarations : ∀ {documents : List Document} {f : Document},
    f ∈ firstDeclarations documents → f ∈ documents
  | d :: more, f, h => by
    rw [firstDeclarations, List.mem_cons] at h
    rcases h with rfl | h
    · exact List.mem_cons_self
    · exact List.mem_cons_of_mem d (mem_of_mem_firstDeclarations (List.mem_filter.1 h).1)

/-- **A first declaration is what a search for its id finds.** -/
theorem find?_of_mem_firstDeclarations : ∀ {documents : List Document} {f : Document},
    f ∈ firstDeclarations documents → (documents.find? fun d => d.id = f.id) = some f
  | d :: more, f, h => by
    rw [firstDeclarations, List.mem_cons] at h
    rcases h with rfl | h
    · rw [List.find?_cons_of_pos (by simp)]
    · obtain ⟨h, hne⟩ := List.mem_filter.1 h
      have hd : d.id ≠ f.id := Ne.symm (of_decide_eq_true hne)
      rw [List.find?_cons_of_neg (by simpa using hd)]
      exact find?_of_mem_firstDeclarations h

theorem exists_firstDeclaration : ∀ {documents : List Document} {d : Document}, d ∈ documents →
    ∃ f ∈ firstDeclarations documents, f.id = d.id
  | e :: more, d, h => by
    by_cases hid : e.id = d.id
    · exact ⟨e, List.mem_cons_self, hid⟩
    · rcases List.mem_cons.1 h with rfl | h
      · exact absurd rfl hid
      · obtain ⟨f, hf, hfd⟩ := exists_firstDeclaration h
        have hne : f.id ≠ e.id := fun heq => hid (heq.symm.trans hfd)
        exact ⟨f, List.mem_cons_of_mem e (List.mem_filter.2 ⟨hf, by simpa using hne⟩), hfd⟩

theorem mem_ids_firstDeclarations {documents : List Document} {id : String} :
    id ∈ (firstDeclarations documents).map (·.id) ↔ id ∈ documents.map (·.id) := by
  constructor
  · intro h
    obtain ⟨f, hf, rfl⟩ := List.mem_map.1 h
    exact List.mem_map.2 ⟨f, mem_of_mem_firstDeclarations hf, rfl⟩
  · intro h
    obtain ⟨d, hd, rfl⟩ := List.mem_map.1 h
    obtain ⟨f, hf, hid⟩ := exists_firstDeclaration hd
    exact List.mem_map.2 ⟨f, hf, hid⟩

theorem firstDeclarations_concat : ∀ (documents : List Document) (d : Document),
    firstDeclarations (documents ++ [d]) =
      if d.id ∈ documents.map (·.id) then firstDeclarations documents else firstDeclarations documents ++ [d]
  | [], d => rfl
  | e :: more, d => by
    rw [List.cons_append, firstDeclarations, firstDeclarations, firstDeclarations_concat more d]
    rw [List.map_cons]
    by_cases hmore : d.id ∈ more.map (·.id)
    · rw [if_pos hmore, if_pos (List.mem_cons_of_mem _ hmore)]
    · rw [if_neg hmore, List.filter_append]
      by_cases hid : d.id = e.id
      · rw [if_pos (List.mem_cons.2 (.inl hid)), List.filter_cons_of_neg (by simp [hid]), List.filter_nil,
          List.append_nil]
      · rw [if_neg (fun h => (List.mem_cons.1 h).elim hid hmore), List.filter_cons_of_pos (by simp [hid]),
          List.filter_nil, List.cons_append]

/-- **Grouping by id is a permutation**, when the ids are distinct and every document has one of them. -/
theorem flatMap_filter_id_perm : ∀ {ids : List String} {documents : List Document}, ids.Nodup →
    (∀ d ∈ documents, d.id ∈ ids) → (ids.flatMap fun id => documents.filter fun d => d.id = id).Perm documents
  | [], documents, _, h => by
    obtain rfl : documents = [] := List.eq_nil_iff_forall_not_mem.2 fun d hd => List.not_mem_nil (h d hd)
    exact .refl _
  | id :: ids, documents, hdistinct, h => by
    obtain ⟨hid, hids⟩ := List.nodup_cons.1 hdistinct
    have hrest : ∀ d ∈ documents.filter (fun d => !decide (d.id = id)), d.id ∈ ids := by
      intro d hd
      obtain ⟨hd, hne⟩ := List.mem_filter.1 hd
      exact (List.mem_cons.1 (h d hd)).resolve_left (by simpa using hne)
    have hgroups : (ids.flatMap fun i => documents.filter fun d => d.id = i) =
        ids.flatMap fun i => (documents.filter fun d => !decide (d.id = id)).filter fun d => d.id = i := by
      refine List.flatMap_congr fun i hi => ?_
      rw [List.filter_filter]
      refine List.filter_congr fun d _ => ?_
      have hne : i ≠ id := fun heq => hid (heq ▸ hi)
      by_cases hd : d.id = i
      · simp [hd, hne]
      · simp [hd]
    rw [List.flatMap_cons, hgroups]
    refine ((flatMap_filter_id_perm hids hrest).append_left _).trans ?_
    exact List.filter_append_perm (fun d => d.id = id) documents

namespace Table

variable {α : Type}

theorem entries_eq (table : Table α) (fallback : α) :
    table.entries = table.keys.map fun key => (key, (table.get? key).getD fallback) := by
  unfold keys get?
  rw [List.map_map]
  refine (List.map_id' table.entries).symm.trans (List.map_congr_left ?_)
  rintro ⟨key, value⟩ h
  rw [Function.comp_apply, (lookup_eq_some_iff_mem table.distinct).2 h]
  rfl

/-- **A table that finds first declarations** still does so when a document more has come. -/
theorem get?_insertNew_eq_find? {table : Table Document} {documents : List Document}
    (h : ∀ id, table.get? id = documents.find? fun d => d.id = id) (d : Document) (id : String) :
    (table.insertNew d.id d).get? id = (documents ++ [d]).find? fun e => e.id = id := by
  rw [insertNew, get?_update, List.find?_append, ← h]
  by_cases heq : id = d.id
  · subst heq
    rw [if_pos rfl, List.find?_cons_of_pos (by simp)]
    cases table.get? d.id <;> rfl
  · rw [if_neg heq, List.find?_cons_of_neg (by simpa using Ne.symm heq), List.find?_nil, Option.or_none]

end Table

/-- **What an index holds of documents**, added in this order. -/
structure Indexes (documents : List Document) (index : Index) : Prop where
  keys_documents : index.documents.keys = (firstDeclarations documents).map (·.id)
  keys_references : index.references.keys = (firstDeclarations documents).map (·.id)
  document? : ∀ id, index.document? id = documents.find? fun d => d.id = id
  referencesFrom : ∀ id, index.referencesFrom id = (documents.filter fun d => d.id = id).flatMap Document.references

namespace Indexes

theorem empty (guids : List GuidMention) : Indexes [] (Index.ofMentions guids) :=
  ⟨rfl, rfl, fun _ => rfl, fun _ => rfl⟩

theorem keys_update {α : Type} {documents : List Document} {table : Table α}
    (h : table.keys = (firstDeclarations documents).map (·.id)) (d : Document) (f : Option α → α) :
    (table.update d.id f).keys = (firstDeclarations (documents ++ [d])).map (·.id) := by
  rw [Table.keys_update, h, firstDeclarations_concat]
  by_cases hid : d.id ∈ documents.map (·.id)
  · rw [if_pos (mem_ids_firstDeclarations.2 hid), if_pos hid]
  · rw [if_neg (fun hmem => hid (mem_ids_firstDeclarations.1 hmem)), if_neg hid, List.map_append]
    rfl

/-- **One document more**: the first one of an id stays, and references are gathered. -/
theorem add {documents : List Document} {index : Index} (h : Indexes documents index) (d : Document) :
    Indexes (documents ++ [d]) (index.add d) where
  keys_documents := keys_update h.keys_documents d _
  keys_references := keys_update h.keys_references d _
  document? := Table.get?_insertNew_eq_find? h.document? d
  referencesFrom := by
    intro id
    have hid := h.referencesFrom id
    unfold Index.referencesFrom at hid ⊢
    rw [Index.add, Table.append, Table.get?_update, List.filter_append, List.flatMap_append, ← hid]
    by_cases heq : id = d.id
    · subst heq
      rw [if_pos rfl, List.filter_cons_of_pos (by simp), List.filter_nil, List.flatMap_singleton]
      rfl
    · rw [if_neg heq, List.filter_cons_of_neg (by simpa using Ne.symm heq), List.filter_nil, List.flatMap_nil,
        List.append_nil]

theorem foldl_add : ∀ (more : List Document) {documents : List Document} {index : Index}, Indexes documents index →
    Indexes (documents ++ more) (more.foldl Index.add index)
  | [], documents, _, h => by rwa [List.append_nil]
  | d :: more, documents, _, h => by
    rw [List.append_cons, List.foldl_cons]
    exact foldl_add more (h.add d)

theorem ofStream (stream : Stream) : Indexes stream.documents (Index.ofStream stream) :=
  foldl_add stream.documents (empty _)

theorem declares_iff {documents : List Document} {index : Index} (h : Indexes documents index) {id : String} :
    index.declares id = true ↔ id ∈ documents.map (·.id) := by
  have hid := h.document? id
  unfold Index.document? at hid
  rw [Index.declares, Table.contains, hid, List.find?_isSome, List.mem_map]
  simp only [decide_eq_true_eq]

theorem nodup_firstDeclarations {documents : List Document} {index : Index} (h : Indexes documents index) :
    ((firstDeclarations documents).map (·.id)).Nodup := h.keys_documents ▸ index.documents.distinct

/-- **The documents of an index are the first declarations**, in order. -/
theorem entries_documents {documents : List Document} {index : Index} (h : Indexes documents index) :
    index.documents.entries = (firstDeclarations documents).map fun d => (d.id, d) := by
  rw [index.documents.entries_eq default, h.keys_documents, List.map_map]
  refine List.map_congr_left fun d hd => ?_
  have hid := h.document? d.id
  unfold Index.document? at hid
  rw [Function.comp_apply, hid, find?_of_mem_firstDeclarations hd]
  rfl

/-- **The references of an index stand under the same ids**, and are those of all documents with that id. -/
theorem entries_references {documents : List Document} {index : Index} (h : Indexes documents index) :
    index.references.entries =
      (firstDeclarations documents).map fun d =>
        (d.id, (documents.filter fun e => e.id = d.id).flatMap Document.references) := by
  rw [index.references.entries_eq [], h.keys_references, List.map_map]
  exact List.map_congr_left fun d _ => congrArg (Prod.mk d.id) (h.referencesFrom d.id)

/-- **An id with references has a first declaration**, which gives it its label. -/
theorem labelOf {documents : List Document} {index : Index} (h : Indexes documents index) {d : Document}
    (hd : d ∈ firstDeclarations documents) : index.document? d.id = some d ∧ index.labelOf d.id = d.label := by
  have hid : index.document? d.id = some d := (h.document? d.id).trans (find?_of_mem_firstDeclarations hd)
  refine ⟨hid, ?_⟩
  rw [Index.labelOf, hid]

end Indexes

namespace Index

theorem guids_foldl_add : ∀ (documents : List Document) (index : Index),
    (documents.foldl add index).guids = index.guids ++ documents.flatMap Document.guidMentions
  | [], index => (List.append_nil _).symm
  | d :: documents, index => by
    rw [List.foldl_cons, guids_foldl_add documents, List.flatMap_cons, ← List.append_assoc]
    rfl

/-- **The GUID values of an index** are those of the preamble, and then those of the documents. -/
theorem guids_ofStream (stream : Stream) :
    (ofStream stream).guids = stream.preambleMentions ++ stream.documents.flatMap Document.guidMentions :=
  guids_foldl_add _ _

end Index
end AssetIntegrity
