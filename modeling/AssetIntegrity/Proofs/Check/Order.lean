import AssetIntegrity.Proofs.Check.Grounds
import AssetIntegrity.Proofs.Check.Rewriting
import AssetIntegrity.Proofs.Stream.Blocks
/-!
# Order — documents may stand in any order

When no id is declared twice, every document answers for its own references and GUID values, and the rules look at the
ids of the other documents without regard to their order.  So putting the documents of a text in another order puts what
is found in another order (`Profile.streamFindings_perm`), and no place is mentioned (`check_blocks_perm`).
-/
namespace AssetIntegrity

open Text

theorem firstDeclarations_of_nodup : ∀ {documents : List Document}, (documents.map (·.id)).Nodup →
    firstDeclarations documents = documents
  | [], _ => rfl
  | d :: documents, h => by
    obtain ⟨hd, hdocuments⟩ := List.nodup_cons.1 h
    rw [firstDeclarations, firstDeclarations_of_nodup hdocuments, List.filter_eq_self.2]
    intro e he
    exact decide_eq_true fun hid => hd (List.mem_map.2 ⟨e, he, hid⟩)

theorem filter_id_of_nodup : ∀ {documents : List Document}, (documents.map (·.id)).Nodup → ∀ {d : Document},
    d ∈ documents → (documents.filter fun e => e.id = d.id) = [d]
  | e :: documents, h, d, hd => by
    obtain ⟨he, hdocuments⟩ := List.nodup_cons.1 h
    rcases List.mem_cons.1 hd with rfl | hd
    · rw [List.filter_cons_of_pos (by simp), List.filter_eq_nil_iff.2]
      intro f hf hid
      exact he (List.mem_map.2 ⟨f, hf, of_decide_eq_true hid⟩)
    · have hne : e.id ≠ d.id := fun hid => he (List.mem_map.2 ⟨d, hd, hid.symm⟩)
      rw [List.filter_cons_of_neg (by simpa using hne), filter_id_of_nodup hdocuments hd]

/-- **Without a repeated id every document answers for its own references.** -/
theorem Indexes.brokenReferences_of_nodup {documents : List Document} {index : Index} (h : Indexes documents index)
    (hdistinct : (documents.map (·.id)).Nodup) :
    index.brokenReferences =
      documents.flatMap fun d => (d.danglingIds documents).map fun r => .brokenReference d.id d.label r := by
  rw [h.brokenReferences, firstDeclarations_of_nodup hdistinct]
  refine List.flatMap_congr fun d hd => ?_
  rw [filter_id_of_nodup hdistinct hd, List.flatMap_singleton]

theorem Document.danglingIds_perm {documents documents' : List Document} (h : documents'.Perm documents)
    (d : Document) : d.danglingIds documents' = d.danglingIds documents := by
  unfold danglingIds
  simp only [h.mem_iff]

theorem repeats_eq_nil {stream : Stream} (h : (stream.documents.map (·.id)).Nodup) : stream.repeats = [] :=
  repeatsAfter_eq_nil_iff.2 ⟨h, fun _ _ => rfl⟩

theorem brokenReferences_perm {preamble : Text} {documents documents' : List Document}
    (hdistinct : (documents.map (·.id)).Nodup) (h : documents'.Perm documents) :
    (Index.ofStream ⟨preamble, documents'⟩).brokenReferences.Perm
      (Index.ofStream ⟨preamble, documents⟩).brokenReferences := by
  have hdistinct' : (documents'.map (·.id)).Nodup := (h.map (·.id)).nodup_iff.2 hdistinct
  rw [(Indexes.ofStream _).brokenReferences_of_nodup hdistinct',
    (Indexes.ofStream _).brokenReferences_of_nodup hdistinct]
  simp only [Document.danglingIds_perm h]
  exact h.flatMap_right _

theorem invalidGuids_perm {preamble : Text} {documents documents' : List Document} (h : documents'.Perm documents) :
    (Index.ofStream ⟨preamble, documents'⟩).invalidGuids.Perm (Index.ofStream ⟨preamble, documents⟩).invalidGuids := by
  unfold Index.invalidGuids
  rw [Index.guids_ofStream, Index.guids_ofStream]
  exact (((h.flatMap_right _).append_left _).filter _).map _

namespace Profile

/-- **Documents in another order give the same findings in another order**, when no id is declared twice. -/
theorem streamFindings_perm (profile : Profile) {preamble : Text} {documents documents' : List Document}
    (hdistinct : (documents.map (·.id)).Nodup) (h : documents'.Perm documents) :
    (profile.streamFindings ⟨preamble, documents'⟩).Perm (profile.streamFindings ⟨preamble, documents⟩) := by
  have hdistinct' : (documents'.map (·.id)).Nodup := (h.map (·.id)).nodup_iff.2 hdistinct
  unfold streamFindings indexFindings
  rw [repeats_eq_nil hdistinct', repeats_eq_nil hdistinct, h.length_eq]
  refine .append_left _ (.append ?_ ?_)
  · split
    · exact brokenReferences_perm hdistinct h
    · exact .refl _
  · split
    · exact invalidGuids_perm h
    · exact .refl _

theorem keeps_unplaced : Keeps (fun _ => .start) Document.unplaced where
  marker := fun _ => rfl
  position := fun _ => rfl
  localIds := fun _ => rfl
  guids := fun _ => rfl

/-- **Without a repeated id no place is mentioned**, so it does not matter where the documents stand. -/
theorem streamFindings_unplaced (profile : Profile) {preamble : Text} {documents : List Document}
    (hdistinct : (documents.map (·.id)).Nodup) :
    profile.streamFindings ⟨preamble, documents.map Document.unplaced⟩ =
      profile.streamFindings ⟨preamble, documents⟩ := by
  rw [keeps_unplaced.streamFindings_map profile (fun _ => rfl) rfl documents]
  refine Finding.map_moved fun finding hf => ?_
  unfold streamFindings at hf
  rw [repeats_eq_nil hdistinct, List.append_nil] at hf
  rcases List.mem_append.1 hf with hf | hf
  · exact kind_ne_duplicateId_of_mem_headerFindings hf
  · exact profile.kind_ne_duplicateId_of_mem_indexFindings hf

/-- What is found in a text of blocks with distinct ids, wherever the blocks stand. -/
theorem findings_blocks (profile : Profile) {preamble : Text} (hplain : ∀ l ∈ preamble.lines, Marker.parse? l = none)
    (hended : EndsLine preamble) {blocks : List Block} (hdistinct : (blocks.map (·.marker.id)).Nodup) :
    profile.findings (preamble ++ .ofBlocks blocks) = profile.streamFindings ⟨preamble, blocks.map Block.document⟩ := by
  obtain ⟨hpreamble, hdocuments⟩ := Stream.unplaced_ofText_blocks hplain hended blocks
  have hids : ((Stream.ofText (preamble ++ .ofBlocks blocks)).documents.map (·.id)).Nodup := by
    rw [← keeps_unplaced.ids, hdocuments, List.map_map]
    exact hdistinct
  rw [findings]
  generalize Stream.ofText (preamble ++ .ofBlocks blocks) = stream at hpreamble hdocuments hids ⊢
  obtain ⟨front, documents⟩ := stream
  obtain rfl : front = preamble := hpreamble
  rw [← hdocuments]
  exact (profile.streamFindings_unplaced hids).symm

end Profile

/-- **The order of the documents does not matter.**  Blocks with distinct ids, put in any order behind a preamble of
whole lines without a marker line, give the same issues in another order, and so the same flag and the same verdict. -/
theorem check_blocks_perm (profile : Profile) {preamble : Text} (hplain : ∀ l ∈ preamble.lines, Marker.parse? l = none)
    (hended : EndsLine preamble) {blocks blocks' : List Block} (hdistinct : (blocks.map (·.marker.id)).Nodup)
    (hperm : blocks'.Perm blocks) :
    (profile.check (preamble ++ .ofBlocks blocks')).issues.Perm (profile.check (preamble ++ .ofBlocks blocks)).issues ∧
    (profile.check (preamble ++ .ofBlocks blocks')).valid = (profile.check (preamble ++ .ofBlocks blocks)).valid ∧
    (Ruling.ofReport (profile.check (preamble ++ .ofBlocks blocks'))).verdict =
      (Ruling.ofReport (profile.check (preamble ++ .ofBlocks blocks))).verdict := by
  have hdistinct' : (blocks'.map (·.marker.id)).Nodup := (hperm.map (·.marker.id)).nodup_iff.2 hdistinct
  have hids : ((blocks.map Block.document).map (·.id)).Nodup := by
    rw [List.map_map]
    exact hdistinct
  have hissues : (profile.check (preamble ++ .ofBlocks blocks')).issues.Perm
      (profile.check (preamble ++ .ofBlocks blocks)).issues := by
    rw [Profile.issues_check, Profile.issues_check, profile.findings_blocks hplain hended hdistinct,
      profile.findings_blocks hplain hended hdistinct']
    exact (profile.streamFindings_perm hids (hperm.map Block.document)).map _
  have hvalid : (profile.check (preamble ++ .ofBlocks blocks')).valid =
      (profile.check (preamble ++ .ofBlocks blocks)).valid := by
    rw [Bool.eq_iff_iff]
    refine Report.valid_ofIssues.trans (Iff.trans ?_ Report.valid_ofIssues.symm)
    exact forall_congr' fun issue => imp_congr_left hissues.mem_iff
  refine ⟨hissues, hvalid, ?_⟩
  unfold Ruling.ofReport
  rw [hvalid]

/-- The first document refers to the second one and to no document, and the second one holds a value that is no GUID.
Both are reported, and the tag directive that is missing. -/
theorem check_blocks_perm_swapped :
    ∃ first second : Block,
      first.text = "--- !u!1 &1\n  a: \x7bfileID: 2\x7d\n  b: \x7bfileID: 7\x7d\n".toList ∧
      second.text = "--- !u!4 &2 stripped\n  guid: x\n".toList ∧
      (∀ l ∈ Text.lines "%YAML 1.1\n".toList, Marker.parse? l = none) ∧ EndsLine "%YAML 1.1\n".toList ∧
      ([first, second].map (·.marker.id)).Nodup ∧ [second, first].Perm [first, second] ∧
      (Profile.blocking.check ("%YAML 1.1\n".toList ++ .ofBlocks [second, first])).issues.Perm
        (Profile.blocking.check ("%YAML 1.1\n".toList ++ .ofBlocks [first, second])).issues ∧
      (Profile.blocking.check ("%YAML 1.1\n".toList ++ .ofBlocks [second, first])).valid =
        (Profile.blocking.check ("%YAML 1.1\n".toList ++ .ofBlocks [first, second])).valid ∧
      (Ruling.ofReport (Profile.blocking.check ("%YAML 1.1\n".toList ++ .ofBlocks [second, first]))).verdict =
        (Ruling.ofReport (Profile.blocking.check ("%YAML 1.1\n".toList ++ .ofBlocks [first, second]))).verdict ∧
      (Profile.blocking.check ("%YAML 1.1\n".toList ++ .ofBlocks [first, second])).issues.map (fun issue =>
          (issue.kind, issue.documentId)) =
        [(.missingTag, none), (.brokenReference, some "1"), (.invalidGuid, some "2")] := by
  let first : Block :=
    ⟨"--- !u!1 &1\n".toList, "  a: \x7bfileID: 2\x7d\n  b: \x7bfileID: 7\x7d\n".toList, ⟨"1", "1", false⟩,
      by decide, by decide, by decide, by decide, by decide⟩
  let second : Block :=
    ⟨"--- !u!4 &2 stripped\n".toList, "  guid: x\n".toList, ⟨"4", "2", true⟩,
      by decide, by decide, by decide, by decide, by decide⟩
  have hperm : [second, first].Perm [first, second] := .swap _ _ _
  refine ⟨first, second, by decide, by decide, by decide, by decide, by decide, hperm, ?_⟩
  have hplain : ∀ l ∈ Text.lines "%YAML 1.1\n".toList, Marker.parse? l = none := by decide
  obtain ⟨hissues, hvalid, hverdict⟩ := check_blocks_perm .blocking hplain (by decide) (by decide) hperm
  exact ⟨hissues, hvalid, hverdict, by decide +kernel⟩

end AssetIntegrity
