import AssetIntegrity.Proofs.Check.Order
import AssetIntegrity.Proofs.Stream.Composition
/-!
# Insertion — one document more

A block with a new id, put between two documents of a text, leaves the other documents and the preamble as they are
(`Stream.inserted_block`).  Rule by rule, what is found then is what was found before, with these changes:
- references to the new id are no longer broken, and those of the new document that lead nowhere are (`brokenLinks`);
- no id is repeated more often than before (`length_repeats`);
- the malformed GUID values of the new document are added (`invalidGuids`);
- there is a document now (`headerFindings`).

Taken together they are the effect of inserting a block on a report (`check_insert_block`).
-/
namespace AssetIntegrity

open Text

/-! ## Broken references as links -/

/-- The link that a broken reference stands for: the id that it is reported under and the id that it points at. -/
def Finding.link? : Finding → Option (String × String)
  | .brokenReference source _ target => some (source, target)
  | _ => none

/-- The links behind the broken references of an index, in the order of the report. -/
def Index.brokenLinks (index : Index) : List (String × String) := index.brokenReferences.filterMap Finding.link?

/-- The links of a document that lead nowhere among documents. -/
def Document.brokenLinks (d : Document) (documents : List Document) : List (String × String) :=
  (d.danglingIds documents).map (d.id, ·)

/-- The links behind the broken references that a strict check of a text reports. -/
def Text.brokenLinks (text : Text) : List (String × String) := (Index.ofStream (.ofText text)).brokenLinks

/-- How messages about a text name the source of a reference. -/
def Text.labelOf (text : Text) (id : String) : String := (Index.ofStream (.ofText text)).labelOf id

/-- **A broken reference is its link**, with the label of its source in the message. -/
theorem Index.brokenReferences_eq_map_brokenLinks (index : Index) :
    index.brokenReferences = index.brokenLinks.map fun (source, target) =>
      .brokenReference source (index.labelOf source) target := by
  unfold brokenLinks brokenReferences
  rw [List.filterMap_flatMap, List.map_flatMap]
  refine List.flatMap_congr fun (source, targets) _ => ?_
  have hlink : ∀ l : List String, (l.map fun target => Finding.brokenReference source (index.labelOf source) target
      ).filterMap Finding.link? = l.map (source, ·) := by
    intro l
    rw [List.filterMap_map, ← List.filterMap_eq_map]
    rfl
  unfold brokenFrom
  rw [hlink, List.map_map]
  rfl

namespace Indexes

/-- **The broken links of an index are those of its documents**, each on its own account. -/
theorem brokenLinks_perm {documents : List Document} {index : Index} (h : Indexes documents index) :
    index.brokenLinks.Perm (documents.flatMap fun d => d.brokenLinks documents) := by
  have hgrouped : index.brokenLinks =
      (((firstDeclarations documents).map (·.id)).flatMap fun id => documents.filter fun d => d.id = id).flatMap
        fun d => d.brokenLinks documents := by
    unfold Index.brokenLinks
    rw [h.brokenReferences, List.filterMap_flatMap, List.flatMap_map, List.flatMap_assoc]
    refine List.flatMap_congr fun first _ => ?_
    rw [List.filterMap_flatMap]
    refine List.flatMap_congr fun d hd => ?_
    have hid : d.id = first.id := of_decide_eq_true (List.mem_filter.1 hd).2
    rw [List.filterMap_map, Document.brokenLinks, hid, ← List.filterMap_eq_map]
    rfl
  rw [hgrouped]
  refine (flatMap_filter_id_perm h.nodup_firstDeclarations fun d hd => ?_).flatMap_right _
  exact mem_ids_firstDeclarations.2 (List.mem_map_of_mem hd)

end Indexes

/-! ## A document among documents -/

/-- **A new id is one target less** that leads nowhere. -/
theorem Document.danglingIds_insert (front behind : List Document) (d e : Document) :
    e.danglingIds (front ++ d :: behind) = (e.danglingIds (front ++ behind)).filter fun r => r ≠ d.id := by
  unfold danglingIds
  rw [List.filter_filter]
  refine List.filter_congr fun r _ => ?_
  rw [Bool.eq_iff_iff]
  simp only [List.forall_mem_append, List.forall_mem_cons, Bool.and_eq_true, decide_eq_true_eq, ne_comm (a := r)]
  grind

theorem Document.danglingIds_insert_self (front behind : List Document) (d : Document) :
    d.danglingIds (front ++ d :: behind) = d.danglingIds (front ++ behind) := by
  rw [danglingIds_insert, List.filter_eq_self]
  intro r hr
  exact decide_eq_true (of_decide_eq_true (List.mem_filter.1 hr).2).1

theorem flatMap_brokenLinks_insert (front behind : List Document) (d : Document) :
    ((front ++ d :: behind).flatMap fun e => e.brokenLinks (front ++ d :: behind)).Perm
      ((((front ++ behind).flatMap fun e => e.brokenLinks (front ++ behind)).filter fun link => link.2 ≠ d.id)
        ++ d.brokenLinks (front ++ behind)) := by
  have hothers : ∀ e : Document, e.brokenLinks (front ++ d :: behind) =
      (e.brokenLinks (front ++ behind)).filter fun link => link.2 ≠ d.id := by
    intro e
    unfold Document.brokenLinks
    rw [Document.danglingIds_insert, List.filter_map]
    rfl
  have hself : d.brokenLinks (front ++ d :: behind) = d.brokenLinks (front ++ behind) := by
    unfold Document.brokenLinks
    rw [Document.danglingIds_insert_self]
  refine (List.perm_middle.flatMap_right _).trans ?_
  rw [List.flatMap_cons, hself, List.filter_flatMap]
  simp only [hothers]
  exact List.perm_append_comm

theorem repeatsAfter_congr : ∀ {documents : List Document} {declared declared' : Table Document},
    (∀ d ∈ documents, declared'.get? d.id = declared.get? d.id) →
    repeatsAfter declared' documents = repeatsAfter declared documents
  | [], _, _, _ => rfl
  | d :: documents, declared, declared', h => by
    obtain ⟨hd, hdocuments⟩ := List.forall_mem_cons.1 h
    have hnext : ∀ e ∈ documents,
        (declared'.insertNew d.id d).get? e.id = (declared.insertNew d.id d).get? e.id := by
      intro e he
      unfold Table.insertNew
      rw [Table.get?_update, Table.get?_update, hd, hdocuments e he]
    rw [repeatsAfter, repeatsAfter, hd, repeatsAfter_congr hnext]

/-- **A new id repeats nothing**, and nothing repeats it. -/
theorem repeatsAfter_insert : ∀ {front : List Document} {declared : Table Document} {behind : List Document}
    {d : Document}, d.id ∉ (front ++ behind).map (·.id) → declared.get? d.id = none →
    repeatsAfter declared (front ++ d :: behind) = repeatsAfter declared (front ++ behind)
  | [], declared, behind, d, hnew, hnone => by
    have hnext : ∀ e ∈ behind, (declared.insertNew d.id d).get? e.id = declared.get? e.id := by
      intro e he
      have hne : e.id ≠ d.id := fun heq => hnew (List.mem_map.2 ⟨e, he, heq⟩)
      rw [Table.insertNew, Table.get?_update, if_neg hne]
    rw [List.nil_append, repeatsAfter, hnone, List.nil_append, repeatsAfter_congr hnext, List.nil_append]
  | e :: front, declared, behind, d, hnew, hnone => by
    rw [List.cons_append, List.map_cons, List.mem_cons, not_or] at hnew
    have hnone' : (declared.insertNew e.id e).get? d.id = none := by
      rw [Table.insertNew, Table.get?_update, if_neg hnew.1, hnone]
    rw [List.cons_append, List.cons_append, repeatsAfter, repeatsAfter, repeatsAfter_insert hnew.2 hnone']

/-! ## A document in a stream -/

/-- **A stream with one document more**, places aside; its id is new. -/
structure Stream.Inserted (d : Document) (before after : Stream) : Prop where
  preamble : after.preamble = before.preamble
  documents : ∃ front behind, before.documents.map Document.unplaced = front ++ behind ∧
    after.documents.map Document.unplaced = front ++ d :: behind
  new : d.id ∉ before.documents.map (·.id)

namespace Stream.Inserted

variable {d : Document} {before after : Stream} (h : Stream.Inserted d before after)
include h

theorem brokenLinks : (Index.ofStream after).brokenLinks.Perm
    ((Index.ofStream before).brokenLinks.filter (fun link => link.2 ≠ d.id) ++ d.brokenLinks before.documents) := by
  obtain ⟨front, behind, hbefore, hafter⟩ := h.documents
  have hunplaced : ∀ stream : Stream, (Index.ofStream stream).brokenLinks =
      (Index.ofStream ⟨stream.preamble, stream.documents.map Document.unplaced⟩).brokenLinks := by
    intro stream
    unfold Index.brokenLinks
    rw [Profile.keeps_unplaced.brokenReferences_map stream.preamble]
  have hself : d.brokenLinks before.documents = d.brokenLinks (front ++ behind) := by
    unfold Document.brokenLinks Document.danglingIds
    rw [← hbefore]
    simp only [List.forall_mem_map, Document.unplaced]
  rw [hunplaced, hunplaced before, hafter, hbefore, hself]
  refine (Indexes.ofStream _).brokenLinks_perm.trans ?_
  refine (flatMap_brokenLinks_insert front behind d).trans ?_
  exact ((Indexes.ofStream ⟨_, front ++ behind⟩).brokenLinks_perm.symm.filter _).append_right _

theorem length_repeats : after.repeats.length = before.repeats.length := by
  obtain ⟨front, behind, hbefore, hafter⟩ := h.documents
  have hunplaced : ∀ documents : List Document, (repeatsAfter .empty documents).length =
      (repeatsAfter .empty (documents.map Document.unplaced)).length := by
    intro documents
    have hmoved : repeatsAfter .empty (documents.map Document.unplaced) =
        (repeatsAfter .empty documents).map (Finding.moved fun _ => .start) :=
      Profile.keeps_unplaced.repeatsAfter_map fun _ => rfl
    rw [hmoved, List.length_map]
  have hnew : d.id ∉ (front ++ behind).map (·.id) := by
    rw [← hbefore, Profile.keeps_unplaced.ids]
    exact h.new
  rw [repeats, repeats, hunplaced, hunplaced before.documents, hafter, hbefore, repeatsAfter_insert hnew rfl]

theorem invalidGuids : (Index.ofStream after).invalidGuids.Perm
    ((Index.ofStream before).invalidGuids
      ++ ((guids d.body).filter fun value => !isGuid value).map fun value => .invalidGuid value (some d.id)) := by
  obtain ⟨front, behind, hbefore, hafter⟩ := h.documents
  have hmentions : ∀ stream : Stream, (Index.ofStream stream).guids =
      stream.preambleMentions ++ (stream.documents.map Document.unplaced).flatMap Document.guidMentions := by
    intro stream
    rw [Index.guids_ofStream, List.flatMap_map]
    rfl
  have hpreamble : after.preambleMentions = before.preambleMentions := by
    unfold preambleMentions
    rw [h.preamble]
  have hguids : (Index.ofStream after).guids.Perm ((Index.ofStream before).guids ++ d.guidMentions) := by
    rw [hmentions, hmentions before, hafter, hbefore, hpreamble, List.append_assoc]
    refine .append_left _ ((List.perm_middle.flatMap_right _).trans ?_)
    rw [List.flatMap_cons]
    exact List.perm_append_comm
  have hown : (d.guidMentions.filter fun token => !isGuid token.value).map
      (fun token => Finding.invalidGuid token.value token.owner) =
      ((guids d.body).filter fun value => !isGuid value).map fun value => .invalidGuid value (some d.id) := by
    unfold Document.guidMentions
    rw [List.filter_map, List.map_map]
    rfl
  unfold Index.invalidGuids
  rw [← hown, ← List.map_append, ← List.filter_append]
  exact (hguids.filter _).map _

theorem headerFindings : AssetIntegrity.headerFindings after.preamble after.documents.length =
    (AssetIntegrity.headerFindings before.preamble before.documents.length).filter
      fun finding => finding.kind ≠ .noMarkers := by
  obtain ⟨front, behind, -, hafter⟩ := h.documents
  have hsome : after.documents.length ≠ 0 := by
    rw [← List.length_map Document.unplaced, hafter, List.length_append, List.length_cons]
    exact Nat.succ_ne_zero _
  have hheader : [Finding.missingHeader].filter (fun finding => finding.kind ≠ .noMarkers) = [.missingHeader] := rfl
  have htag : [Finding.missingTag].filter (fun finding => finding.kind ≠ .noMarkers) = [.missingTag] := rfl
  have hnone : [Finding.noMarkers].filter (fun finding => finding.kind ≠ .noMarkers) = [] := rfl
  unfold AssetIntegrity.headerFindings
  simp only [if_neg hsome, h.preamble, List.filter_append, apply_ite (List.filter _), List.filter_nil, hheader, htag,
    hnone, ite_self]

end Stream.Inserted

/-! ## A block in a text -/

theorem Text.EndsLine.append {a b : Text} (ha : EndsLine a) (hb : EndsLine b) : EndsLine (a ++ b) := by
  rcases hb with rfl | ⟨front, rfl⟩
  · rwa [List.append_nil]
  · exact .inr ⟨a ++ front, (List.append_assoc _ _ _).symm⟩

theorem Text.aboveMarkers_eq_nil {text : Text} (h : ∀ line ∈ text.lines.head?, Marker.isMarkerLine line = true) :
    text.aboveMarkers = [] := by
  unfold aboveMarkers
  cases hlines : text.lines with
  | nil => rfl
  | cons line lines =>
    have hline : Marker.isMarkerLine line = true := h line (by rw [hlines]; rfl)
    rw [List.takeWhile_cons_of_neg (by rw [hline]; decide), List.flatten_nil]

namespace Stream

theorem join_of_no_preamble (a : Stream) {b : Stream} (h : b.preamble = []) :
    a.join b = ⟨a.preamble, a.documents ++ b.documents⟩ := by
  obtain ⟨preamble, documents⟩ := a
  cases documents using List.reverseRecOn with
  | nil => rw [join_of_nil, h, List.append_nil, List.nil_append]
  | append_singleton documents last => rw [join_of_concat, h, Document.extend, List.append_nil, List.append_cons]

/-- **A text that begins with a marker line** adds documents to the text in front of it. -/
theorem ofText_append_of_marker {a b : Text} (ha : EndsLine a)
    (hb : ∀ line ∈ b.lines.head?, Marker.isMarkerLine line = true) :
    ofText (a ++ b) = ⟨(ofText a).preamble, (ofText a).documents ++ (ofText b).documents.map (Document.behind a)⟩ := by
  have hpreamble : ((ofText b).behind a).preamble = [] := (preamble_ofText b).trans (aboveMarkers_eq_nil hb)
  rw [ofText_append_eq_join ha, join_of_no_preamble _ hpreamble]
  rfl

theorem ofText_block (block : Block) : ofText block.text = ⟨[], [block.document]⟩ := by
  have hlines := block.lines_text_append []
  have hnil : Text.lines [] = [] := rfl
  rw [hnil, List.append_nil, List.append_nil] at hlines
  have hread : ofText block.text = readAt .start (block.line :: block.body.lines) := by
    rw [← hlines]
    rfl
  rw [hread, readAt_marker _ block.marks, readAt_of_plain _ block.plain, flatten_lines]
  rfl

/-- **A block is inserted as one document**, wherever it is put between two documents. -/
theorem inserted_block {a b : Text} (ha : EndsLine a) (hb : ∀ line ∈ b.lines.head?, Marker.isMarkerLine line = true)
    {block : Block} (hnew : block.marker.id ∉ (a ++ b).declaredIds) :
    Inserted block.document (ofText (a ++ b)) (ofText (a ++ block.text ++ b)) := by
  have hfirst : ∀ line ∈ block.text.lines.head?, Marker.isMarkerLine line = true := by
    have hlines := block.lines_text_append []
    rw [List.append_nil] at hlines
    rw [hlines, List.head?_cons]
    rintro line ⟨⟩
    rw [Marker.isMarkerLine, block.marks]
    rfl
  have hafter := ofText_append_of_marker (ha.append (block.ended.append block.bodyEnded)) hb
  have hbefore := ofText_append_of_marker ha hb
  have hmoved : ∀ text, ((ofText b).documents.map (Document.behind text)).map Document.unplaced =
      (ofText b).documents.map Document.unplaced := fun _ => List.map_map
  rw [← Block.text, ofText_append_of_marker ha hfirst, ofText_block] at hafter
  refine ⟨by rw [hafter, hbefore], ?_, by rwa [ids_ofText]⟩
  refine ⟨(ofText a).documents.map Document.unplaced, (ofText b).documents.map Document.unplaced, ?_, ?_⟩
  · rw [hbefore, List.map_append, hmoved]
  · rw [hafter, List.map_append, List.map_append, hmoved, List.append_assoc]
    rfl

end Stream

/-! ## The effect on a report -/

namespace Profile

theorem ofKind_duplicateId (profile : Profile) (text : Text) :
    (profile.check text).ofKind .duplicateId = (Stream.ofText text).repeats.map profile.issueOf := by
  rw [ofKind_check, findings, filter_kind_streamFindings, filter_kind_headerFindings (by decide)]
  cases profile.followsReferences <;> cases profile.examinesGuids <;> simp

/-- **The issues about the header of a report**, or some of their kinds, are what the header rules find. -/
theorem filter_kinds_check (profile : Profile) (text : Text) {kinds : List Kind}
    (h : ∀ kind ∈ [.duplicateId, .brokenReference, .invalidGuid], kind ∉ kinds) :
    ((profile.check text).issues.filter fun issue => issue.kind ∈ kinds) =
      ((headerFindings (Stream.ofText text).preamble (Stream.ofText text).documents.length).filter fun finding =>
        finding.kind ∈ kinds).map profile.issueOf := by
  have hnone : ∀ findings : List Finding,
      (∀ finding ∈ findings, finding.kind ∈ [.duplicateId, .brokenReference, .invalidGuid]) →
      (findings.filter fun finding => finding.kind ∈ kinds) = [] := by
    intro findings hall
    refine List.filter_eq_nil_iff.2 fun finding hf => ?_
    rw [decide_eq_true_iff]
    exact h finding.kind (hall finding hf)
  have hrepeats := hnone (Stream.ofText text).repeats fun f hf => by rw [kind_of_mem_repeatsAfter hf]; decide
  have hindex := hnone (profile.indexFindings (Index.ofStream (Stream.ofText text))) fun f hf => by
    unfold indexFindings at hf
    rcases List.mem_append.1 hf with hf | hf
    · split at hf
      · rw [kind_of_mem_brokenReferences hf]
        decide
      · cases hf
    · split at hf
      · rw [kind_of_mem_invalidGuids hf]
        decide
      · cases hf
  have hkinds : ((profile.findings text).filter fun finding => finding.kind ∈ kinds) =
      (headerFindings (Stream.ofText text).preamble (Stream.ofText text).documents.length).filter fun finding =>
        finding.kind ∈ kinds := by
    rw [findings, streamFindings, List.filter_append, List.filter_append, hrepeats, hindex, List.append_nil,
      List.append_nil]
  rw [issues_check, List.filter_map, ← hkinds]
  rfl

end Profile

/-- **The effect of inserting a document.**  A block with a new id is put where a document ends and another one, or
nothing, follows.
- The links behind the broken references are those from before, but those to the new id, and with the new document's
  references that lead nowhere.
- As many ids are repeated as before.
- The malformed GUID values are those from before and those of the new document.
- The issues about the header are those from before, but that there is a document now.
- So no link of another document is broken by it, and exactly those to the new document are repaired. -/
theorem check_insert_block {a b : Text} (ha : EndsLine a)
    (hb : ∀ line ∈ b.lines.head?, Marker.isMarkerLine line = true) (block : Block)
    (hnew : block.marker.id ∉ (a ++ b).declaredIds) :
    (∀ text, (Profile.blocking.check text).ofKind .brokenReference =
      text.brokenLinks.map fun (source, target) =>
        { kind := .brokenReference
          severity := .error
          message := s!"Broken reference in {text.labelOf source}: fileID {target} does not match any document"
          documentId := some source }) ∧
    (a ++ block.text ++ b).brokenLinks.Perm
      (((a ++ b).brokenLinks.filter fun link => link.2 ≠ block.marker.id)
        ++ ((localIds block.body).filter fun r =>
            r ≠ block.marker.id ∧ r ≠ "0" ∧ r ∉ (a ++ b).declaredIds).map (block.marker.id, ·)) ∧
    ((Profile.blocking.check (a ++ block.text ++ b)).ofKind .duplicateId).length =
      ((Profile.blocking.check (a ++ b)).ofKind .duplicateId).length ∧
    ((Profile.blocking.check (a ++ block.text ++ b)).ofKind .invalidGuid).Perm
      ((Profile.blocking.check (a ++ b)).ofKind .invalidGuid
        ++ ((guids block.body).filter fun value => !isGuid value).map fun value =>
          { kind := .invalidGuid
            severity := .error
            message := s!"Invalid GUID format: {value}"
            documentId := some block.marker.id }) ∧
    ((Profile.blocking.check (a ++ block.text ++ b)).issues.filter fun issue =>
        issue.kind ∈ [.missingHeader, .missingTag, .noMarkers]) =
      (Profile.blocking.check (a ++ b)).issues.filter (fun issue => issue.kind ∈ [.missingHeader, .missingTag]) ∧
    ∀ source target, source ≠ block.marker.id →
      (a ++ block.text ++ b).brokenLinks.count (source, target) =
        if target = block.marker.id then 0 else (a ++ b).brokenLinks.count (source, target) := by
  have hinserted := Stream.inserted_block ha hb hnew
  have hlinks : (a ++ block.text ++ b).brokenLinks.Perm
      (((a ++ b).brokenLinks.filter fun link => link.2 ≠ block.marker.id)
        ++ ((localIds block.body).filter fun r =>
            r ≠ block.marker.id ∧ r ≠ "0" ∧ r ∉ (a ++ b).declaredIds).map (block.marker.id, ·)) := by
    have hdeclared : ∀ r, (∀ e ∈ (Stream.ofText (a ++ b)).documents, e.id ≠ r) ↔ r ∉ (a ++ b).declaredIds := by
      intro r
      rw [← Stream.ids_ofText, List.mem_map]
      simp only [not_exists, not_and, ne_eq]
    have hlinks := hinserted.brokenLinks
    unfold Document.brokenLinks Document.danglingIds at hlinks
    simp only [hdeclared] at hlinks
    exact hlinks
  have hreferences : Profile.blocking.followsReferences = true := rfl
  have hexamines : Profile.blocking.examinesGuids = true := rfl
  refine ⟨fun text => ?_, hlinks, ?_, ?_, ?_, fun source target hsource => ?_⟩
  · rw [Profile.ofKind_brokenReference, if_pos hreferences, Index.brokenReferences_eq_map_brokenLinks, List.map_map]
    exact List.map_congr_left fun link _ => Profile.issueOf_brokenReference .blocking _ _ _
  · rw [Profile.ofKind_duplicateId, Profile.ofKind_duplicateId, List.length_map, List.length_map,
      hinserted.length_repeats]
  · have hguids := hinserted.invalidGuids.map Profile.blocking.issueOf
    rw [List.map_append, List.map_map] at hguids
    rw [Profile.ofKind_invalidGuid, Profile.ofKind_invalidGuid, if_pos hexamines, if_pos hexamines]
    exact hguids
  · rw [Profile.filter_kinds_check _ _ (by decide), Profile.filter_kinds_check _ _ (by decide),
      hinserted.headerFindings, List.filter_filter]
    refine congrArg (List.map _) (List.filter_congr fun finding _ => ?_)
    cases finding <;> rfl
  · have hown : ∀ targets : List String, (targets.map (block.marker.id, ·)).count (source, target) = 0 := by
      intro targets
      refine List.count_eq_zero.2 fun hmem => ?_
      obtain ⟨r, -, heq⟩ := List.mem_map.1 hmem
      exact hsource (Prod.mk.inj heq).1.symm
    rw [hlinks.count_eq, List.count_append, hown, Nat.add_zero]
    split
    · rename_i htarget
      refine List.count_eq_zero.2 fun hmem => ?_
      exact of_decide_eq_true (List.mem_filter.1 hmem).2 htarget
    · rename_i htarget
      exact List.count_filter (decide_eq_true htarget)

/-- Between two documents with one id, of which the first points at a document that is missing, that document is put in;
it points nowhere itself. -/
theorem check_insert_block_repairs :
    ∃ (a b : Text) (block : Block), a = "%YAML 1.1\n--- !u!1 &1\n  a: \x7bfileID: 2\x7d\n".toList ∧
      b = "--- !u!1 &1\n".toList ∧ block.text = "--- !u!4 &2\n  b: \x7bfileID: 9\x7d\n  guid: x\n".toList ∧
      EndsLine a ∧ (∀ line ∈ b.lines.head?, Marker.isMarkerLine line = true) ∧
      block.marker.id ∉ (a ++ b).declaredIds ∧
      (a ++ b).brokenLinks = [("1", "2")] ∧ (a ++ block.text ++ b).brokenLinks = [("2", "9")] := by
  let block : Block :=
    ⟨"--- !u!4 &2\n".toList, "  b: \x7bfileID: 9\x7d\n  guid: x\n".toList, ⟨"4", "2", false⟩,
      by decide, by decide, by decide, by decide, by decide⟩
  let a : Text := "%YAML 1.1\n--- !u!1 &1\n  a: \x7bfileID: 2\x7d\n".toList
  let b : Text := "--- !u!1 &1\n".toList
  have ha : EndsLine a := by decide
  have hb : ∀ line ∈ b.lines.head?, Marker.isMarkerLine line = true := by decide
  have hnew : block.marker.id ∉ (a ++ b).declaredIds := by decide
  refine ⟨a, b, block, rfl, rfl, by decide, ha, hb, hnew, by decide, ?_⟩
  have hlinks := (check_insert_block ha hb block hnew).2.1
  exact List.perm_singleton.1 (hlinks.trans (.of_eq (by decide)))

end AssetIntegrity
