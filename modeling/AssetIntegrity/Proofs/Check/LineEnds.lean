import AssetIntegrity.Proofs.Check.Rewriting
import AssetIntegrity.Proofs.Pointer.LineEnds
import AssetIntegrity.Proofs.Stream.LineEnds
/-!
# Line ends — the outcome does not depend on how lines end

The rules see the same in a text with `\r\n` for each line feed, but for the places (`Profile.findings_crlf`), and the
same in a text with one more line feed at its end (`Profile.findings_append_newline`).
-/
namespace AssetIntegrity

open Text

theorem headerFindings_crlf (preamble : Text) (documents : Nat) :
    headerFindings (crlf preamble) documents = headerFindings preamble documents := by
  unfold headerFindings
  rw [isPrefixOf_crlf (by decide) (by decide), occursIn_crlf (by decide) (by decide)]

theorem headerFindings_append_newline (preamble : Text) (documents : Nat) :
    headerFindings (preamble ++ ['\n']) documents = headerFindings preamble documents := by
  unfold headerFindings
  rw [isPrefixOf_append_newline (by decide), occursIn_append_newline (by decide)]

theorem keeps_crlf : Keeps Position.crlf Document.crlf where
  marker := fun _ => rfl
  position := fun _ => rfl
  localIds := fun d => localIds_crlf d.body
  guids := fun d => guids_crlf d.body

/-! ## A line feed at the end of a body -/

/-- The document without the line feeds at the end of its body. -/
def Document.trimmed (document : Document) : Document :=
  { document with body := document.body.rdropWhile (· = '\n') }

theorem Document.trimmed_extend (document : Document) : (document.extend ['\n']).trimmed = document.trimmed := by
  have hbody := List.rdropWhile_concat_pos (fun c => decide (c = '\n')) document.body '\n' (decide_eq_true rfl)
  unfold trimmed extend
  rw [hbody]

theorem rdropWhile_newline_eq {α : Type} {f : Text → α} (h : ∀ text, f (text ++ ['\n']) = f text) (text : Text) :
    f (text.rdropWhile (· = '\n')) = f text := by
  induction text using List.reverseRecOn with
  | nil => rfl
  | append_singleton text c ih =>
    by_cases hc : c = '\n'
    · subst hc
      have hdrop := List.rdropWhile_concat_pos (fun c => decide (c = '\n')) text '\n' (decide_eq_true rfl)
      rw [hdrop, ih, h]
    · rw [List.rdropWhile_concat_neg _ _ _ (by simpa using hc)]

theorem keeps_trimmed : Keeps id Document.trimmed where
  marker := fun _ => rfl
  position := fun _ => rfl
  localIds := fun d => rdropWhile_newline_eq localIds_append_newline d.body
  guids := fun d => rdropWhile_newline_eq guids_append_newline d.body

namespace Profile

variable (profile : Profile)

theorem streamFindings_trimmed {preamble preamble' : Text}
    (hheader : ∀ documents, headerFindings preamble' documents = headerFindings preamble documents)
    (hguids : Text.guids preamble' = Text.guids preamble) (documents : List Document) :
    profile.streamFindings ⟨preamble', documents.map Document.trimmed⟩ =
      profile.streamFindings ⟨preamble, documents⟩ := by
  rw [keeps_trimmed.streamFindings_map profile hheader hguids, funext Finding.moved_id, List.map_id']

theorem streamFindings_join_newline (stream : Stream) :
    profile.streamFindings (stream.join ⟨['\n'], []⟩) = profile.streamFindings stream := by
  obtain ⟨preamble, documents⟩ := stream
  cases documents using List.reverseRecOn with
  | nil =>
    rw [Stream.join_of_nil]
    exact profile.streamFindings_trimmed (headerFindings_append_newline preamble) (guids_append_newline preamble) []
  | append_singleton documents last =>
    -- The two lists of documents are the same once trimmed.
    have htrim : ∀ d, profile.streamFindings ⟨preamble, (documents ++ [d]).map Document.trimmed⟩ =
        profile.streamFindings ⟨preamble, documents ++ [d]⟩ :=
      fun d => profile.streamFindings_trimmed (fun _ => rfl) rfl (documents ++ [d])
    rw [Stream.join_of_concat, ← htrim, ← htrim, List.map_append, List.map_append, List.map_singleton,
      List.map_singleton, Document.trimmed_extend]

/-! ## The findings of a text -/

theorem findings_crlf (text : Text) :
    profile.findings (crlf text) = (profile.findings text).map (Finding.moved Position.crlf) := by
  rw [findings, findings, Stream.ofText_crlf]
  exact keeps_crlf.streamFindings_map profile (headerFindings_crlf _) (guids_crlf _) _

theorem findings_append_newline (text : Text) : profile.findings (text ++ ['\n']) = profile.findings text := by
  obtain ⟨behind, rfl | rfl, h⟩ := Stream.ofText_append_newline text
  · rw [findings, findings, h]
    exact congrArg profile.streamFindings (Stream.join_empty _)
  · rw [findings, findings, h, profile.streamFindings_join_newline]

end Profile

/-- **Line ends do not change the outcome.**  With `\r\n` for each line feed, a text has the same issues in the same
order and the same flag, but for the offsets in the messages about repeated ids: each of them is greater by the number
of line feeds above, which is one less than the number of its line.  One more line feed at the end changes nothing. -/
theorem check_line_ends (profile : Profile) (text : Text) :
    (profile.check text).issues = (profile.findings text).map profile.issueOf ∧
    (profile.check (crlf text)).issues = (profile.findings text).map (fun finding =>
      { profile.issueOf finding with
        message := (finding.moved fun place => ⟨place.offset + (place.line - 1), place.line⟩).message }) ∧
    (profile.check (crlf text)).valid = (profile.check text).valid ∧
    profile.check (text ++ ['\n']) = profile.check text := by
  have hissues : (profile.check (crlf text)).issues = (profile.findings text).map (fun finding =>
      { profile.issueOf finding with message := (finding.moved Position.crlf).message }) := by
    rw [Profile.issues_check, profile.findings_crlf, List.map_map]
    exact List.map_congr_left fun finding _ => profile.issueOf_moved Position.crlf finding
  refine ⟨profile.issues_check text, hissues, ?_, ?_⟩
  · have hvalid : ∀ t, (profile.check t).valid = !(profile.check t).issues.any Issue.isError := fun _ => rfl
    rw [hvalid, hvalid, hissues, profile.issues_check, List.any_map, List.any_map]
    rfl
  · unfold Profile.check
    rw [profile.findings_append_newline]

end AssetIntegrity
