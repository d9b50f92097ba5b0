import AssetIntegrity.CommandLine.Listing
import AssetIntegrity.Proofs.Check.Flags
import AssetIntegrity.Proofs.Text.Utf8
import Mathlib.Algebra.GroupWithZero.Nat
/-!
# Listings — what is written about several files

A reader sees a sign for each file, which tells errors from warnings, its issues, and at the end how many of both there
are in all the files (`Listing.render_text`).  A program is given a value in JSON or YAML, from which the listing can be
read back (`Listing.exists_data_of_render`).  Only a path that is no text stands in the way of the latter
(`Listing.exists_render_iff`).
-/
namespace AssetIntegrity

/-! ## Plain text -/

theorem Report.countWarnings_eq (report : Report) :
    report.countWarnings = report.issues.countP fun issue => issue.severity = .warning := by
  have hsplit : report.issues.length =
      report.countErrors + report.issues.countP fun issue => issue.severity = .warning := by
    rw [countErrors, List.length_eq_countP_add_countP Issue.isError]
    refine congrArg _ (List.countP_congr fun issue _ => ?_)
    unfold Issue.isError
    cases issue.severity <;> decide
  rw [countWarnings, hsplit, Nat.add_sub_cancel_left]

namespace Listing

theorem foldl_total (count : Report → Nat) : ∀ (listing : Listing) (n : Nat),
    listing.foldl (fun n file => n + count file.report) n = n + (listing.map fun file => count file.report).sum
  | [], _ => rfl
  | file :: rest, n => by
    rw [List.foldl_cons, foldl_total count rest, List.map_cons, List.sum_cons, Nat.add_assoc]

theorem total_eq_sum (listing : Listing) (count : Report → Nat) :
    listing.total count = (listing.map fun file => count file.report).sum :=
  (foldl_total count listing 0).trans (Nat.zero_add _)

/-- How many issues of a severity there are in all the files. -/
def count (listing : Listing) (severity : Severity) : Nat :=
  (listing.flatMap fun file => file.report.issues).countP fun issue => issue.severity = severity

theorem total_countErrors (listing : Listing) : listing.total Report.countErrors = listing.count .error := by
  rw [total_eq_sum, count, List.countP_flatMap]
  rfl

theorem total_countWarnings (listing : Listing) : listing.total Report.countWarnings = listing.count .warning := by
  rw [total_eq_sum, count, List.countP_flatMap]
  exact congrArg List.sum (List.map_congr_left fun file _ => file.report.countWarnings_eq)

/-- The sign that goes with some issues: that of an error, of nothing, or of warnings only. -/
def signOf (issues : List Issue) : String :=
  if ∃ issue ∈ issues, issue.severity = .error then "✗" else if issues = [] then "✓" else "⚠"

theorem Entry.sign_eq {file : Listing.Entry} (h : file.report.Truthful) : file.sign = signOf file.report.issues := by
  have hinvalid : (!file.report.valid) = true ↔ ∃ issue ∈ file.report.issues, issue.severity = .error := by
    rw [Report.truthful_iff.1 h, Bool.not_not, List.any_eq_true]
    simp only [Issue.isError, decide_eq_true_iff]
  unfold sign signOf
  simp only [hinvalid, List.isEmpty_iff]

/-- **What is written as plain text**: a line for each file and each of its issues, in order, and a last line. -/
theorem render_text {listing : Listing} (h : ∀ file ∈ listing, file.report.Truthful) :
    listing.render .text =
      .ok (String.join (listing.map fun file =>
          s!"{signOf file.report.issues} {file.path.display}\n"
            ++ String.join (file.report.issues.map Entry.issueLine))
        ++ s!"Checked {listing.length} file(s): {listing.count .error} error(s), "
        ++ s!"{listing.count .warning} warning(s)\n") := by
  have hlines : listing.map Entry.lines = listing.map fun file =>
      s!"{signOf file.report.issues} {file.path.display}\n"
        ++ String.join (file.report.issues.map Entry.issueLine) := by
    refine List.map_congr_left fun file hfile => ?_
    rw [← Entry.sign_eq (h file hfile)]
    rfl
  unfold render summary
  rw [hlines, total_countErrors, total_countWarnings]
  simp only [String.append_assoc]

/-! ## Values -/

/-- An entry of a listing, from the value that is written for it. -/
def Entry.ofData? : Data → Option Listing.Entry
  | .record members => do
    let path ← (← members.lookup "path").text?
    let report ← Report.ofData? (.record members)
    return ⟨Utf8.encode path, report⟩
  | _ => none

/-- A listing, from the value that is written for it. -/
def ofData? : Data → Option Listing
  | .list items => items.mapM Entry.ofData?
  | _ => none

theorem Entry.ofData?_of_toData? {file : Listing.Entry} {data : Data} (h : file.toData? = some data) :
    Entry.ofData? data = some file := by
  obtain ⟨path, hpath, rfl⟩ := Option.map_eq_some_iff.1 h
  have hreport : Report.ofData? (.record (("path", .text path) :: file.report.members)) = some file.report := by
    refine Report.ofData?_eq_some_iff.2 (.record (by rfl) (by rfl) ?_)
    exact List.forall₂_map_right_iff.2 (List.forall₂_same.2 fun issue _ => issue.isForm_toData)
  refine Option.bind_eq_some_iff.2 ⟨file.report, hreport, ?_⟩
  rw [Utf8.decode?_eq_some_iff.1 hpath]
  rfl

theorem mapM_ofData?_of_mapM_toData? : ∀ {listing : Listing} {items : List Data},
    listing.mapM Entry.toData? = some items → items.mapM Entry.ofData? = some listing
  | [], items, h => by
    obtain rfl := Option.some.inj h
    rfl
  | file :: rest, items, h => by
    rw [List.mapM_cons] at h
    obtain ⟨item, hitem, h⟩ := Option.bind_eq_some_iff.1 h
    obtain ⟨more, hmore, h⟩ := Option.bind_eq_some_iff.1 h
    obtain rfl := Option.some.inj h
    rw [List.mapM_cons, Entry.ofData?_of_toData? hitem, mapM_ofData?_of_mapM_toData? hmore]
    rfl

/-- **A listing can be read back** from the value that is written for it. -/
theorem ofData?_of_toData? {listing : Listing} {data : Data} (h : listing.toData? = some data) :
    ofData? data = some listing := by
  obtain ⟨items, hitems, rfl⟩ := Option.map_eq_some_iff.1 h
  exact mapM_ofData?_of_mapM_toData? hitems

/-- **What is written in a format other than plain text** is a value from which the listing can be read back. -/
theorem exists_data_of_render {format : Format} (hformat : format ≠ .text) {listing : Listing} {text : String}
    (h : listing.render format = .ok text) :
    ∃ data, ofData? data = some listing ∧
      (format = .json → text = data.json ++ "\n") ∧ (format = .yaml → text = data.yaml) := by
  cases hdata : listing.toData? with
  | none =>
    unfold render at h
    rw [hdata] at h
    cases format <;> cases h
    exact absurd rfl hformat
  | some data =>
    refine ⟨data, ofData?_of_toData? hdata, ?_⟩
    unfold render at h
    rw [hdata] at h
    cases format with
    | text => exact absurd rfl hformat
    | json => exact ⟨fun _ => (Except.ok.inj h).symm, nofun⟩
    | yaml => exact ⟨nofun, fun _ => (Except.ok.inj h).symm⟩

end Listing
end AssetIntegrity
