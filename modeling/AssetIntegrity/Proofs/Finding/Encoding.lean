import AssetIntegrity.Finding.Encoding
import Mathlib.Data.List.Forall2
/-!
# Encodings — which values are read as findings, and what they are written as

A value is read as a finding when it has one of the forms that are admitted (`Issue.IsForm`, `Report.IsForm`): a record
in which every member but the document is there, whatever else is in it, or a list of all parts in order, with each name
written in one of two ways (`Data.IsName`).  Every finding is written in such a form (`Issue.isForm_toData`,
`Report.isForm_toData`), so what is written is read back, and a value that is read and written again stays as it is.

The names in values are those of the declarations, but for three kinds, in the spelling of their type
(`Kind.toData_eq`, `Severity.toData_eq`, `Issue.toData_eq`).
-/
namespace AssetIntegrity

/-! ## The names in values -/

/-- The name under which a kind is declared. -/
def Kind.declaredName : Kind → String
  | missingHeader => "MissingFormatHeader"
  | missingTag => "MissingTagDirective"
  | noMarkers => "NoDocumentMarkers"
  | duplicateId => "DuplicateDocumentId"
  | brokenReference => "BrokenReference"
  | invalidGuid => "InvalidGuidFormat"
  | unreadable => "IoError"

/-- The name that a kind is given in values, when it is not the declared one. -/
def Kind.givenName? : Kind → Option String
  | duplicateId => some "DuplicateDocumentID"
  | invalidGuid => some "InvalidGUIDFormat"
  | unreadable => some "IOError"
  | _ => none

/-- The name of a kind in values. -/
def Kind.encodedName (kind : Kind) : String := kind.givenName?.getD kind.declaredName

/-- The name under which a severity is declared. -/
def Severity.declaredName : Severity → String
  | error => "Error"
  | warning => "Warning"

/-- The name of a severity in values, which is all in lower case. -/
def Severity.encodedName (severity : Severity) : String :=
  String.ofList (severity.declaredName.toList.map Char.toLower)

/-- Words put together without their underscores, each but the first with a capital. -/
def camelCaseFrom : Bool → Text → Text
  | _, [] => []
  | capital, c :: name =>
    if c = '_' then camelCaseFrom true name else (if capital then c.toUpper else c) :: camelCaseFrom false name

/-- The name of a member in values, from the one under which it is declared. -/
def camelCase (name : String) : String := String.ofList (camelCaseFrom false name.toList)

theorem Kind.encodedName_eq_name (kind : Kind) : kind.encodedName = kind.name := by
  cases kind <;> rfl

theorem Severity.encodedName_eq_name (severity : Severity) : severity.encodedName = severity.name := by
  cases severity <;> decide

theorem Kind.toData_eq (kind : Kind) : kind.toData = .text kind.encodedName := by
  rw [encodedName_eq_name, toData]

theorem Severity.toData_eq (severity : Severity) : severity.toData = .text severity.encodedName := by
  rw [encodedName_eq_name, toData]

/-- The parts of an issue under their declared names, in order. -/
def Issue.declaredMembers (issue : Issue) : List (String × Data) :=
  [("kind", .text issue.kind.encodedName), ("severity", .text issue.severity.encodedName),
    ("message", .text issue.message), ("document_id", .ofText? issue.documentId)]

theorem Issue.toData_eq (issue : Issue) :
    issue.toData = .record (issue.declaredMembers.map (Prod.map camelCase id)) := by
  have hnames : camelCase "kind" = "kind" ∧ camelCase "severity" = "severity" ∧ camelCase "message" = "message" ∧
      camelCase "document_id" = "documentId" := by decide
  obtain ⟨hkind, hseverity, hmessage, hdocument⟩ := hnames
  simp only [declaredMembers, List.map_cons, List.map_nil, Prod.map, id, hkind, hseverity, hmessage, hdocument,
    ← Kind.toData_eq, ← Severity.toData_eq]
  rfl

/-! ## The forms that are admitted -/

/-- The two ways to write a name: alone, or as the only member of a record. -/
def Data.IsName (name : String) (value : Data) : Prop := value = .text name ∨ value = .record [(name, .null)]

theorem Data.name?_eq_some_iff {value : Data} {name : String} : value.name? = some name ↔ value.IsName name := by
  unfold name?
  constructor
  · intro h
    split at h
    · exact .inl (congrArg text (Option.some.inj h))
    · exact .inr (by rw [Option.some.inj h])
    · cases h
  · rintro (rfl | rfl) <;> rfl

theorem Data.text?_eq_some_iff {value : Data} {message : String} :
    value.text? = some message ↔ value = .text message := by
  cases value <;> simp [text?]

theorem Data.bool?_eq_some_iff {value : Data} {flag : Bool} : value.bool? = some flag ↔ value = .bool flag := by
  cases value <;> simp [bool?]

theorem Data.optionalText?_eq_some_iff {value : Data} {document : Option String} :
    value.optionalText? = some document ↔ value = .ofText? document := by
  cases value <;> cases document <;> simp [optionalText?, ofText?]

theorem Kind.ofData?_eq_some_iff {value : Data} {kind : Kind} :
    Kind.ofData? value = some kind ↔ value.IsName kind.name := by
  rw [ofData?, Option.bind_eq_some_iff, ← Data.name?_eq_some_iff]
  constructor
  · rintro ⟨name, hvalue, hkind⟩
    have hname := List.find?_some hkind
    rw [hvalue, of_decide_eq_true hname]
  · exact fun hvalue => ⟨kind.name, hvalue, ofName?_name kind⟩

theorem Severity.ofData?_eq_some_iff {value : Data} {severity : Severity} :
    Severity.ofData? value = some severity ↔ value.IsName severity.name := by
  rw [ofData?, Option.bind_eq_some_iff, ← Data.name?_eq_some_iff]
  constructor
  · rintro ⟨name, hvalue, hseverity⟩
    rw [hvalue]
    split at hseverity
    · rename_i herror
      rw [herror, ← Option.some.inj hseverity, Severity.name]
    · split at hseverity
      · rename_i hwarning
        rw [hwarning, ← Option.some.inj hseverity, Severity.name]
      · cases hseverity
  · intro hvalue
    refine ⟨severity.name, hvalue, ?_⟩
    cases severity <;> decide

namespace Issue

/-- Whether these values are the parts of an issue. -/
structure PartsAre (issue : Issue) (kind severity message document : Data) : Prop where
  kind : kind.IsName issue.kind.name
  severity : severity.IsName issue.severity.name
  message : message = .text issue.message
  document : document = .ofText? issue.documentId

/-- The values that are read as an issue: a record of its parts, in which nothing stands for no document and other
members may stand, or the list of its parts. -/
inductive IsForm (issue : Issue) : Data → Prop where
  | record {members : List (String × Data)} {kind severity message : Data}
      (kind_member : members.lookup "kind" = some kind) (severity_member : members.lookup "severity" = some severity)
      (message_member : members.lookup "message" = some message)
      (parts : issue.PartsAre kind severity message ((members.lookup "documentId").getD .null)) :
      IsForm issue (.record members)
  | list {kind severity message document : Data} (parts : issue.PartsAre kind severity message document) :
      IsForm issue (.list [kind, severity, message, document])

variable {issue : Issue}

theorem ofParts?_eq_some_iff {kind severity message document : Data} :
    ofParts? kind severity message document = some issue ↔ issue.PartsAre kind severity message document := by
  unfold ofParts?
  constructor
  · intro h
    obtain ⟨kind', hkind, h⟩ := Option.bind_eq_some_iff.1 h
    obtain ⟨severity', hseverity, h⟩ := Option.bind_eq_some_iff.1 h
    obtain ⟨message', hmessage, h⟩ := Option.bind_eq_some_iff.1 h
    obtain ⟨document', hdocument, h⟩ := Option.bind_eq_some_iff.1 h
    obtain rfl := Option.some.inj h
    exact ⟨Kind.ofData?_eq_some_iff.1 hkind, Severity.ofData?_eq_some_iff.1 hseverity,
      Data.text?_eq_some_iff.1 hmessage, Data.optionalText?_eq_some_iff.1 hdocument⟩
  · rintro ⟨hkind, hseverity, hmessage, hdocument⟩
    refine Option.bind_eq_some_iff.2 ⟨_, Kind.ofData?_eq_some_iff.2 hkind, ?_⟩
    refine Option.bind_eq_some_iff.2 ⟨_, Severity.ofData?_eq_some_iff.2 hseverity, ?_⟩
    refine Option.bind_eq_some_iff.2 ⟨_, Data.text?_eq_some_iff.2 hmessage, ?_⟩
    exact Option.bind_eq_some_iff.2 ⟨_, Data.optionalText?_eq_some_iff.2 hdocument, rfl⟩

/-- **An issue is read from its forms**, and from nothing else. -/
theorem ofData?_eq_some_iff {value : Data} : Issue.ofData? value = some issue ↔ issue.IsForm value := by
  constructor
  · intro h
    unfold ofData? at h
    split at h
    · obtain ⟨kind, hkind, h⟩ := Option.bind_eq_some_iff.1 h
      obtain ⟨severity, hseverity, h⟩ := Option.bind_eq_some_iff.1 h
      obtain ⟨message, hmessage, h⟩ := Option.bind_eq_some_iff.1 h
      exact .record hkind hseverity hmessage (ofParts?_eq_some_iff.1 h)
    · exact .list (ofParts?_eq_some_iff.1 h)
    · cases h
  · intro h
    cases h with
    | record hkind hseverity hmessage hparts =>
      refine Option.bind_eq_some_iff.2 ⟨_, hkind, ?_⟩
      refine Option.bind_eq_some_iff.2 ⟨_, hseverity, ?_⟩
      exact Option.bind_eq_some_iff.2 ⟨_, hmessage, ofParts?_eq_some_iff.2 hparts⟩
    | list hparts => exact ofParts?_eq_some_iff.2 hparts

/-- **An issue is written in a form of it.** -/
theorem isForm_toData (issue : Issue) : issue.IsForm issue.toData := by
  show issue.IsForm (.record [("kind", issue.kind.toData), ("severity", issue.severity.toData),
    ("message", .text issue.message), ("documentId", .ofText? issue.documentId)])
  exact .record (by rfl) (by rfl) (by rfl) ⟨.inl rfl, .inl rfl, rfl, rfl⟩

end Issue

namespace Report

/-- The values that are read as a report: a record of its flag and the forms of its issues, in which other members may
stand, or the list of the two. -/
inductive IsForm (report : Report) : Data → Prop where
  | record {members : List (String × Data)} {items : List Data}
      (valid_member : members.lookup "valid" = some (.bool report.valid))
      (issues_member : members.lookup "issues" = some (.list items))
      (issues : List.Forall₂ Issue.IsForm report.issues items) : IsForm report (.record members)
  | list {items : List Data} (issues : List.Forall₂ Issue.IsForm report.issues items) :
      IsForm report (.list [.bool report.valid, .list items])

theorem mapM_ofData?_eq_some_iff : ∀ {items : List Data} {issues : List Issue},
    items.mapM Issue.ofData? = some issues ↔ List.Forall₂ Issue.IsForm issues items
  | [], issues => by
    rw [List.mapM_nil, List.forall₂_nil_right_iff]
    exact ⟨fun h => (Option.some.inj h).symm, fun h => h ▸ rfl⟩
  | item :: items, issues => by
    rw [List.mapM_cons]
    constructor
    · intro h
      obtain ⟨issue, hissue, h⟩ := Option.bind_eq_some_iff.1 h
      obtain ⟨more, hmore, h⟩ := Option.bind_eq_some_iff.1 h
      obtain rfl := Option.some.inj h
      exact .cons (Issue.ofData?_eq_some_iff.1 hissue) (mapM_ofData?_eq_some_iff.1 hmore)
    · intro h
      cases h with
      | cons hissue hmore =>
        refine Option.bind_eq_some_iff.2 ⟨_, Issue.ofData?_eq_some_iff.2 hissue, ?_⟩
        exact Option.bind_eq_some_iff.2 ⟨_, mapM_ofData?_eq_some_iff.2 hmore, rfl⟩

variable {report : Report}

theorem ofParts?_eq_some_iff {valid issues : Data} :
    ofParts? valid issues = some report ↔
      valid = .bool report.valid ∧ ∃ items, issues = .list items ∧ List.Forall₂ Issue.IsForm report.issues items := by
  unfold ofParts?
  constructor
  · intro h
    obtain ⟨flag, hflag, h⟩ := Option.bind_eq_some_iff.1 h
    obtain ⟨found, hfound, h⟩ := Option.bind_eq_some_iff.1 h
    obtain rfl := Option.some.inj h
    unfold issuesOfData? at hfound
    split at hfound
    · exact ⟨Data.bool?_eq_some_iff.1 hflag, _, rfl, mapM_ofData?_eq_some_iff.1 hfound⟩
    · cases hfound
  · rintro ⟨rfl, items, rfl, hissues⟩
    exact Option.bind_eq_some_iff.2 ⟨_, rfl, Option.bind_eq_some_iff.2 ⟨_, mapM_ofData?_eq_some_iff.2 hissues, rfl⟩⟩

/-- **A report is read from its forms**, and from nothing else. -/
theorem ofData?_eq_some_iff {value : Data} : Report.ofData? value = some report ↔ report.IsForm value := by
  constructor
  · intro h
    unfold ofData? at h
    split at h
    · obtain ⟨valid, hvalid, h⟩ := Option.bind_eq_some_iff.1 h
      obtain ⟨issues, hissues, h⟩ := Option.bind_eq_some_iff.1 h
      obtain ⟨rfl, items, rfl, hforms⟩ := ofParts?_eq_some_iff.1 h
      exact .record hvalid hissues hforms
    · obtain ⟨rfl, items, rfl, hforms⟩ := ofParts?_eq_some_iff.1 h
      exact .list hforms
    · cases h
  · intro h
    cases h with
    | record hvalid hissues hforms =>
      refine Option.bind_eq_some_iff.2 ⟨_, hvalid, Option.bind_eq_some_iff.2 ⟨_, hissues, ?_⟩⟩
      exact ofParts?_eq_some_iff.2 ⟨rfl, _, rfl, hforms⟩
    | list hforms => exact ofParts?_eq_some_iff.2 ⟨rfl, _, rfl, hforms⟩

/-- **A report is written in a form of it.** -/
theorem isForm_toData (report : Report) : report.IsForm report.toData := by
  have hforms : List.Forall₂ Issue.IsForm report.issues (report.issues.map Issue.toData) := by
    rw [List.forall₂_map_right_iff]
    exact List.forall₂_same.2 fun issue _ => issue.isForm_toData
  exact .record (by rfl) (by rfl) hforms

end Report

/-! ## Reading back -/

/-- A value that is read and written again stays as it is from then on, when what is written is read back. -/
theorem written_again {α : Type} {read : Data → Option α} {write : α → Data} (h : ∀ a, read (write a) = some a)
    {value written : Data} (hwritten : (read value).map write = some written) :
    (read written).map write = some written := by
  obtain ⟨a, -, rfl⟩ := Option.map_eq_some_iff.1 hwritten
  rw [h, Option.map_some]

theorem Kind.ofData?_toData (kind : Kind) : Kind.ofData? kind.toData = some kind :=
  Kind.ofData?_eq_some_iff.2 (.inl rfl)

theorem Severity.ofData?_toData (severity : Severity) : Severity.ofData? severity.toData = some severity :=
  Severity.ofData?_eq_some_iff.2 (.inl rfl)

theorem Issue.ofData?_toData (issue : Issue) : Issue.ofData? issue.toData = some issue :=
  Issue.ofData?_eq_some_iff.2 issue.isForm_toData

theorem Report.ofData?_toData (report : Report) : Report.ofData? report.toData = some report :=
  Report.ofData?_eq_some_iff.2 report.isForm_toData

/-- **What is written is read back unchanged.**  An issue is written under the declared names of its parts, in camel
case, and its kind and severity under the names that its messages use.  A value is read exactly when it has an admitted
form, and what is written for it is read and written again as it is. -/
theorem encodings_exact :
    (∀ issue : Issue, Issue.ofData? issue.toData = some issue) ∧
    (∀ report : Report, Report.ofData? report.toData = some report) ∧
    (∀ issue : Issue, issue.toData = .record (issue.declaredMembers.map (Prod.map camelCase id)) ∧
      issue.kind.encodedName = issue.kind.name ∧ issue.severity.encodedName = issue.severity.name) ∧
    (∀ value kind, Kind.ofData? value = some kind ↔ value.IsName kind.encodedName) ∧
    (∀ value severity, Severity.ofData? value = some severity ↔ value.IsName severity.encodedName) ∧
    (∀ value issue, Issue.ofData? value = some issue ↔ issue.IsForm value) ∧
    (∀ value report, Report.ofData? value = some report ↔ report.IsForm value) ∧
    (∀ value written, (Kind.ofData? value).map Kind.toData = some written →
      (Kind.ofData? written).map Kind.toData = some written) ∧
    (∀ value written, (Severity.ofData? value).map Severity.toData = some written →
      (Severity.ofData? written).map Severity.toData = some written) ∧
    (∀ value written, (Issue.ofData? value).map Issue.toData = some written →
      (Issue.ofData? written).map Issue.toData = some written) ∧
    ∀ value written, (Report.ofData? value).map Report.toData = some written →
      (Report.ofData? written).map Report.toData = some written := by
  refine ⟨Issue.ofData?_toData, Report.ofData?_toData, fun issue => ⟨issue.toData_eq, issue.kind.encodedName_eq_name,
    issue.severity.encodedName_eq_name⟩, fun _ kind => ?_, fun _ severity => ?_, fun _ _ => Issue.ofData?_eq_some_iff,
    fun _ _ => Report.ofData?_eq_some_iff, fun _ _ => written_again Kind.ofData?_toData,
    fun _ _ => written_again Severity.ofData?_toData, fun _ _ => written_again Issue.ofData?_toData,
    fun _ _ => written_again Report.ofData?_toData⟩
  · rw [kind.encodedName_eq_name]
    exact Kind.ofData?_eq_some_iff
  · rw [severity.encodedName_eq_name]
    exact Severity.ofData?_eq_some_iff

/-- A list has no names, and a kind may be written as the member of a record. -/
example : Issue.ofData? (.list [.record [("IOError", .null)], .text "warning", .text "m", .null]) =
    some ⟨.unreadable, .warning, "m", none⟩ := by
  decide +kernel

end AssetIntegrity
