import AssetIntegrity.Check.Rules
import AssetIntegrity.Finding.Report
/-!
# Profiles — which rules run and how they count

A profile has a mode and says whether references and GUIDs are examined.  In the advisory mode every issue becomes a
warning, so that an advisory report is always valid.

* `Profile.findings`: what is wrong with a text.
* `Profile.check`: the report on a text.
* `gateText` and `adviseText`: the two uses of a check, before a write and after it.
-/
namespace AssetIntegrity

/-- How a check is run. -/
structure Profile where
  mode : Mode := .blocking
  followsReferences : Bool := true
  examinesGuids : Bool := true
deriving DecidableEq, Inhabited

namespace Profile

/-- Everything is checked, and errors reject. -/
def blocking : Profile := {}

def advisory : Profile := { mode := .advisory }

def ofMode (mode : Mode) : Profile := { mode }

/-- What is wrong with an index, as far as the profile asks for it. -/
def indexFindings (profile : Profile) (index : Index) : List Finding :=
  (if profile.followsReferences then index.brokenReferences else [])
    ++ (if profile.examinesGuids then index.invalidGuids else [])

def streamFindings (profile : Profile) (stream : Stream) : List Finding :=
  headerFindings stream.preamble stream.documents.length ++ stream.repeats
    ++ profile.indexFindings (Index.ofStream stream)

def findings (profile : Profile) (text : Text) : List Finding := profile.streamFindings (Stream.ofText text)

/-- Issues as they count in a mode: an advisory check has warnings only. -/
def grade (profile : Profile) (issues : List Issue) : List Issue :=
  match profile.mode with
  | .blocking => issues
  | .advisory => issues.map fun issue => issue.regraded .warning

def check (profile : Profile) (text : Text) : Report :=
  Report.ofIssues (profile.grade ((profile.findings text).map fun finding => finding.issue profile.mode))

end Profile

/-- The ruling on a write, given the text that it would change. -/
def gateText (text : Text) : Ruling := .ofReport (Profile.blocking.check text)

def adviseText (text : Text) : List Issue := (Profile.advisory.check text).issues

end AssetIntegrity
