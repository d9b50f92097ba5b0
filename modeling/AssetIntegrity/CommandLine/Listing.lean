import AssetIntegrity.CommandLine.Command
import AssetIntegrity.Data.Json
import AssetIntegrity.Data.Yaml.Printer
import AssetIntegrity.Finding.Encoding
/-!
# Listings — the reports on several files

A listing is written as plain text for a reader, or as JSON or YAML for another program.  The latter need paths that are
valid UTF-8.

* `Listing.render`: the text of a listing in a format.
-/
namespace AssetIntegrity

/-- A cause in a message: its lines, each behind a margin. -/
def causeLines (first later cause : String) : String :=
  first ++ ("\n" ++ later).intercalate (cause.splitOn "\n") ++ "\n"

/-- The message that a command has failed, with its causes; they are numbered where there are several. -/
def failureMessage (what : String) (causes : List String) : String :=
  s!"Error: {what}\n\nCaused by:\n" ++ match causes with
    | [cause] => causeLines "    " "    " cause
    | causes => String.join (causes.mapIdx fun index cause => causeLines s!"    {index}: " "       " cause)

structure Listing.Entry where
  path : Path
  report : Report
deriving DecidableEq

namespace Listing.Entry

/-- The sign in front of a path: an error, nothing found, or warnings only. -/
def sign (file : Listing.Entry) : String :=
  if !file.report.valid then "✗" else if file.report.issues.isEmpty then "✓" else "⚠"

def issueLine (issue : Issue) : String :=
  match issue.documentId with
  | some id => s!"    {issue.render} (&{id})\n"
  | none => s!"    {issue.render}\n"

def lines (file : Listing.Entry) : String :=
  s!"{file.sign} {file.path.display}\n" ++ String.join (file.report.issues.map issueLine)

def toData? (file : Listing.Entry) : Option Data :=
  (Utf8.decode? file.path).map fun path => .record (("path", .text path) :: file.report.members)

end Listing.Entry

abbrev Listing := List Listing.Entry

namespace Listing

def total (listing : Listing) (count : Report → Nat) : Nat := listing.foldl (fun n file => n + count file.report) 0

def summary (listing : Listing) : String :=
  let errors := listing.total Report.countErrors
  let warnings := listing.total Report.countWarnings
  s!"Checked {listing.length} file(s): {errors} error(s), {warnings} warning(s)\n"

def toData? (listing : Listing) : Option Data := (listing.mapM Listing.Entry.toData?).map .list

def encodingMessage (format : String) : String :=
  failureMessage s!"Failed to encode {format} report" ["path contains invalid UTF-8 characters"]

/-- The text of a listing, or the message that it cannot be written. -/
def render (format : Format) (listing : Listing) : Except String String :=
  match format with
  | .text => .ok (String.join (listing.map Listing.Entry.lines) ++ listing.summary)
  | .json =>
    match listing.toData? with
    | some data => .ok (data.json ++ "\n")
    | none => .error (encodingMessage "JSON")
  | .yaml =>
    match listing.toData? with
    | some data => .ok data.yaml
    | none => .error (encodingMessage "YAML")

def isValid (listing : Listing) : Bool := listing.all fun file => file.report.valid

end Listing
end AssetIntegrity
