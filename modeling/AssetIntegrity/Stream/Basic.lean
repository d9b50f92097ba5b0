import AssetIntegrity.Stream.Document
/-!
# Streams — the preamble of a text and its documents

A stream is read from its last line to its first: a marker line that is put in front of a stream turns the preamble of
that stream into the body of a new first document, and any other line extends the preamble.

* `Stream.ofText`: the stream of a text.
* `Stream.ofLines_append`: the lines of a text can be read in two parts, the second one first.
-/
namespace AssetIntegrity

/-- A text cut at its marker lines. -/
structure Stream where
  /-- What stands in front of the first marker line. -/
  preamble : Text
  documents : List Document
deriving DecidableEq, Inhabited

namespace Stream

def empty : Stream := ⟨[], []⟩

def cons (line : Line) (rest : Stream) : Stream :=
  match Marker.parse? line.text with
  | some marker => ⟨[], ⟨marker, line.position, rest.preamble⟩ :: rest.documents⟩
  | none => ⟨line.text ++ rest.preamble, rest.documents⟩

def ofLines (lines : List Line) (rest : Stream) : Stream := lines.foldr cons rest

def ofText (text : Text) : Stream := ofLines (Line.locate .start text.lines) empty

theorem ofLines_append (a b : List Line) (rest : Stream) : ofLines (a ++ b) rest = ofLines a (ofLines b rest) := by
  simp only [ofLines, List.foldr_append]

end Stream
end AssetIntegrity
