import AssetIntegrity.Text.Reading
/-!
# Marker lines — where a document begins and what it declares

A marker line is `--- !u!`, the class id, `&` and the document's own id, with `stripped` behind them when the document
is a placeholder for an object of another asset.  Digits of every script count, and only blanks separate the words.

* `Marker.parse?`: the marker that a line holds, if it is a marker line.
* `Marker.render`: the line as it is usually written.
-/
namespace AssetIntegrity

structure Marker where
  classId : String
  id : String
  stripped : Bool
deriving DecidableEq, Inhabited

namespace Marker

open Text

def isLineEnd (c : Char) : Bool := c = '\r' || c = '\n'

/-- Drops every carriage return and line feed at the end of a line, however many there are. -/
def trimLineEnd (line : Text) : Text := (line.reverse.dropWhile isLineEnd).reverse

/-- What stands behind the id: nothing, or the word `stripped`, with blanks around it. -/
def stripped? (text : Text) : Option Bool :=
  if (skipBlanks text).isEmpty then some false
  else do
    let rest ← blanks? text
    let rest ← after? ['s', 't', 'r', 'i', 'p', 'p', 'e', 'd'] rest
    if (skipBlanks rest).isEmpty then some true else none

def parse? (line : Text) : Option Marker := do
  let rest ← after? ['-', '-', '-'] (trimLineEnd line)
  let rest ← blanks? rest
  let rest ← after? ['!', 'u', '!'] rest
  let (classId, rest) ← digits? rest
  let rest ← blanks? rest
  let rest ← after? ['&'] rest
  let (id, rest) ← number? rest
  let stripped ← stripped? rest
  return ⟨String.ofList classId, String.ofList id, stripped⟩

def render (marker : Marker) : Text :=
  ['-', '-', '-', ' ', '!', 'u', '!'] ++ marker.classId.toList ++ [' ', '&'] ++ marker.id.toList
    ++ if marker.stripped then [' ', 's', 't', 'r', 'i', 'p', 'p', 'e', 'd'] else []

end Marker
end AssetIntegrity
