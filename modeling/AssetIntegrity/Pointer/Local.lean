import AssetIntegrity.Pointer.Key
/-!
# Local references — pointers into the same stream

A pointer is an innermost pair of braces.  Its entries are the pieces between commas.  A pointer with a `guid` key leads
into another asset; any other pointer leads to the document whose id its first `fileID` entry gives.

* `interiors`: what the innermost pairs of braces hold, in order.
* `localId?`: where one pointer leads.
* `localIds`: where all pointers of a body lead, in order.
-/
namespace AssetIntegrity

/-- The id that leads nowhere. -/
def nullId : String := "0"

def isNullId (id : String) : Bool := id = nullId

namespace Text

/-- The interiors of the innermost pairs of braces that close in a text.  `pending` holds, backwards, what was read
since the last opening brace, when no brace has come since. -/
def interiorsFrom : Option Text → Text → List Text
  | _, [] => []
  | pending, c :: text =>
    if c = '{' then interiorsFrom (some []) text
    else if c = '}' then
      match pending with
      | some inner => inner.reverse :: interiorsFrom none text
      | none => interiorsFrom none text
    else interiorsFrom (pending.map (c :: ·)) text

def interiors (text : Text) : List Text := interiorsFrom none text

/-- Whether an entry of a pointer has the key of another asset. -/
def hasGuidKey (entry : Text) : Bool :=
  (afterKey? (afterIgnoringCase? guidWord) skipSpace (skipSpace entry)).isSome

/-- The number of an entry that consists of the key `fileID` and a number, which may be quoted. -/
def fileId? (entry : Text) : Option Text := do
  let rest ← afterKey? (after? fileIdWord) skipSpace (skipSpace entry)
  let (number, rest) ← number? (skipQuote (skipSpace rest))
  if (skipSpace (skipQuote rest)).isEmpty then some number else none

/-- Where a pointer leads within its stream, given what its braces hold. -/
def localId? (interior : Text) : Option String :=
  let entries := interior.splitOn ','
  if entries.any hasGuidKey then none else (entries.findSome? fileId?).map String.ofList

/-- Where the pointers of a body lead within its stream, in order of appearance. -/
def localIds (body : Text) : List String := (interiors body).filterMap localId?

end Text
end AssetIntegrity
