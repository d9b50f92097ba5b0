import AssetIntegrity.Stream.ClassName
import AssetIntegrity.Stream.Marker
import AssetIntegrity.Text.Lines
/-!
# Documents — one object of a stream

A document is what a marker line declares, the place of that line, and the text up to the next marker line.
-/
namespace AssetIntegrity

structure Document extends Marker where
  /-- The place where the marker line begins. -/
  position : Position
  /-- The text behind the marker line, as it stands. -/
  body : Text
deriving DecidableEq, Inhabited

namespace Document

def className? (document : Document) : Option String := AssetIntegrity.className? document.classId

/-- How messages name a document: by its class, or by the tag of an unknown class, and its id. -/
def label (document : Document) : String :=
  match document.className? with
  | some name => name ++ " &" ++ document.id
  | none => "!u!" ++ document.classId ++ " &" ++ document.id

end Document
end AssetIntegrity
