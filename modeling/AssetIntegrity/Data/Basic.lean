/-!
# Data — plain values that reports are written from

A value is built from texts, numbers and truth values by lists and records.  A record keeps its members in the order in
which they are written.
-/
namespace AssetIntegrity

/-- A plain value. -/
inductive Data where
  | null
  | bool (value : Bool)
  | number (value : Int)
  | text (value : String)
  | list (items : List Data)
  | record (members : List (String × Data))

namespace Data

instance : Inhabited Data := ⟨null⟩

def ofText? : Option String → Data
  | some value => text value
  | none => null

end Data
end AssetIntegrity
