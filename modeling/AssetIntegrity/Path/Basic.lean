import AssetIntegrity.Text.Utf8
/-!
# Paths — names joined by slashes

A path is a sequence of bytes, which need not be text.  Empty names, and `.` other than in front, say nothing.

* `components`: what a path says, name by name.
* `fileName?` and `extension?`: its last name and what follows the last dot of it.
* `lt`: paths in the order of their components, which differs from the order of their bytes.
-/
namespace AssetIntegrity

/-- A path: names with slashes between them. -/
abbrev Path := List UInt8

abbrev FileName := List UInt8

namespace Path

def slash : UInt8 := 0x2F

def dot : UInt8 := 0x2E

inductive Component where
  | root
  | here
  | parent
  | name (bytes : FileName)
deriving DecidableEq

/-- The step that a name between slashes stands for, behind the first. -/
def Component.ofName? (bytes : FileName) : Option Component :=
  if bytes = [] ∨ bytes = [dot] then none
  else if bytes = [dot, dot] then some .parent
  else some (.name bytes)

def components (path : Path) : List Component :=
  match path.splitOn slash with
  | [] => []
  | [] :: names => (if path.isEmpty then [] else [.root]) ++ names.filterMap Component.ofName?
  | first :: names => (if first = [dot] then [.here] else []) ++ (first :: names).filterMap Component.ofName?

def fileName? (path : Path) : Option FileName :=
  match path.components.getLast? with
  | some (.name bytes) => some bytes
  | _ => none

/-- What follows the last dot of a name; a dot in front does not count. -/
def extensionOf? (name : FileName) : Option (List UInt8) :=
  match name.reverse.span (· ≠ dot) with
  | (_, []) => none
  | (_, [_]) => none
  | (reversed, _ :: _ :: _) => some reversed.reverse

def extension? (path : Path) : Option (List UInt8) := path.fileName?.bind extensionOf?

def join (path : Path) (name : FileName) : Path :=
  match path.getLast? with
  | none => name
  | some last => if last = slash then path ++ name else path ++ slash :: name

def display (path : Path) : String := Utf8.display path

def Component.rank : Component → Nat
  | .root => 0
  | .here => 1
  | .parent => 2
  | .name _ => 3

def Component.bytes : Component → List UInt8
  | .name bytes => bytes
  | _ => []

def Component.lt (a b : Component) : Bool := a.rank < b.rank || (a.rank = b.rank && a.bytes.lex b.bytes)

def lt (a b : Path) : Bool := a.components.lex b.components Component.lt

def sort (paths : List Path) : List Path := paths.mergeSort fun a b => !lt b a

end Path
end AssetIntegrity
