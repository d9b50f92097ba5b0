import AssetIntegrity.Data.Basic
import AssetIntegrity.Data.Yaml.Scalar
/-!
# YAML — values written as blocks

Each item of a list stands behind a dash, each member of a record behind its key.  What belongs to an item or a member
is two spaces deeper, but a list stands as deep as its key.  A list or record without any parts is written `[]` or `{}`.
-/
namespace AssetIntegrity
namespace Yaml

def margin (depth : Nat) : String := String.ofList (List.replicate depth ' ')

/-- Lines whose first one continues a line that is written up to their depth. -/
def continuing (depth : Nat) (lines : String) : String := String.ofList (lines.toList.drop depth)

mutual

def itemText (depth : Nat) : Data → String
  | .null => " null\n"
  | .bool value => if value then " true\n" else " false\n"
  | .number value => " " ++ toString value ++ "\n"
  | .text value => " " ++ block (depth + 2) value
  | .list [] => " []\n"
  | .list (item :: rest) => " " ++ continuing (depth + 2) (itemLines (depth + 2) (item :: rest))
  | .record [] => " \x7b\x7d\n"
  | .record (member :: rest) => " " ++ continuing (depth + 2) (memberLines (depth + 2) (member :: rest))

/-- A member, from behind the colon to the end of its last line. -/
def memberText (depth : Nat) : Data → String
  | .null => " null\n"
  | .bool value => if value then " true\n" else " false\n"
  | .number value => " " ++ toString value ++ "\n"
  | .text value => " " ++ block (depth + 2) value
  | .list [] => " []\n"
  | .list (item :: rest) => "\n" ++ itemLines depth (item :: rest)
  | .record [] => " \x7b\x7d\n"
  | .record (member :: rest) => "\n" ++ memberLines (depth + 2) (member :: rest)

def itemLines (depth : Nat) : List Data → String
  | [] => ""
  | item :: rest => margin depth ++ "-" ++ itemText depth item ++ itemLines depth rest

def memberLines (depth : Nat) : List (String × Data) → String
  | [] => ""
  | (key, value) :: rest =>
    margin depth ++ inline depth key ++ ":" ++ memberText depth value ++ memberLines depth rest

end

end Yaml

def Data.yaml : Data → String
  | .null => "null\n"
  | .bool value => if value then "true\n" else "false\n"
  | .number value => toString value ++ "\n"
  | .text value => Yaml.block 2 value
  | .list [] => "[]\n"
  | .list (item :: rest) => Yaml.itemLines 0 (item :: rest)
  | .record [] => "\x7b\x7d\n"
  | .record (member :: rest) => Yaml.memberLines 0 (member :: rest)

end AssetIntegrity
