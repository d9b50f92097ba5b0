import AssetIntegrity.Data.Basic
/-!
# JSON — values written on one line or on several

On several lines, each item of a list and each member of a record has a line of its own, two spaces deeper than the
brackets around it; a list or record without any is written `[]` or `{}`.  Characters beyond ASCII are written as they
are.
-/
namespace AssetIntegrity
namespace Data

def indentation (depth : Nat) : String := String.ofList (List.replicate depth ' ')

def escapeJson (c : Char) : String :=
  if c = '"' then "\\\""
  else if c = '\\' then "\\\\"
  else if c = '\x08' then "\\b"
  else if c = '\t' then "\\t"
  else if c = '\n' then "\\n"
  else if c = '\x0c' then "\\f"
  else if c = '\r' then "\\r"
  else if c.toNat < 0x20 then "\\u00" ++ String.ofList [Nat.digitChar (c.toNat / 16), Nat.digitChar (c.toNat % 16)]
  else String.singleton c

def quoteJson (value : String) : String := "\"" ++ String.join (value.toList.map escapeJson) ++ "\""

/-- The layout of a text: on one line, or over several lines with the brackets at a depth. -/
abbrev Layout := Option Nat

def Layout.inner (layout : Layout) : Layout := layout.map (· + 2)

def bracket (opening closing : String) (layout : Layout) (parts : List String) : String :=
  match layout with
  | none => opening ++ ",".intercalate parts ++ closing
  | some depth =>
    if parts.isEmpty then opening ++ closing
    else opening ++ "\n" ++ ",\n".intercalate (parts.map (indentation (depth + 2) ++ ·)) ++ "\n"
      ++ indentation depth ++ closing

def colon (layout : Layout) : String := if layout.isSome then ": " else ":"

mutual

/-- A value in a layout, where its first line is already indented. -/
def jsonIn (layout : Layout) : Data → String
  | null => "null"
  | bool true => "true"
  | bool false => "false"
  | number value => toString value
  | text value => quoteJson value
  | list items => bracket "[" "]" layout (jsonItems layout.inner items)
  | record members => bracket "\x7b" "\x7d" layout (jsonMembers layout.inner members)

def jsonItems (layout : Layout) : List Data → List String
  | [] => []
  | item :: rest => jsonIn layout item :: jsonItems layout rest

def jsonMembers (layout : Layout) : List (String × Data) → List String
  | [] => []
  | (key, value) :: rest => (quoteJson key ++ colon layout ++ jsonIn layout value) :: jsonMembers layout rest

end

def json (value : Data) : String := jsonIn (some 0) value

def jsonLine (value : Data) : String := jsonIn none value

end Data
end AssetIntegrity
