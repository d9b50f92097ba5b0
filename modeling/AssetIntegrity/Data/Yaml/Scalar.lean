import AssetIntegrity.Data.Yaml.Resolution
/-!
# Scalars — how a text is written in YAML

A text is written plain when it would be read back as that text; else between single quotes; else between double quotes,
where every character can be written.  A text of several lines is written line by line behind a bar.

* `Yaml.style`: which of the four ways a text is written in.
* `Yaml.inline` and `Yaml.block`: a text, without and with the line break behind it.
-/
namespace AssetIntegrity
namespace Yaml

inductive Style where
  | plain
  | singleQuoted
  | doubleQuoted
  | literal
deriving DecidableEq

def isBreak (c : Char) : Bool := c = '\n' || c = '\r' || c = '\x85' || c = '\u2028' || c = '\u2029'

/-- A character that separates words: white space, or the character of code zero, which also ends a text. -/
def isSeparator (c : Char) : Bool := c = ' ' || c = '\t' || isBreak c || c.toNat = 0

/-- A character that may stand outside double quotes.  Of the controls only the line feed may; the other characters that
end a line may unless they are controls. -/
def isPrintable (c : Char) : Bool :=
  let code := c.toNat
  c = '\n' || (0x20 ≤ code && code ≤ 0x7E) || (0xA0 ≤ code && code ≠ 0xFEFF && code ≠ 0xFFFE && code ≠ 0xFFFF)

/-- The characters that mean something at the beginning of a plain scalar. -/
def indicators : List Char :=
  ['#', ',', '[', ']', '\x7b', '\x7d', '&', '*', '!', '|', '>', '\'', '"', '%', '@', '\x60']

def endsWord : Text → Bool
  | [] => true
  | c :: _ => isSeparator c

/-- Whether something inside a text ends a plain scalar: `: `, or `#` behind a separator. -/
def interrupts : Text → Bool
  | [] => false
  | c :: rest =>
    (isSeparator c && rest.head? = some '#') || (rest.head? = some ':' && endsWord (rest.drop 1)) || interrupts rest

/-- Whether a text begins like something else than a plain scalar, or ends one before its end. -/
def hasIndicator : Text → Bool
  | [] => false
  | c :: rest =>
    indicators.contains c || ((c = '?' || c = ':' || c = '-') && endsWord rest)
      || ['-', '-', '-'].isPrefixOf (c :: rest) || ['.', '.', '.'].isPrefixOf (c :: rest) || interrupts (c :: rest)

/-- Whether a character of the first class is followed by one of the second. -/
def adjacent (first second : Char → Bool) : Text → Bool
  | [] => false
  | c :: rest => (first c && rest.head?.any second) || adjacent first second rest

def isSpace (c : Char) : Bool := c = ' '

def style (value : String) : Style :=
  let text := value.toList
  let unwritable := text.any (!isPrintable ·) || adjacent isSpace isBreak text
  let endsWithSpace := text.getLast?.any isSpace
  if text.contains '\n' then
    if unwritable || endsWithSpace then .doubleQuoted else .literal
  else if unwritable || adjacent isBreak isSpace text then .doubleQuoted
  else if resolves value || hasIndicator text || text.any isBreak || text.head?.any isSpace || endsWithSpace then
    .singleQuoted
  else .plain

/-- The text of a hexadecimal number in upper case, with leading zeros up to a width. -/
def hex (width n : Nat) : String :=
  let digits := (Nat.toDigits 16 n).map Char.toUpper
  String.ofList (List.replicate (width - digits.length) '0' ++ digits)

def shortEscapes : List (Nat × String) :=
  [(0x00, "0"), (0x07, "a"), (0x08, "b"), (0x09, "t"), (0x0A, "n"), (0x0B, "v"), (0x0C, "f"), (0x0D, "r"), (0x1B, "e"),
   (0x22, "\""), (0x5C, "\\"), (0x85, "N"), (0xA0, "_"), (0x2028, "L"), (0x2029, "P")]

def escape (c : Char) : String :=
  if isPrintable c && !isBreak c && c ≠ '"' && c ≠ '\\' then String.singleton c
  else match shortEscapes.lookup c.toNat with
    | some letter => "\\" ++ letter
    | none =>
      if c.toNat ≤ 0xFF then "\\x" ++ hex 2 c.toNat
      else if c.toNat ≤ 0xFFFF then "\\u" ++ hex 4 c.toNat
      else "\\U" ++ hex 8 c.toNat

def doubleQuote (value : String) : String := "\"" ++ String.join (value.toList.map escape) ++ "\""

/-- A text whose lines are indented to `depth`, the first one only if a line break has just been written. -/
def indentLines (depth : Nat) : Bool → Text → Text
  | _, [] => []
  | afterBreak, c :: rest =>
    if isBreak c then c :: indentLines depth true rest
    else (if afterBreak then List.replicate depth ' ' else []) ++ c :: indentLines depth false rest

/-- A text between single quotes, where a single quote is written twice. -/
def singleQuote (depth : Nat) (value : String) : String :=
  let doubled := value.toList.flatMap fun c => if c = '\'' then [c, c] else [c]
  "'" ++ String.ofList (indentLines depth false (doubled ++ ['\'']))

/-- What stands behind the bar of a literal text: the depth of its lines when the first one begins with a space or is
empty, and a sign unless exactly one line break ends it. -/
def literalHeader (text : Text) : String :=
  let depth := if text.head?.any fun c => isSpace c || isBreak c then "2" else ""
  let ending := match text.reverse with
    | [] => "-"
    | [last] => if isBreak last then "+" else "-"
    | last :: previous :: _ => if !isBreak last then "-" else if isBreak previous then "+" else ""
  "|" ++ depth ++ ending

/-- A text on one line, or on several within quotes, whose further lines are indented to `depth`. -/
def inline (depth : Nat) (value : String) : String :=
  match style value with
  | .plain => value
  | .singleQuoted => singleQuote depth value
  | _ => doubleQuote value

/-- A text and the line break behind it; further lines are indented to `depth`. -/
def block (depth : Nat) (value : String) : String :=
  if style value = .literal then
    let text := value.toList
    literalHeader text ++ "\n" ++ String.ofList (indentLines depth true text)
      ++ if text.getLast?.any isBreak then "" else "\n"
  else inline depth value ++ "\n"

end Yaml
end AssetIntegrity
