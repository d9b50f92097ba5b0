import AssetIntegrity.Text.Classes
/-!
# Resolution — which plain scalars are not texts

Without quotes, some texts read as nothing, as a truth value or as a number.  A number is an integer of at most 128 bits
with a prefix for its base, or a decimal that a double can hold; all of them may have a sign.

* `Yaml.resolves`: the text has to be quoted to be read as a text.
-/
namespace AssetIntegrity
namespace Yaml

def nulls : List String := ["null", "Null", "NULL", "~"]

def booleans : List String := ["true", "True", "TRUE", "false", "False", "FALSE"]

def infinities : List String := [".inf", ".Inf", ".INF"]

def nans : List String := [".nan", ".NaN", ".NAN"]

/-- Whether a number is negative, and its text without the sign. -/
def splitSign : Text → Bool × Text
  | '-' :: text => (true, text)
  | '+' :: text => (false, text)
  | text => (false, text)

def digitValue? (c : Char) : Option Nat :=
  if c.isDigit then some (c.toNat - '0'.toNat)
  else if Text.isHexDigit c then some (c.toLower.toNat - 'a'.toNat + 10)
  else none

/-- The value of digits of a base behind a number of value `high`. -/
def valueFrom? (base high : Nat) : Text → Option Nat
  | [] => some high
  | c :: text =>
    match digitValue? c with
    | some digit => if digit < base then valueFrom? base (base * high + digit) text else none
    | none => none

def prefixed? : Text → Option Nat
  | '0' :: 'x' :: c :: text => valueFrom? 16 0 (c :: text)
  | '0' :: 'o' :: c :: text => valueFrom? 8 0 (c :: text)
  | '0' :: 'b' :: c :: text => valueFrom? 2 0 (c :: text)
  | _ => none

def isPrefixedInteger (text : Text) : Bool :=
  let (negative, magnitude) := splitSign text
  match prefixed? magnitude with
  | some value => if negative then value ≤ Nat.pow 2 127 else value < Nat.pow 2 128
  | none => false

/-- The least number that rounds to an infinite double. -/
def doubleLimit : Nat := Nat.pow 2 1024 - Nat.pow 2 970

/-- Whether `digits` times ten to the power `exponent` rounds to a finite double. -/
def isFiniteDecimal (digits : Text) (exponent : Int) : Bool :=
  let digits := digits.dropWhile (· = '0')
  let magnitude : Int := digits.length + exponent
  let value := (valueFrom? 10 0 digits).getD 0
  if digits.isEmpty || magnitude ≤ 308 then true
  else if magnitude > 310 then false
  else if exponent ≥ 0 then value * Nat.pow 10 exponent.toNat < doubleLimit
  else value < doubleLimit * Nat.pow 10 (-exponent).toNat

def exponent? : Text → Option Int
  | [] => some 0
  | c :: text =>
    if c = 'e' || c = 'E' then
      let (negative, digits) := splitSign text
      if digits.isEmpty then none
      else (valueFrom? 10 0 digits).map fun value => if negative then -(value : Int) else value
    else none

/-- Whether a text is a decimal that rounds to a finite double. -/
def isDecimal (text : Text) : Bool :=
  let magnitude := (splitSign text).2
  let whole := magnitude.takeWhile Char.isDigit
  let rest := magnitude.dropWhile Char.isDigit
  let (fraction, rest) := match rest with
    | '.' :: rest => (rest.takeWhile Char.isDigit, rest.dropWhile Char.isDigit)
    | rest => ([], rest)
  let digits := whole ++ fraction
  match exponent? rest with
  | some exponent => !digits.isEmpty && isFiniteDecimal digits (exponent - fraction.length)
  | none => false

/-- Whether a text is a zero with further digits behind it, which some readers take for an integer. -/
def isPaddedInteger (text : Text) : Bool :=
  match (splitSign text).2 with
  | '0' :: c :: rest => (c :: rest).all Char.isDigit
  | _ => false

/-- Whether a plain scalar would be read as something else than a text. -/
def resolves (value : String) : Bool :=
  let text := value.toList
  value.isEmpty || nulls.contains value || booleans.contains value || nans.contains value
    || infinities.contains (String.ofList (splitSign text).2)
    || isPrefixedInteger text || isDecimal text || isPaddedInteger text

end Yaml
end AssetIntegrity
