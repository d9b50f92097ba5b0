import AssetIntegrity.Text.Classes
/-!
# Integers — reading a number into a word of 64 bits

A number is read digit by digit, and no step may lose a bit: an operation on words has a result only where the exact one
fits into a word.

* `Word.sum?`, `Word.difference?`, `Word.product?`: the operations.
* `Text.word?`: the number that a text of ASCII digits stands for, behind at most one sign.
-/
namespace AssetIntegrity
namespace Word

/-- The result of an operation on words, which may wrap around, where it does not. -/
def checked (wraps : BitVec 64 → BitVec 64 → Bool) (operation : Int64 → Int64 → Int64) (a b : Int64) : Option Int64 :=
  if wraps a.toBitVec b.toBitVec then none else some (operation a b)

def sum? : Int64 → Int64 → Option Int64 := checked BitVec.saddOverflow (· + ·)

def difference? : Int64 → Int64 → Option Int64 := checked BitVec.ssubOverflow (· - ·)

def product? : Int64 → Int64 → Option Int64 := checked BitVec.smulOverflow (· * ·)

end Word

namespace Text

/-- The number `high` with one more digit behind it: it moves up one place, and `count?` counts the digit in. -/
def appendDigit? (count? : Int64 → Int64 → Option Int64) (high : Int64) (c : Char) : Option Int64 :=
  if c.isDigit then do
    let shifted ← Word.product? high 10
    count? shifted (Int64.ofNat (c.toNat - '0'.toNat))
  else none

def digitsWord? (count? : Int64 → Int64 → Option Int64) (digits : Text) : Option Int64 :=
  if digits.isEmpty then none else digits.foldlM (appendDigit? count?) 0

/-- The number that ASCII digits behind at most one sign stand for.  A negative one is counted down from zero, since the
least word has no opposite. -/
def word? : Text → Option Int64
  | '+' :: digits => digitsWord? Word.sum? digits
  | '-' :: digits => digitsWord? Word.difference? digits
  | digits => digitsWord? Word.sum? digits

end Text
end AssetIntegrity
