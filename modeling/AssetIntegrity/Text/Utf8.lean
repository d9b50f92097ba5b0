import AssetIntegrity.Text.Classes
/-!
# UTF-8 — bytes as text

* `decode?`: the text of bytes that are valid UTF-8.
* `display`: the text of any bytes, where each longest front of a valid sequence that goes no further, and each byte
  that begins none, shows as the replacement character.
-/
namespace AssetIntegrity
namespace Utf8

def encode (text : String) : List UInt8 := text.toUTF8.toList

def decode? (bytes : List UInt8) : Option String := String.fromUTF8? ⟨bytes.toArray⟩

/-- What stands for bytes that are no character. -/
def replacement : Char := '\ufffd'

/-- A sequence that is not complete: how many bytes it lacks, the range of the next one, and the code point so far. -/
structure Partial where
  lacking : Nat
  low : UInt8
  high : UInt8
  code : Nat

/-- The sequence that a first byte begins; `none` when no sequence of several bytes begins with it. -/
def Partial.begin? (byte : UInt8) : Option Partial :=
  if byte < 0xC2 then none
  else if byte < 0xE0 then some ⟨1, 0x80, 0xBF, byte.toNat - 0xC0⟩
  else if byte < 0xF0 then
    some ⟨2, if byte = 0xE0 then 0xA0 else 0x80, if byte = 0xED then 0x9F else 0xBF, byte.toNat - 0xE0⟩
  else if byte < 0xF5 then
    some ⟨3, if byte = 0xF0 then 0x90 else 0x80, if byte = 0xF4 then 0x8F else 0xBF, byte.toNat - 0xF0⟩
  else none

/-- Reads a first byte: a character of one byte, the beginning of a sequence, or a replacement. -/
def displayFirst (byte : UInt8) : Text × Option Partial :=
  if byte < 0x80 then ([Char.ofNat byte.toNat], none)
  else match Partial.begin? byte with
    | some sequence => ([], some sequence)
    | none => ([replacement], none)

/-- Reads the next byte of a sequence; a byte that does not continue it is read as a first byte. -/
def displayNext (sequence : Partial) (byte : UInt8) : Text × Option Partial :=
  if sequence.low ≤ byte ∧ byte ≤ sequence.high then
    let code := 64 * sequence.code + (byte.toNat - 0x80)
    if sequence.lacking = 1 then ([Char.ofNat code], none)
    else ([], some ⟨sequence.lacking - 1, 0x80, 0xBF, code⟩)
  else (replacement :: (displayFirst byte).1, (displayFirst byte).2)

/-- The characters of bytes that follow an incomplete sequence, if one is open. -/
def displayFrom : Option Partial → List UInt8 → Text
  | none, [] => []
  | some _, [] => [replacement]
  | none, byte :: rest => (displayFirst byte).1 ++ displayFrom (displayFirst byte).2 rest
  | some sequence, byte :: rest => (displayNext sequence byte).1 ++ displayFrom (displayNext sequence byte).2 rest

def display (bytes : List UInt8) : String := String.ofList (displayFrom none bytes)

end Utf8
end AssetIntegrity
