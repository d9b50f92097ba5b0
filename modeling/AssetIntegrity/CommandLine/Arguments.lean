import AssetIntegrity.Text.Utf8
/-!
# Arguments — options and operands

An argument that begins with a dash is an option, unless it is a lone dash or stands behind `--`.  A long option has its
value behind `=` or as the next argument.  Short options may stand together behind one dash; one with a value takes the
rest, from which an `=` in front is dropped, or the next argument.

* `readArguments`: arguments as a list of items, in order; an item `malformed` ends the useful part.
-/
namespace AssetIntegrity

abbrev Argument := List UInt8

inductive Flag where
  | verbose
  | logJson
  | version
  | help
  | mode
  | format
  | skipGuids
  | skipReferences
  | allExtensions
  | extension
deriving DecidableEq

namespace Flag

def long : Flag → String
  | verbose => "verbose"
  | logJson => "log-json"
  | version => "version"
  | help => "help"
  | mode => "mode"
  | format => "format"
  | skipGuids => "skip-guids"
  | skipReferences => "skip-references"
  | allExtensions => "all-extensions"
  | extension => "extension"

def short? : Flag → Option UInt8
  | verbose => some 0x76
  | version => some 0x56
  | help => some 0x68
  | mode => some 0x6D
  | format => some 0x66
  | _ => none

def takesValue : Flag → Bool
  | mode | format | extension => true
  | _ => false

def mayRepeat : Flag → Bool
  | extension => true
  | _ => false

end Flag

/-- What an argument, or two, say. -/
inductive Item where
  | flag (flag : Flag)
  | setting (flag : Flag) (value : Argument)
  | operand (value : Argument)
  | malformed
deriving DecidableEq

def Item.flag? : Item → Option Flag
  | .flag given | .setting given _ => some given
  | .operand _ | .malformed => none

def dashByte : UInt8 := 0x2D

def equalsByte : UInt8 := 0x3D

def endOfOptions : Argument := [dashByte, dashByte]

/-- Whether an argument begins with a dash that is not all of it. -/
def isOption : Argument → Bool
  | first :: _ :: _ => first = dashByte
  | _ => false

/-- The options behind one dash, and the one that needs the next argument as its value. -/
def readShort (known : List Flag) : Argument → List Item × Option Flag
  | [] => ([], none)
  | letter :: rest =>
    match known.find? fun flag => flag.short? = some letter with
    | none => ([.malformed], none)
    | some flag =>
      if flag.takesValue then
        match rest with
        | [] => ([], some flag)
        | first :: more => ([.setting flag (if first = equalsByte then more else rest)], none)
      else
        let (items, pending) := readShort known rest
        (.flag flag :: items, pending)

/-- The option behind two dashes, or the one that needs the next argument as its value. -/
def readLong (known : List Flag) (text : Argument) : List Item × Option Flag :=
  match known.find? fun flag => Utf8.encode flag.long = text.takeWhile (· ≠ equalsByte) with
  | none => ([.malformed], none)
  | some flag =>
    match text.dropWhile (· ≠ equalsByte) with
    | [] => if flag.takesValue then ([], some flag) else ([.flag flag], none)
    | _ :: value => if flag.takesValue then ([.setting flag value], none) else ([.malformed], none)

/-- The options of one argument, and the one that needs the next argument as its value. -/
def readOption (known : List Flag) (argument : Argument) : List Item × Option Flag :=
  match argument with
  | _ :: second :: rest => if second = dashByte then readLong known rest else readShort known (second :: rest)
  | _ => ([.malformed], none)

/-- What arguments say, in order, when only the options in `known` can occur. -/
def readArguments (known : List Flag) : List Argument → List Item
  | [] => []
  | argument :: rest =>
    if argument = endOfOptions then rest.map .operand
    else if isOption argument then
      let (items, pending) := readOption known argument
      items ++ match pending with
        | none => readArguments known rest
        | some flag =>
          match rest with
          | [] => [.malformed]
          | value :: more => if isOption value then [.malformed] else .setting flag value :: readArguments known more
    else .operand argument :: readArguments known rest

end AssetIntegrity
