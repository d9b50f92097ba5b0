import AssetIntegrity.CommandLine.Arguments
import AssetIntegrity.Check.Profile
import AssetIntegrity.Path.Classifier
/-!
# Commands — what a command line asks for

There are three commands: to check files and directories, to run the gate on a file, and to audit a file.  The options
about logging may stand in front of the command or behind it.

* `Invocation.parse`: what a command line asks for, or why nothing is run.
-/
namespace AssetIntegrity

inductive Format where
  | text
  | json
  | yaml
deriving DecidableEq, Inhabited

namespace Format

def name : Format → String
  | text => "text"
  | json => "json"
  | yaml => "yaml"

def ofBytes? (bytes : Argument) : Option Format :=
  [text, json, yaml].find? fun format => Utf8.encode format.name = bytes

end Format

def Mode.ofBytes? (bytes : Argument) : Option Mode :=
  [Mode.blocking, .advisory].find? fun mode => Utf8.encode mode.name = bytes

structure CheckRequest where
  paths : List Path := []
  profile : Profile := {}
  format : Format := .text
  /-- Whether files are checked whatever their extension, when they are named. -/
  allExtensions : Bool := false
  /-- Extensions by which assets are known, besides the standard ones. -/
  extensions : List String := []
deriving DecidableEq, Inhabited

inductive Command where
  | check (request : CheckRequest)
  | gate (path : Path)
  | audit (path : Path)
deriving DecidableEq

structure Invocation where
  command : Command
  verbose : Bool
  logJson : Bool
deriving DecidableEq

/-- Why no command is run. -/
inductive Stop where
  | usage
  | version
  | help
deriving DecidableEq

def loggingFlags : List Flag := [.verbose, .logJson, .help]

def leadingFlags : List Flag := .version :: loggingFlags

def checkFlags : List Flag :=
  [.mode, .format, .skipGuids, .skipReferences, .allExtensions, .extension] ++ loggingFlags

/-- What items make of a request, in order.  The first of them that decides ends it: one that `add` does not take or
that repeats an option is at fault, and one may ask for something else than the command. -/
def gather {Request : Type} (add : Request → Item → Option Request) (request : Request) (seen : List Flag) :
    List Item → Except Stop Request
  | [] => .ok request
  | .malformed :: _ => .error .usage
  | .flag .version :: _ => .error .version
  | .flag .help :: _ => .error .help
  | item :: rest =>
    if item.flag?.any fun flag => flag ∈ seen && !flag.mayRepeat then .error .usage
    else match add request item with
      | some request => gather add request (item.flag?.toList ++ seen) rest
      | none => .error .usage

/-- The items in front of the command; nothing there ends the options. -/
def leadingItems (arguments : List Argument) : List Item :=
  arguments.flatMap fun argument =>
    if argument = endOfOptions then [.malformed] else (readOption leadingFlags argument).1

namespace CheckRequest

def add (request : CheckRequest) : Item → Option CheckRequest
  | .operand path => if path.isEmpty then none else some { request with paths := request.paths ++ [path] }
  | .setting .mode value =>
    (Mode.ofBytes? value).map fun mode => { request with profile := { request.profile with mode } }
  | .setting .format value => (Format.ofBytes? value).map fun format => { request with format }
  | .setting .extension value =>
    (Utf8.decode? value).map fun extension => { request with extensions := request.extensions ++ [extension] }
  | .flag .skipGuids => some { request with profile := { request.profile with examinesGuids := false } }
  | .flag .skipReferences => some { request with profile := { request.profile with followsReferences := false } }
  | .flag .allExtensions => some { request with allExtensions := true }
  | _ => some request

def ofItems (items : List Item) : Except Stop CheckRequest := do
  let request ← gather add {} [] items
  if request.paths.isEmpty then .error .usage else .ok request

end CheckRequest

def addOnlyOperand (operand : Option Path) : Item → Option (Option Path)
  | .operand path => if operand.isSome || path.isEmpty then none else some (some path)
  | _ => some operand

def onlyOperand (items : List Item) : Except Stop Path := do
  match ← gather addOnlyOperand none [] items with
  | some path => .ok path
  | none => .error .usage

def commandNames : List String := ["check", "gate", "audit", "help"]

/-- What a request for help makes of its topics: at most one, which has to be the name of a command. -/
def helpOn : List Argument → Stop
  | [] => .help
  | [topic] => if commandNames.any fun name => Utf8.encode name = topic then .help else .usage
  | _ => .usage

/-- A command from its name and the arguments behind it, with the items that it was read from. -/
def readCommand (name : Argument) (arguments : List Argument) : Except Stop (Command × List Item) :=
  if name = Utf8.encode "check" then do
    let items := readArguments checkFlags arguments
    return (.check (← CheckRequest.ofItems items), items)
  else if name = Utf8.encode "gate" then do
    let items := readArguments loggingFlags arguments
    return (.gate (← onlyOperand items), items)
  else if name = Utf8.encode "audit" then do
    let items := readArguments loggingFlags arguments
    return (.audit (← onlyOperand items), items)
  else if name = Utf8.encode "help" then .error (helpOn arguments)
  else .error .usage

def Invocation.parse (arguments : List Argument) : Except Stop Invocation := do
  let leading := leadingItems (arguments.takeWhile isOption)
  gather (fun _ _ => some ()) () [] leading
  match arguments.dropWhile isOption with
  | [] => .error .usage
  | name :: rest =>
    let (command, items) ← readCommand name rest
    let given := leading ++ items
    return ⟨command, given.contains (.flag .verbose), given.contains (.flag .logJson)⟩

end AssetIntegrity
