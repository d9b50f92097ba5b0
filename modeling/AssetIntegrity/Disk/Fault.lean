import AssetIntegrity.Path.Basic
/-!
# Faults — why a file could not be read

A fault is what the system answers to a request; a failure binds it to the path that was asked for, or says what else
went wrong before the checks could begin.
-/
namespace AssetIntegrity

/-- Why the system refused a request. -/
inductive Fault where
  | noSuchFile
  | notADirectory
  | isADirectory
  | nameTooLong
  | nulInName
  | tooManyOpen
  /-- Any other refusal, in the words of the system. -/
  | other (missing : Bool) (words : String)
deriving DecidableEq

namespace Fault

def message : Fault → String
  | noSuchFile => "No such file or directory (os error 2)"
  | notADirectory => "Not a directory (os error 20)"
  | isADirectory => "Is a directory (os error 21)"
  | nameTooLong => "File name too long (os error 36)"
  | nulInName => "file name contained an unexpected NUL byte"
  | tooManyOpen => "Too many open files (os error 24)"
  | other _ words => words

def isMissing : Fault → Bool
  | noSuchFile => true
  | other missing _ => missing
  | _ => false

end Fault

/-- Why there is nothing to check. -/
inductive Failure where
  | reading (path : Path) (fault : Fault)
  | encoding (path : Path)
  | configuration (words : String)
deriving DecidableEq

namespace Failure

def message : Failure → String
  | reading path fault => s!"IO error reading {path.display}: {fault.message}"
  | encoding path => s!"Content of {path.display} is not valid UTF-8"
  | configuration words => s!"Configuration error: {words}"

/-- What a failure comes from, itself in front. -/
def causes (failure : Failure) : List String :=
  failure.message :: match failure with
    | reading _ fault => [fault.message]
    | encoding _ | configuration _ => []

def isMissing : Failure → Bool
  | reading _ fault => fault.isMissing
  | _ => false

end Failure
end AssetIntegrity
