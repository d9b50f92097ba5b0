import AssetIntegrity.CommandLine.Run
import AssetIntegrity.Edit.Event
/-!
# Logs — what a run tells beside its answer

A log holds the warnings of a run, or everything when it is verbose.  A line of it is for a reader, or a JSON record.
-/
namespace AssetIntegrity

def Level.name : Level → String
  | debug => "DEBUG"
  | info => "INFO"
  | warn => "WARN"

namespace Event

def plainLine (event : Event) : String :=
  s!"{event.level.name} {event.message}"
    ++ String.join (event.fields.map fun (name, value) => s!" {name}={value.jsonLine}") ++ "\n"

def recordLine (event : Event) : String :=
  (Data.record (("level", .text event.level.name) :: ("message", .text event.message) :: event.fields)).jsonLine ++ "\n"

end Event

/-- The events of a command. -/
def Command.events (disk : Disk) : Command → List Event
  | .check request =>
    match request.targets request.classifier disk with
    | .ok files => files.flatMap fun path => Event.ofContent request.profile (disk.read path)
    | .error _ => []
  | .gate path => Event.ofGate .standard path (disk.read path)
  | .audit path => Event.ofAudit .standard path (disk.read path)

def Invocation.log (invocation : Invocation) (disk : Disk) : String :=
  let events := (invocation.command.events disk).filter fun event => invocation.verbose || event.level = .warn
  String.join (events.map fun event => if invocation.logJson then event.recordLine else event.plainLine)

end AssetIntegrity
