import JarRefinery.Json.Literal
import JarRefinery.Json.Printer
import JarRefinery.Text.Utf8
import JarRefinery.World

/-!
Events: what happens in a run, written to its event log one after the other, each on a line of its
own. An event log begins with an event that tells where the run takes place.
-/
namespace JarRefinery

/-- An event. Its stage is a name, or null if it belongs to none. -/
structure Event where
  kind : String
  runId : String
  stage : Json
  data : Json.Fields

namespace Event

def toJson (time : String) (event : Event) : Json :=
  .object [("type", .text event.kind), ("ts_utc", .text time), ("run_id", .text event.runId),
    ("stage", event.stage), ("data", .object event.data)]

/-- An event with these fields, of which one may name its stage. -/
def ofFields (kind runId : String) (fields : Json.Fields) : Event :=
  ⟨kind, runId, (fields.get? "stage").getD .null, fields.remove "stage"⟩

/-- Refuses fields whose names the maker of an event gives a value of its own. -/
def checkNames (maker argument : String) (names : List String) (fields : Json.Fields) :
    Except Fault Unit :=
  match fields.find? (names.contains ·.1) with
  | none => .ok ()
  | some (name, _) => .error (.of .typeError
      (maker ++ "() got multiple values for " ++ argument ++ " " ++ Text.quote name))

/-- An event with fields of its own, whose names are `fixed`, and others that must not repeat
them. -/
def make (kind runId : String) (own others : Json.Fields) : Except Fault Event := do
  checkNames "mc_decompile.pipeline.events.make_event" "keyword argument"
    (["event_type", "run_id"] ++ own.map (·.1)) others
  pure (ofFields kind runId (own ++ others))

end Event

/-- A file of events. -/
structure EventLog where
  path : Path
deriving DecidableEq, Repr

namespace EventLog

def append (log : EventLog) (event : Event) : Action Unit := do
  let line := (event.toJson (← read).clock).print
  Action.onFiles (FileTree.appendFile log.path (Text.Utf8.encode (line ++ "\n")))

/-- The event that a log begins with: where the run takes place. -/
def placeEvent : Action Event := do
  let host ← read
  let here := Path.ofLocation (← get).files.here
  pure ⟨"run.env", "__init__", .null, [("hostname", .text host.hostName),
    ("pid", .ofNat host.processId), ("cwd", .text here.toString)]⟩

/-- The event log at `path`, which goes on after what is there. -/
def start (path : Path) : Action EventLog := do
  Action.onFiles (FileTree.ensureDirectories path.parent)
  let log : EventLog := ⟨path⟩
  log.append (← placeEvent)
  pure log

end EventLog

end JarRefinery
