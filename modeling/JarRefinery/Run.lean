import JarRefinery.Event
import JarRefinery.FileDigest
import JarRefinery.Mapping.Provider
import JarRefinery.Settings.Basic
import JarRefinery.Workspace

/-!
Runs: what all stages of a run share. The stages tell of their work through events and log records,
and record the files that they made.
-/
namespace JarRefinery

structure Run where
  id : String
  version : String
  workspace : Workspace
  settings : Settings
  provider : MappingProvider
  events : EventLog

namespace Run

def side (run : Run) : String :=
  run.settings.side

def maxAttempts (run : Run) : Int :=
  run.settings.httpMaxAttempts

/-- Tells of an event of a stage. -/
def emit (run : Run) (stage kind : String) (data : Json.Fields) : Action Unit :=
  run.events.append ⟨kind, run.id, .text stage, data⟩

/-- Tells of an event with fields of any names. A field for the stage is shown as text. -/
def emitFields (run : Run) (kind : String) (fields : Json.Fields) : Action Unit := do
  Action.ofResult (Event.checkNames "RunContext.emit" "argument" ["self", "event"] fields)
  let stage := match fields.get? "stage" with
    | none | some .null => .null
    | some stage => .text stage.display
  let event ← Action.ofResult
    (Event.make kind run.id [] (fields.remove "stage"))
  run.events.append { event with stage }

/-- A file as the report lists it: its path is seen from the workspace if it lies there. -/
def artifactRef (workspace : Workspace) (path : Path) (digest : FileDigest)
    (contentType : Option String) : ArtifactRef :=
  ⟨((workspace.root.below? path).getD path).toString, digest.bytes, digest.sha256, contentType⟩

/-- Records a file that a stage made. -/
def recordArtifact (run : Run) (stage : String) (contentType : Option String) (path : Path) :
    Action ArtifactRef := do
  let digest ← FileDigest.ofFile path
  let ref := artifactRef run.workspace path digest contentType
  run.emit stage "artifact.written" [("path", .text ref.path), ("bytes", .ofNat ref.bytes),
    ("sha256", .text ref.sha256), ("content_type", .ofOption ref.contentType)]
  pure ref

/-- Leaves a record in the log of the run. -/
def log (level : LogLevel) (event : String) (fields : Json.Fields) : Action Unit :=
  modify fun world => { world with log := world.log ++ [⟨level, event, fields⟩] }

/-- Changes what is handed on to later stages. -/
def hand (change : RunState → RunState) : Action Unit :=
  modify fun world => { world with state := change world.state }

/-- What earlier stages handed on. -/
def handed : Action RunState :=
  return (← get).state

end Run

end JarRefinery
