import JarRefinery.Stage.Basic

/-!
The execution of a stage. It begins with an event and ends with exactly one, of success or of
failure; before it succeeds there is an event for every warning and one for its metrics, if it has
any. A fault of the stage ends here and becomes a part of its result.
-/
namespace JarRefinery.Stage

/-- No time passes within a stage, as far as can be seen. -/
def elapsed : Int := 0

/-- A log record of the stage. -/
def log (stage : Stage) (level : LogLevel) (event : String) (fields : Json.Fields) : Action Unit :=
  Run.log level event (("stage", .text stage.name) :: fields)

/-- Tells of warnings and metrics, and at last of the success. -/
def announce (run : Run) (stage : Stage) (output : StageOutput) : Action Unit := do
  output.warnings.forM fun warning => do
    run.emit stage.name "stage.warn" [("message", .text warning)]
    stage.log .warning warning []
  if !output.metrics.isEmpty then
    run.emit stage.name "stage.metrics" [("metrics", .object output.metrics)]
  run.emit stage.name "stage.success" [("duration_ms", .integer elapsed)]

/-- The log record of a success. -/
def logSuccess (stage : Stage) (position : Json) (output : StageOutput) : Action Unit :=
  let artifacts := if output.artifacts.isEmpty then []
    else [("artifacts", Json.ofNat output.artifacts.length)]
  stage.log .info "Stage succeeded"
    ([("status", .text "success"), ("position", position), ("duration_ms", .integer elapsed),
      ("duration", .text (durationText elapsed)),
      ("warnings", .ofNat output.warnings.length),
      ("outputs", .ofTexts ((output.outputs.map (·.1)).mergeSort))] ++ artifacts)

/-- Tells of a failure. -/
def announceFailure (run : Run) (stage : Stage) (position : Json) (fault : Fault) :
    Action Unit := do
  let kind := fault.kind.name
  run.emit stage.name "stage.failed" [("duration_ms", .integer elapsed),
    ("exc_type", .text kind), ("message", .text fault.message)]
  stage.log .error "Stage failed"
    [("status", .text "failed"), ("position", position), ("duration_ms", .integer elapsed),
      ("duration", .text (durationText elapsed)), ("error", .text fault.message),
      ("exc_type", .text kind)]

/-- The result of a stage that ended at once. -/
def result (stage : Stage) (status : StageStatus) (output : StageOutput)
    (error : Option StageError) : Action StageResult := do
  let now := (← read).clock
  pure ⟨stage.name, status, now, now, elapsed, output, error⟩

/-- A stage that failed, with what it had given until then besides outputs. -/
def fail (run : Run) (stage : Stage) (position : Json) (fault : Fault) (sofar : StageOutput) :
    Action StageResult := do
  announceFailure run stage position fault
  stage.result .failed { sofar with outputs := [] } (some (.ofFault fault))

/-- Whether a fault is a failure of a stage; what asks the whole program to end is not. -/
def isFailure (fault : Fault) : Bool :=
  fault.isA .exception

/-- How an action ends, unless it asks the whole program to end. -/
def caught {α : Type} (action : Action α) : Action (Except Fault α) :=
  Action.handle isFailure (fun fault => pure (.error fault)) (Except.ok <$> action)

/-- Tells that a stage begins. -/
def begin (run : Run) (stage : Stage) (position : Json) : Action Unit := do
  run.emit stage.name "stage.start" []
  stage.log .info "Stage starting" [("position", position)]

/-- What comes of a stage that gave an output. -/
def finish (run : Run) (stage : Stage) (position : Json) (output : StageOutput) :
    Action StageResult := do
  match ← caught (announce run stage output) with
  | .error fault => fail run stage position fault output
  | .ok () =>
    stage.logSuccess position output
    stage.result .success output none

/-- Executes a stage; `position` tells where it stands among the stages of the run. -/
def execute (run : Run) (position : Option String) (stage : Stage) : Action StageResult := do
  let position := Json.ofOption position
  stage.begin run position
  match ← caught (stage.perform run) with
  | .error fault => fail run stage position fault {}
  | .ok output => stage.finish run position output

end JarRefinery.Stage
