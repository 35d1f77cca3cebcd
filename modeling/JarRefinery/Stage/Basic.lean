import JarRefinery.Decimal.Shortest
import JarRefinery.Run

/-!
Stages: the steps of a run, and what comes of them. A stage gives outputs and metrics of its own,
warnings, and references to the files that it recorded.
-/
namespace JarRefinery

/-- How a stage ended. Reports may tell of other ends than the two that stages have. -/
inductive StageStatus where
  | success
  | failed
  | other (word : String)
deriving DecidableEq, Repr

namespace StageStatus

def word : StageStatus → String
  | success => "success"
  | failed => "failed"
  | other word => word

def ofWord (text : String) : StageStatus :=
  match text with
  | "success" => .success
  | "failed" => .failed
  | _ => .other text

end StageStatus

/-- Why a stage failed. -/
structure StageError where
  kind : String
  message : String
  trace : String
deriving DecidableEq, Repr

namespace StageError

def ofFault (fault : Fault) : StageError :=
  ⟨fault.kind.name, fault.message, fault.kind.name ++ ": " ++ fault.message⟩

def toJson (error : StageError) : Json :=
  .object [("exc_type", .text error.kind), ("message", .text error.message),
    ("traceback", .text error.trace)]

end StageError

/-- What a stage gives if it succeeds. -/
structure StageOutput where
  outputs : Json.Fields := []
  metrics : Json.Fields := []
  warnings : List String := []
  artifacts : List ArtifactRef := []

namespace StageOutput

/-- Fields of a free answer that are not outputs. -/
def reservedNames : List String := ["_warnings", "_metrics", "_artifacts"]

/-- What a free answer gives: warnings from a list, metrics from an object. -/
def ofFields (fields : Json.Fields) (artifacts : List ArtifactRef) : StageOutput where
  outputs := fields.filter fun field => !reservedNames.contains field.1
  metrics := match fields.get? "_metrics" with
    | some (.object metrics) => metrics
    | _ => []
  warnings := match fields.get? "_warnings" with
    | some (.list warnings) => warnings.map Json.display
    | _ => []
  artifacts := artifacts

/-- What the free answer of a stage gives. An answer that counts as nothing gives nothing; any other
must be an object. -/
def ofAnswer (stage : String) (answer : Json) (artifacts : List ArtifactRef) :
    Except Fault StageOutput :=
  match answer with
  | .object fields => .ok (ofFields fields artifacts)
  | answer =>
    if answer.isEmptyValue then .ok {}
    else .error (.of .typeError ("Stage " ++ stage ++ " returned " ++ answer.kindName ++
      ", expected dict or None"))

end StageOutput

/-- A step of a run. -/
structure Stage where
  name : String
  perform : Run → Action StageOutput

/-- What the report says of a stage. -/
structure StageResult where
  stage : String
  status : StageStatus
  startedAt : String
  finishedAt : String
  milliseconds : Int
  output : StageOutput
  error : Option StageError

namespace StageResult

def toJson (result : StageResult) : Json :=
  .object [("stage", .text result.stage), ("status", .text result.status.word),
    ("started_at_utc", .text result.startedAt), ("finished_at_utc", .text result.finishedAt),
    ("duration_ms", .integer result.milliseconds), ("outputs", .object result.output.outputs),
    ("metrics", .object result.output.metrics), ("warnings", .ofTexts result.output.warnings),
    ("artifacts", .list (result.output.artifacts.map ArtifactRef.toJson)),
    ("error", match result.error with | none => .null | some error => error.toJson)]

end StageResult

/-- A length of time as logs show it: in milliseconds if it is less than a second, else in seconds
with two places. -/
def durationText (milliseconds : Int) : String :=
  if milliseconds < 1000 then toString milliseconds ++ " ms"
  else (Binary64.ofRatio false milliseconds.toNat 1000).fixed 2 ++ " s"

end JarRefinery
