import JarRefinery.Stage.Basic

/-!
The report of a run: how it ended as a whole, and the results of its stages. A run succeeds unless a
stage failed.
-/
namespace JarRefinery

structure RunReport where
  runId : String
  startedAt : String
  finishedAt : String
  status : StageStatus
  milliseconds : Int
  stages : List StageResult
  events : Option String
  notes : Json.Fields

namespace RunReport

def hasFailed (result : StageResult) : Bool :=
  result.status = .failed

/-- How a run with these results ended. -/
def statusOf (stages : List StageResult) : StageStatus :=
  if stages.any hasFailed then .failed else .success

/-- The first stage that failed. -/
def failedStage? (report : RunReport) : Option StageResult :=
  report.stages.find? hasFailed

def toFields (report : RunReport) : Json.Fields :=
  [("run_id", .text report.runId), ("started_at_utc", .text report.startedAt),
    ("finished_at_utc", .text report.finishedAt), ("status", .text report.status.word),
    ("duration_ms", .integer report.milliseconds),
    ("stages", .list (report.stages.map StageResult.toJson)),
    ("events_jsonl", .ofOption report.events), ("meta", .object report.notes)]

def toText (report : RunReport) : String :=
  Json.printIndented 0 (.object report.toFields)

/-- Writes the report to `path`. -/
def write (path : Path) (report : RunReport) : Action Unit := do
  Action.onFiles (FileTree.ensureDirectories path.parent)
  Action.onFiles (FileTree.writeFile path (Text.Utf8.encode report.toText))

end RunReport

end JarRefinery
