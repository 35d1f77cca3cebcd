import JarRefinery.Report
import JarRefinery.Stage.Execution
import JarRefinery.Stage.Order
import JarRefinery.Tool.Check

/-!
Pipelines: runs of stages in order, up to the first that fails. A run keeps its event log and its
report in a directory of its own. What has to hold beforehand is checked first: a fault of these
checks is thrown, while a stage that fails is only reported.
-/
namespace JarRefinery

/-- What a run leaves: its exit status and report, and what the run was and handed on. -/
structure RunOutcome where
  exitCode : Nat
  report : RunReport
  run : Run
  notes : Json.Fields
  state : RunState

namespace Pipeline

/-- The names that more than one stage has, sorted. -/
def repeatedNames (stages : List Stage) : List String :=
  let names := stages.map (·.name)
  (names.eraseDups.filter fun name => 1 < names.count name).mergeSort

/-- Refuses stages of one name. -/
def checkNames (stages : List Stage) : Except Fault Unit :=
  match repeatedNames stages with
  | [] => .ok ()
  | repeated => .error (.value ("Duplicate stage_id(s): " ++ Json.literalTexts repeated))

/-- Where a stage stands that has `before` stages before it. -/
def position (before total : Nat) : String :=
  toString (before + 1) ++ "/" ++ toString total

/-- Executes stages until one fails. `before` is the number of those executed before. -/
def executeFrom (run : Run) (total : Nat) : (before : Nat) → List Stage → Action (List StageResult)
  | _, [] => pure []
  | before, stage :: rest => do
    let result ← stage.execute run (some (position before total))
    if RunReport.hasFailed result then
      Run.log .error "Stopping on first failure" [("stage", .text stage.name)]
      return [result]
    else return result :: (← executeFrom run total (before + 1) rest)

def runDirectory (workspace : Workspace) (runId : String) : Path :=
  workspace.runsDirectory / runId

def reportPath (workspace : Workspace) (runId : String) : Path :=
  runDirectory workspace runId / "run_report.json"

def eventsPath (workspace : Workspace) (runId : String) : Path :=
  runDirectory workspace runId / "events.jsonl"

/-- Makes the directory of a run and begins its event log. -/
def openRun (workspace : Workspace) (runId version : String) (settings : Settings)
    (provider : MappingProvider) : Action Run := do
  Action.onFiles (FileTree.ensureDirectories (runDirectory workspace runId))
  let events ← EventLog.start (eventsPath workspace runId)
  pure ⟨runId, version, workspace, settings, provider, events⟩

/-- Tells that a run begins. `notes` are told along. -/
def announceStart (run : Run) (stages : List Stage) (notes : Json.Fields) : Action Unit := do
  let kind : Json := .text run.provider.kind
  Run.log .info "Pipeline starting" [("run_id", .text run.id), ("version", .text run.version),
    ("stages", .ofTexts (stages.map (·.name))),
    ("workspace", .text run.workspace.root.toString), ("mappings", kind)]
  let event ← Action.ofResult (Event.make "run.start" run.id
    [("version", .text run.version), ("mappings", kind)] notes)
  run.events.append event

/-- The event that a run ends with. -/
def finishEvent (run : Run) (report : RunReport) : Event :=
  ⟨"run.finish", run.id, .null, [("status", .text report.status.word),
    ("duration_ms", .integer report.milliseconds),
    ("report_json", .text (reportPath run.workspace run.id).toString)]⟩

/-- Tells that a run has ended. -/
def announceFinish (run : Run) (report : RunReport) : Action Unit := do
  run.events.append (finishEvent run report)
  Run.log .info "Run complete" [("duration_ms", .integer report.milliseconds),
    ("duration", .text (durationText report.milliseconds)),
    ("report", .text (reportPath run.workspace run.id).toString),
    ("status", .text report.status.word)]

def report (run : Run) (notes : Json.Fields) (startedAt finishedAt : String)
    (results : List StageResult) : RunReport where
  runId := run.id
  startedAt := startedAt
  finishedAt := finishedAt
  status := RunReport.statusOf results
  milliseconds := Stage.elapsed
  stages := results
  events := some run.events.path.toString
  notes := Json.Fields.update
    [("version", .text run.version), ("mappings", .text run.provider.kind)] notes

/-- Begins a run of stages. -/
def beginRun (stages : List Stage) (workspace : Workspace) (runId version : String)
    (settings : Settings) (provider : MappingProvider) (notes : Json.Fields) : Action Run := do
  Action.ofResult (checkNames stages)
  modify fun world => { world with state := {} }
  let run ← openRun workspace runId version settings provider
  announceStart run stages notes
  pure run

/-- Ends a run with these results: its report is written, and its end told of. -/
def finishRun (run : Run) (notes : Json.Fields) (startedAt : String) (results : List StageResult) :
    Action RunOutcome := do
  let report := report run notes startedAt (← read).clock results
  report.write (reportPath run.workspace run.id)
  announceFinish run report
  pure ⟨if report.status = .success then 0 else 1, report, run, notes, ← Run.handed⟩

/-- Runs stages in a workspace that is ready for them. -/
def runStages (stages : List Stage) (workspace : Workspace) (runId version : String)
    (settings : Settings) (provider : MappingProvider) (notes : Json.Fields) :
    Action RunOutcome := do
  let startedAt := (← read).clock
  let run ← beginRun stages workspace runId version settings provider notes
  let results ← executeFrom run stages.length 0 stages
  finishRun run notes startedAt results

/-- What a run is asked to do. -/
structure Request where
  version : String
  settings : Settings
  workspace : Option Path
  /-- The kind of provider, if not that of the settings. -/
  mappings : Option String
  runId : String

namespace Request

def workspaceRoot (request : Request) : Path :=
  request.workspace.getD (Workspace.defaultRoot request.settings.workspaceRoot request.version)

def mappingKind (request : Request) : String :=
  let kind := request.mappings.getD ""
  if kind.isEmpty then request.settings.mappings else kind

def provider (request : Request) : Except Fault MappingProvider :=
  MappingProvider.ofKind request.mappingKind request.settings.fabricMetaUrl
    request.settings.fabricMavenUrl

end Request

namespace Request

def workspaceOf (request : Request) : Workspace :=
  ⟨request.workspaceRoot⟩

def notes (request : Request) : Json.Fields :=
  [("side", .text request.settings.side)]

end Request

/-- What has to hold before a run: the check comes first, then the workspace. -/
def enter (check : Settings → Action Unit) (request : Request) : Action MappingProvider := do
  check request.settings
  request.workspaceOf.prepare
  Action.ofResult request.provider

/-- Runs the seven stages. -/
def run (check : Settings → Action Unit) (request : Request) : Action RunOutcome := do
  let provider ← enter check request
  runStages Stage.all request.workspaceOf request.runId request.version request.settings provider
    request.notes

end Pipeline

end JarRefinery
