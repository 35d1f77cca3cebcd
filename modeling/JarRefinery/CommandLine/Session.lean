import JarRefinery.CommandLine.Command
import JarRefinery.Pipeline
import JarRefinery.Settings.Load

/-!
A session of the command line: what a command writes and which status it ends with. Refused commands
and unmet preconditions end with 2, failed stages and failed downloads with 1.
-/
namespace JarRefinery.CommandLine

/-- What a session has written, line by line, and its exit status. -/
structure Session where
  exitCode : Nat
  output : List String := []
  errors : List String := []
deriving DecidableEq, Repr

namespace Session

/-- Characters that only move about on a terminal. -/
def movements : List Char := ['\x07', '\x08', '\x0b', '\x0c', '\r']

/-- What moves about on a terminal is not written. -/
def isShown (c : Char) : Bool :=
  !movements.contains c

def written (text : String) : List String :=
  (String.ofList (text.toList.filter isShown)).splitOn "\n"

def errorLines (text : String) : List String :=
  written ("error: " ++ text)

/-- The line for a fault that keeps a command from its work. -/
def faultLines (fault : Fault) : List String :=
  errorLines (fault.stage?.getD "" ++ ": " ++ fault.kind.name ++ ": " ++ fault.message)

/-- What stands above a run. -/
def banner (runId version mappings side : String) : List String :=
  "Run" :: written ("mc-decompile - run\nrun_id=" ++ runId ++ "\nversion=" ++ version ++
    "\nmappings=" ++ mappings ++ "\nside=" ++ side)

/-- The rows of a table; cells are separated by blanks. -/
def table (title : String) (rows : List (List String)) : List String :=
  title :: rows.flatMap fun cells => written (" ".intercalate cells)

def resultRows (outcome : RunOutcome) : List (List String) :=
  let status := if outcome.exitCode = 0 then "ok" else "failed"
  let stages := outcome.report.stages.map fun result => [result.stage, result.status.word]
  let mapped := outcome.state.mapped.toList.map fun artifact => ["namespace", artifact.space]
  let sources := outcome.state.sourcesDirectory.toList.map fun path => ["sources", path.toString]
  let report := Pipeline.reportPath outcome.run.workspace outcome.report.runId
  ["status", status] :: stages ++ mapped ++ sources ++ [["report", report.toString]]

def failureLines (report : RunReport) : List String :=
  match report.failedStage? with
  | none => []
  | some failed =>
    let told := match failed.error with
      | none => "Error: unknown error"
      | some error => error.kind ++ ": " ++ error.message
    errorLines ("stage '" ++ failed.stage ++ "' failed: " ++ told)

def ofOutcome (above : List String) (outcome : RunOutcome) : Session :=
  let failure := failureLines outcome.report
  ⟨if failure.isEmpty then 0 else 1, above ++ table "Result" (resultRows outcome), failure⟩

/-- How a run or its refusal ends a session. Faults that are none of the run's own are thrown. -/
def run (arguments : RunArguments) (settings : Settings) : Action Session := do
  let side := arguments.side.getD ""
  let settings := if side.isEmpty then settings else { settings with side }
  let mappings := arguments.mappings.getD settings.mappings
  let runId := (← read).freshId
  let above := banner runId arguments.version mappings settings.side
  let request : Pipeline.Request :=
    { version := arguments.version, settings, workspace := arguments.workspace,
      mappings := some mappings, runId }
  Action.handle (·.isA .pipelineError)
    (fun fault => pure ⟨2, above, faultLines fault⟩)
    (ofOutcome above <$> Pipeline.run Tool.checkTools request)

/-- Fetches tools one after the other, up to the first that fails. -/
def fetchTools (tool : String) (settings : Settings) : Action Session := do
  let tools := PublishedTool.all.filter fun published =>
    tool = Command.allTools || published.name = tool
  Action.handle (·.isA .pipelineError)
    (fun fault => pure ⟨1, [], faultLines fault⟩)
    do
      let rows ← tools.mapM fun published => do
        let (version, target) ← published.fetch settings
        pure [published.name, version, target.toString]
      pure ⟨0, table "Tools" (["tool", "version", "path"] :: rows), []⟩

/-- A session for arguments that were refused or ask for help. -/
def ofExit (exit : Exit) : Session :=
  ⟨exit.code, [], if exit.text.isEmpty then [] else exit.text.splitOn "\n"⟩

/-- Carries a command out, with the settings of its environment. -/
def carryOut (command : Command) : Action Session := do
  let settings ← Settings.load []
  let _ ← Action.ofResult (Log.threshold settings.logLevel)
  match command with
  | .fetchTools tool => fetchTools tool settings
  | .run arguments => run arguments settings

/-- The session of a command line. -/
def ofArguments (texts : List String) : Action Session :=
  match Command.parse texts with
  | .ok command => carryOut command
  | .error exit => pure (ofExit exit)

end Session

end JarRefinery.CommandLine
