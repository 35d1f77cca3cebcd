import JarRefinery.FileTree
import JarRefinery.Text.Utf8

/-!
Jobs: what a running program works in, and how it ends. A job writes to two channels, which may lead
elsewhere, and has a limit of time if one was set. Nothing but waiting takes time.
-/
namespace JarRefinery.Machine

/-- Where a channel leads. -/
inductive Sink where
  | output
  | errors
  | captured
  | file (location : Location)
  | nowhere
deriving DecidableEq, Repr

inductive Ending where
  | exited (status : Nat)
  | killed (signal : Nat)
  /-- It was still running when its time was over. -/
  | late
deriving DecidableEq, Repr

/-- `arguments` begins with the name that the job was started by. -/
structure Job where
  files : FileTree
  /-- In microseconds. -/
  limit : Option Int
  elapsed : Nat := 0
  sinks : Sink × Sink := (.output, .errors)
  output : Bytes := []
  errors : Bytes := []
  captured : Bytes := []
  input : Bytes := []
  arguments : List String := []
  values : List (String × String) := []
  status : Nat := 0

/-- Steps of a job, which may end it. -/
abbrev Running := ExceptT Ending (StateM Job)

namespace Running

def writeTo (sink : Sink) (bytes : Bytes) : Running Unit :=
  modify fun job =>
    match sink with
    | .nowhere => job
    | .output => { job with output := job.output ++ bytes }
    | .errors => { job with errors := job.errors ++ bytes }
    | .captured => { job with captured := job.captured ++ bytes }
    | .file location =>
      match job.files.node? location with
      | some (.file before mode) =>
        { job with files := job.files.put location (.file (before ++ bytes) mode) }
      | _ => job

def write (bytes : Bytes) : Running Unit := do
  writeTo (← get).sinks.1 bytes

def print (text : String) : Running Unit :=
  write (Text.Utf8.encode text)

def complain (text : String) : Running Unit := do
  writeTo (← get).sinks.2 (Text.Utf8.encode text)

/-- Lets time pass. -/
def wait (microseconds : Nat) : Running Unit := do
  modify fun job => { job with elapsed := job.elapsed + microseconds }
  let job ← get
  match job.limit with
  | some limit => if limit < job.elapsed then throw .late
  | none => pure ()

/-- Some steps with their channels led elsewhere. -/
def redirecting {α : Type} (sinks : Sink × Sink) (steps : Running α) : Running α := do
  let before := (← get).sinks
  modify ({ · with sinks })
  let result ← tryCatch (Except.ok <$> steps) fun ending => pure (.error ending)
  modify ({ · with sinks := before })
  match result with
  | .ok a => pure a
  | .error ending => throw ending

/-- The exit status of steps that may end themselves but not what runs them. -/
def inChild (steps : Running Nat) : Running Nat :=
  tryCatch steps fun
    | .exited status => pure status
    | ending => throw ending

/-- What the steps of a child write. -/
def capturing (steps : Running Nat) : Running (Bytes × Nat) := do
  let before ← get
  set { before with captured := [] }
  let status ← inChild (redirecting (.captured, before.sinks.2) steps)
  let written := (← get).captured
  modify ({ · with captured := before.captured })
  pure (written, status)

/-- A file operation, as a value. -/
def onFiles {α : Type} (operation : FileTree.Action α) : Running (Except FileError α) := do
  let (result, files) := operation.run (← get).files
  modify ({ · with files })
  pure result

end Running

end JarRefinery.Machine
