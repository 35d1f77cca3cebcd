import JarRefinery.Fault
import JarRefinery.Log
import JarRefinery.RunState

/-!
What an operation works in. The host is what stays the same: how the network and the external tools
behave, the environment, the clock. The world is what operations change: the files, what the stages
of the run hand on, and the record of what was asked of network and tools. An operation ends with a
value or a fault, and leaves a world in both cases.
-/
namespace JarRefinery

/-- How an address answers. A body may break off: then `fault` follows its bytes. -/
inductive Reply where
  | response (status : Nat) (location : Option String) (body : Bytes) (fault : Option Fault)
  | failure (fault : Fault)
deriving DecidableEq, Repr

/-- A length of time in seconds, as it was given. -/
inductive Seconds where
  | whole (n : Int)
  | fractional (x : Binary64)
deriving DecidableEq, Repr

/-- A call of an external tool. -/
structure ToolCall where
  argv : List String
  directory : Option Path
  timeout : Option Seconds
deriving DecidableEq, Repr

/-- How a call of an external tool ended. -/
structure ToolResult where
  argv : List String
  status : Int
  output : String
  errors : String
  milliseconds : Int
deriving DecidableEq, Repr

/-- The behaviour of what lies outside. The network is told the addresses asked for before, the
tools the calls made before and the files as they are. -/
structure Host where
  network : List String → String → Reply
  tools : List ToolCall → ToolCall → FileTree → ToolResult × FileTree
  environment : List (String × String)
  searchPath : List String
  clock : String
  hostName : String
  processId : Nat
  freshId : String

structure World where
  files : FileTree
  requests : List String := []
  waits : List Nat := []
  calls : List ToolCall := []
  log : List LogRecord := []
  state : RunState := {}

abbrev Action := ReaderT Host (ExceptT Fault (StateM World))

namespace Action

variable {α : Type}

/-- An operation on the files of the world. -/
def onFiles (operation : FileTree.Action α) : Action α := do
  let world ← get
  let (result, files) := operation.run world.files
  set { world with files }
  match result with
  | .ok a => pure a
  | .error e => throw (.ofFile e)

/-- Lets `handler` take over where `action` ends with a fault that it answers. -/
def handle (answers : Fault → Bool) (handler : Fault → Action α) (action : Action α) : Action α :=
  tryCatch action fun fault => if answers fault then handler fault else throw fault

/-- Faults that `answers` holds of become the cause of another one. -/
def explain (answers : Fault → Bool) (outer : Fault → Fault) (action : Action α) : Action α :=
  action.handle answers fun fault => throw (.because (outer fault) fault)

/-- How `action` ends, as a value. -/
def outcome (action : Action α) : Action (Except Fault α) :=
  tryCatch (Except.ok <$> action) fun fault => pure (.error fault)

/-- Runs `action` and discards the file at `path` whichever way it ends. -/
def discarding (path : Path) (action : Action α) : Action α := do
  let result ← outcome action
  onFiles (FileTree.discard path)
  match result with
  | .ok a => pure a
  | .error fault => throw fault

/-- Ends with a fault if something is so. -/
def refuse (so : Bool) (fault : Fault) : Action Unit :=
  if so then throw fault else pure ()

def ofExcept {ε : Type} (fault : ε → Fault) : Except ε α → Action α
  | .ok a => pure a
  | .error e => throw (fault e)

/-- Goes on with a value or ends with a fault. -/
def ofResult : Except Fault α → Action α :=
  ofExcept fun fault => fault

/-- Makes a file beside `path` for `use` to fill; it is gone when `use` ends. -/
def withSibling (path : Path) (use : Path → Action α) : Action α := do
  let sibling ← onFiles (FileTree.newSibling path)
  discarding sibling (use sibling)

/-- Moves the file at `sibling` to `target` once `fill` has filled it. -/
def moving (sibling target : Path) (fill : Action α) : Action α := do
  let value ← fill
  onFiles (FileTree.rename sibling target)
  pure value

end Action

end JarRefinery
