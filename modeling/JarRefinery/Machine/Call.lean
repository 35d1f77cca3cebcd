import JarRefinery.Machine.Basic
import JarRefinery.Machine.Shell
import JarRefinery.Text.Lines
import JarRefinery.World

/-!
Calls of the programs of the machine. A call that cannot start a program, or takes longer than it
may, has a result too, with a status that no program gives.
-/
namespace JarRefinery.Machine

/-- The status of calls that did not run to an end of their own. -/
def failedStatus : Int := -1

/-- Why the file at a path cannot be executed; nothing if it can be. -/
def obstacle? (text : String) : FileTree.Action (Option ErrorCode) := do
  match (FileTree.stat (Path.ofString text)).run (← get) with
  | (.ok .directory, _) => return some .permissionDenied
  | (.ok (.file _ mode), _) =>
    if text.endsWith "/" then return some .notDirectory
    return if mode &&& 0o111 = 0 then some .permissionDenied else none
  | (.error (.system error), _) => return some error.code
  | (.error .nullByte, _) => return some .noEntry

/-- The files that a name may stand for. -/
def candidates (name : String) : List String :=
  if name.contains '/' then [name] else searchPath.map (· ++ "/" ++ name)

def isAbsence (code : ErrorCode) : Bool :=
  code = .noEntry || code = .notDirectory

/-- Whether one of the files can be executed; if not, the first reason that is no mere absence, or
else the last one. -/
def executable (files : List String) : FileTree.Action (Except ErrorCode Unit) := do
  let found ← files.mapM obstacle?
  if found.contains none then return .ok ()
  let codes := found.filterMap id
  return .error (((codes.find? (!isAbsence ·)) <|> codes.getLast?).getD .noEntry)

/-- Goes into the directory of a call. -/
def enter : Option Path → FileTree.Action Unit
  | none => pure ()
  | some path => do
    match ← FileTree.stat path with
    | .directory => modify fun files => { files with here := path.normal files.here }
    | .file _ _ => FileTree.fail .notDirectory path

/-- The files for a program that can be started. -/
def prepare (call : ToolCall) (name : String) : FileTree.Action Unit := do
  enter call.directory
  match ← executable (candidates name) with
  | .ok () => pure ()
  | .error code => throw (.system ⟨code, some name, none⟩)

def microseconds? : Seconds → Option Int
  | .whole n => some (n * 1000000)
  | .fractional (.finite isNegative mantissa exponent) =>
    let size : Nat :=
      if 0 ≤ exponent then mantissa * Nat.pow 2 exponent.toNat * 1000000
      else mantissa * 1000000 / Nat.pow 2 (-exponent).toNat
    some (if isNegative then -size else size)
  | .fractional _ => none

def secondsText : Seconds → String
  | .whole n => toString n
  | .fractional x => x.toText

/-- How many steps a program may take. -/
def stepLimit : Nat := 100000

def runProgram (name : String) (arguments : List String) : Running Nat :=
  if Shell.isShell name then Shell.start stepLimit name arguments
  else match Shell.programOf? name with
    | some program => program arguments
    | none => pure 0

/-- The result of a job that ended. -/
def resultOf (call : ToolCall) (ended : Except Ending Nat) (job : Job) : ToolResult :=
  let output := Text.Utf8.decodeReplacing job.output
  let errors := Text.Utf8.decodeReplacing job.errors
  let complete (status : Int) : ToolResult :=
    ⟨call.argv, status, Text.withUnifiedLineEnds output, Text.withUnifiedLineEnds errors, 0⟩
  match ended with
  | .ok status => complete status
  | .error (.exited status) => complete status
  | .error (.killed signal) => complete (-signal)
  | .error .late =>
    let time := (call.timeout.map secondsText).getD ""
    ⟨call.argv, failedStatus, output, errors ++ "\ntimed out after " ++ time ++ "s", 0⟩

/-- Runs a program to its end. -/
def runIn (files : FileTree) (call : ToolCall) (name : String) : ToolResult × FileTree :=
  let limit := call.timeout.bind microseconds?
  let start : Job := { files, limit, arguments := call.argv }
  let steps : Running Nat :=
    if limit.getD 1 ≤ 0 then throw .late else runProgram name call.argv.tail
  let (ended, job) := steps.run.run start
  (resultOf call ended job, job.files)

/-- Calls a program. Only a call without a name, or with a zero character in it, has no result. -/
def call (call : ToolCall) : Action ToolResult := do
  match call.argv with
  | [] => throw (.of .indexError "list index out of range")
  | name :: _ =>
    if call.argv.any (·.contains '\x00') then throw .nullByte
    let world ← get
    match (prepare call name).run world.files with
    | (.error .nullByte, _) => throw .nullByte
    | (.error (.system error), _) => return ⟨call.argv, failedStatus, "", error.message, 0⟩
    | (.ok (), files) =>
      let (result, files) := runIn files call name
      set { world with files := { files with here := world.files.here } }
      return result

end JarRefinery.Machine
