import JarRefinery.CommandLine.Session
import JarRefinery.Machine.Call

/-!
The command line as a program: it runs a session on a machine of its own, which no network reaches,
and writes what the session wrote.
-/
namespace JarRefinery.Main

/-- The directory that a session begins in. -/
def workDirectory : Location := ["root", "work"]

/-- No address answers. -/
def unreachable (_ : List String) (_ : String) : Reply :=
  .failure (.of .connectError "network is unreachable")

/-- A call of a tool, which at worst ends with the status of calls that fail. -/
def callTool (_ : List ToolCall) (call : ToolCall) (files : FileTree) : ToolResult × FileTree :=
  match call.argv with
  | [] => (⟨[], Machine.failedStatus, "", "", 0⟩, files)
  | name :: _ => Machine.runIn files call name

def host : Host where
  network := unreachable
  tools := callTool
  environment := []
  searchPath := Machine.searchPath
  clock := "1970-01-01T00:00:00Z"
  hostName := "localhost"
  processId := 1
  freshId := "run"

/-- How a session with these arguments ends. -/
def session (arguments : List String) : Except Fault CommandLine.Session :=
  (((CommandLine.Session.ofArguments arguments).run host).run.run
    { files := Machine.files workDirectory }).1

/-- Writes the lines of a session. -/
def report (session : CommandLine.Session) : IO UInt32 := do
  session.output.forM fun line => IO.println line
  session.errors.forM fun line => IO.eprintln line
  return UInt32.ofNat session.exitCode

end JarRefinery.Main

def main (arguments : List String) : IO UInt32 := do
  match JarRefinery.Main.session arguments with
  | .ok session => JarRefinery.Main.report session
  | .error fault =>
    IO.eprintln (fault.kind.name ++ ": " ++ fault.message)
    return 1
