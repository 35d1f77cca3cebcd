import JarRefinery.Text.Lines
import JarRefinery.World

/-!
Calls of external tools. A call is recorded and the tool may change the files, though not where the
program itself stands among them; that it ends badly is part of its result.
-/
namespace JarRefinery

namespace ToolResult

def isOk (result : ToolResult) : Bool :=
  result.status == 0

/-- The last `count` lines of all that the tool wrote. -/
def tail (count : Int) (result : ToolResult) : String :=
  let written := [result.output, result.errors].filter (!·.isEmpty)
  "\n".intercalate (Text.lastLines count ("\n".intercalate written))

/-- How many lines of a tool's output a fault shows. -/
def shownLines : Int := 20

/-- The end of the output, as faults show it. -/
def shown (result : ToolResult) : String :=
  result.tail shownLines

end ToolResult

namespace Tool

/-- The arguments that run a jar: the options stand before it, its own arguments after it. -/
def javaArgv (java : String) (options : List String) (jar : Path) (arguments : List String) :
    List String :=
  java :: options ++ ["-jar", jar.toString] ++ arguments

def call (toolCall : ToolCall) : Action ToolResult := do
  let host ← read
  let world ← get
  let (result, files) := host.tools world.calls toolCall world.files
  set { world with
    files := { files with here := world.files.here }, calls := world.calls ++ [toolCall] }
  pure result

end Tool

end JarRefinery
