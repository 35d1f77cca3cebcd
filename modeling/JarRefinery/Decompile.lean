import JarRefinery.Artifact
import JarRefinery.Tool.Call

/-!
Decompiling: the decompiler writes sources for a jar into a directory. Only its exit status is
looked at, not what it wrote.
-/
namespace JarRefinery

/-- The decompiler and how it is called. -/
structure Decompiler where
  java : String
  jar : Path
  arguments : List String
  timeout : Option Seconds
deriving DecidableEq, Repr

namespace Decompiler

def argv (decompiler : Decompiler) (input output : Path) : List String :=
  Tool.javaArgv decompiler.java [] decompiler.jar
    (decompiler.arguments ++ [input.toString, output.toString])

def decompile (decompiler : Decompiler) (artifact : Artifact) (directory : Path) :
    Action ToolResult := do
  Action.onFiles (FileTree.ensureDirectories directory)
  let result ← Tool.call ⟨decompiler.argv artifact.path directory, none, decompiler.timeout⟩
  Action.refuse (!result.isOk) (.of .decompileFailure
    ("Decompiler exited with " ++ toString result.status ++ " on " ++
      artifact.path.name ++ ": " ++ result.shown))
  pure result

end Decompiler

end JarRefinery
