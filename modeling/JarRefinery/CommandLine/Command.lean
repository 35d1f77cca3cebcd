import JarRefinery.CommandLine.Grammar
import JarRefinery.Settings.Basic
import JarRefinery.Tool.Published

/-!
The commands: `run` takes a version through all stages, `fetch-tools` downloads the tools that this
needs.
-/
namespace JarRefinery.CommandLine

structure RunArguments where
  version : String
  workspace : Option Path
  mappings : Option String
  side : Option String
deriving DecidableEq, Repr

inductive Command where
  | run (arguments : RunArguments)
  | fetchTools (tool : String)
deriving DecidableEq, Repr

namespace Command

def program : String := "mc-decompile"

def helpSwitch : Switch := ⟨["-h", "--help"], true, none⟩

def valueSwitch (name : String) (choices : Option (List String)) : Switch :=
  ⟨[name], false, choices⟩

def mainGrammar : Grammar :=
  ⟨program, [helpSwitch], some (.command "cmd" ["run", "fetch-tools"])⟩

def runGrammar : Grammar :=
  ⟨program ++ " run", [helpSwitch, valueSwitch "--workspace" none,
    valueSwitch "--mappings" (some Settings.mappingKinds),
    valueSwitch "--side" (some Settings.sides)], some (.value "version")⟩

/-- The word for all tools. -/
def allTools : String := "all"

def fetchGrammar : Grammar :=
  ⟨program ++ " fetch-tools", [helpSwitch,
    valueSwitch "--tool" (some (PublishedTool.all.map (·.name) ++ [allTools]))], none⟩

def ofRunValues (values : Values) : Except Exit Command := do
  let arguments ← runGrammar.required values
  pure (.run ⟨arguments.headD "", (values.last? "--workspace").map Path.ofString,
    values.last? "--mappings", values.last? "--side"⟩)

/-- The command that the arguments after its name give, and those not recognized. -/
def ofArguments (name : String) (texts : List String) : Except Exit (Command × List String) := do
  if name = "run" then
    let values ← runGrammar.read texts
    pure (← ofRunValues values, values.unknown)
  else
    let values ← fetchGrammar.read texts
    pure (.fetchTools ((values.last? "--tool").getD allTools), values.unknown)

/-- The command of a command line, in which everything must be recognized. -/
def parse (texts : List String) : Except Exit Command := do
  let values ← mainGrammar.read texts
  let arguments ← mainGrammar.required values
  let (command, unknown) ← ofArguments (arguments.headD "") arguments.tail
  let unknown := values.unknown ++ unknown
  if unknown.isEmpty then return command
  mainGrammar.refuse ("unrecognized arguments: " ++ " ".intercalate unknown)

end Command

end JarRefinery.CommandLine
