import JarRefinery.Settings.Basic

/-!
The check that comes before a run: the java executable and the two jars must be there. It asks for
nothing and changes nothing.
-/
namespace JarRefinery.Tool

/-- Whether the last step of a path can only be to a directory. -/
def endsInDirectory (text : String) : Bool :=
  let last := (Text.split '/' text).getLastD ""
  last.isEmpty || last == "."

/-- Whether the file at this path may be executed. -/
def isExecutable (text : String) : Action Bool := do
  if endsInDirectory text then return false
  else
    match ← Action.outcome (Action.onFiles (FileTree.find? (Path.ofString text))) with
    | .ok (some (.file _ mode)) => return mode % 0o1000 &&& 0o111 != 0
    | _ => return false

/-- Whether `command` names an executable. A name with a slash is a path, any other name is looked
up in the directories of the search path. -/
def isOnPath (command : String) : Action Bool := do
  if command.toList.contains '/' then isExecutable command
  else (← read).searchPath.anyM fun directory =>
    isExecutable (if directory.isEmpty then command else directory ++ "/" ++ command)

/-- What is told of a jar that is not there. -/
def missingJar (label : String) (jar : Path) : Action (List String) := do
  if ← Action.onFiles (FileTree.isFile jar) then return []
  else return [label ++ " jar not found at " ++ jar.toString]

/-- Everything that is missing is told of in one fault. -/
def checkTools (settings : Settings) : Action Unit := do
  let java ← do
    if ← isOnPath settings.javaBin then pure []
    else pure ["java executable " ++ Text.quote settings.javaBin ++ " not found on PATH"]
  let remapper ← missingJar "remapper" settings.remapperJar
  let decompiler ← missingJar "decompiler" settings.decompilerJar
  let missing := java ++ remapper ++ decompiler
  Action.refuse (!missing.isEmpty) (.of .toolMissing ("; ".intercalate missing ++
    " (run \x60mc-decompile fetch-tools\x60 to download the jars)"))

end JarRefinery.Tool
