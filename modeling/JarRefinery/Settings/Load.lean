import JarRefinery.Settings.Basic
import JarRefinery.Settings.Dotenv
import JarRefinery.TextFile

/-!
Where settings come from: values given directly, then the environment, then the file `.env` of the
current directory. The names of variables are those of the settings behind a common beginning, in
either case. Variables that hold lists are written in JSON.
-/
namespace JarRefinery.Settings

def variableStart : String := "mc_decompile_"

def listFields : List String := ["remapper_args", "decompiler_args"]

/-- ASCII letters in lower case. -/
def foldCase (name : String) : String :=
  String.ofList (name.toList.map Char.toLower)

/-- A fault of reading the list in a variable. -/
def listFault (field source : String) (cause : Json.ReadError) : Fault :=
  .because (.of .settingsError ("error parsing value for field \"" ++ field ++
    "\" from source \"" ++ source ++ "\"")) (.json cause)

/-- The value of a field as its variable gives it; null counts as nothing. -/
def fieldValue (source field : String) (value : String) : Except Fault (Option Json) :=
  if listFields.contains field then
    match Json.readString value with
    | .ok .null => .ok none
    | .ok json => .ok (some json)
    | .error e => .error (listFault field source e)
  else .ok (some (.text value))

/-- The fields that variables give a value to; of variables with one name the last counts. -/
def ofVariables (source : String) (given : List (String × Option String)) :
    Except Fault Json.Fields := do
  let folded := (given.map fun (name, value) => (foldCase name, value)).reverse
  let fields ← fieldNames.mapM fun field => do
    match folded.lookup (variableStart ++ field) with
    | some (some value) =>
      let value ← fieldValue source field value
      pure (value.toList.map fun value => (field, value))
    | _ => pure []
  pure fields.flatten

def dotenvPath : Path := Path.ofString ".env"

/-- The variables of the file `.env`, if there is one. -/
def dotenvVariables (environment : List (String × String)) :
    Action (List (String × Option String)) := do
  if ← Action.onFiles (FileTree.isFile dotenvPath) then
    return Dotenv.parse environment (← TextFile.read dotenvPath)
  return []

/-- The settings with these values given directly. The file is read before any variable is looked
at. -/
def load (given : Json.Fields) : Action Settings := do
  let environment := (← read).environment
  let dotenv ← dotenvVariables environment
  let fromEnvironment ← Action.ofResult (ofVariables "EnvSettingsSource"
    (environment.map fun (name, value) => (name, some value)))
  let fromFile ← Action.ofResult (ofVariables "DotEnvSettingsSource" dotenv)
  let fields := (Json.Fields.update fromFile fromEnvironment).update given
  Action.ofExcept .schema (ofFields fields)

end JarRefinery.Settings
