import JarRefinery.Schema.Checked
import JarRefinery.World

/-!
The settings of a run, and the form that their values must have.
-/
namespace JarRefinery

structure Settings where
  workspaceRoot : Path
  side : String
  mappings : String
  manifestUrl : String
  fabricMetaUrl : String
  fabricMavenUrl : String
  javaBin : String
  toolsDir : Path
  remapperJar : Path
  decompilerJar : Path
  remapperArgs : List String
  decompilerArgs : List String
  toolTimeout : Option Binary64
  httpMaxAttempts : Int
  httpTimeout : Binary64
  libraryWorkers : Int
  logLevel : String
  logFormat : String
deriving DecidableEq, Repr

namespace Settings

def sides : List String := ["server", "client"]
def mappingKinds : List String := ["direct", "chained"]
def logFormats : List String := ["json", "console"]

open Schema

def oneOf (words : List String) : Json → Checked String
  | .text value => if words.contains value then .ok value else Checked.refuse .literalError
  | _ => Checked.refuse .literalError

def path : Json → Checked Path
  | .text value => .ok (Path.ofString value)
  | _ => Checked.refuse .pathType

/-- The jar at its usual place in the tools directory. -/
def usualJar (toolsDir : Path) (tool : String) : Path :=
  toolsDir / tool / (tool ++ ".jar")

/-- The settings that a document of values gives; what it leaves out has a default. -/
def ofFields (fields : Json.Fields) : Checked Settings :=
  (fun workspaceRoot side mappings manifestUrl fabricMetaUrl fabricMavenUrl javaBin toolsDir
      remapperJar decompilerJar remapperArgs decompilerArgs toolTimeout httpMaxAttempts httpTimeout
      libraryWorkers logLevel logFormat =>
    { workspaceRoot, side, mappings, manifestUrl, fabricMetaUrl, fabricMavenUrl, javaBin, toolsDir,
      remapperArgs, decompilerArgs, toolTimeout, httpMaxAttempts, httpTimeout, libraryWorkers,
      logLevel, logFormat
      remapperJar := remapperJar.getD (usualJar toolsDir "tiny-remapper")
      decompilerJar := decompilerJar.getD (usualJar toolsDir "forgeflower") }) <$>
    field "workspace_root" path (Path.ofString "workspaces") fields <*>
    field "side" (oneOf sides) "server" fields <*>
    field "mappings" (oneOf mappingKinds) "direct" fields <*>
    field "manifest_url" text
      "https://piston-meta.mojang.com/mc/game/version_manifest_v2.json" fields <*>
    field "fabric_meta_url" text "https://meta.fabricmc.net" fields <*>
    field "fabric_maven_url" text "https://maven.fabricmc.net" fields <*>
    field "java_bin" text "java" fields <*>
    field "tools_dir" path (Path.ofString "tools") fields <*>
    field "remapper_jar" (optional path) none fields <*>
    field "decompiler_jar" (optional path) none fields <*>
    field "remapper_args" (list text) [] fields <*>
    field "decompiler_args" (list text) [] fields <*>
    field "tool_timeout_s" (optional number) none fields <*>
    field "http_max_attempts" (integerAtLeast 1) 1 fields <*>
    field "http_timeout_s" positiveNumber (.ofInt 60) fields <*>
    field "library_workers" (integerAtLeast 1) 8 fields <*>
    field "log_level" text "INFO" fields <*>
    field "log_format" (oneOf logFormats) "console" fields

def fieldNames : List String := [
  "workspace_root", "side", "mappings", "manifest_url", "fabric_meta_url", "fabric_maven_url",
  "java_bin", "tools_dir", "remapper_jar", "decompiler_jar", "remapper_args", "decompiler_args",
  "tool_timeout_s", "http_max_attempts", "http_timeout_s", "library_workers", "log_level",
  "log_format"]

def toFields (settings : Settings) : Json.Fields := [
  ("workspace_root", .text settings.workspaceRoot.toString), ("side", .text settings.side),
  ("mappings", .text settings.mappings), ("manifest_url", .text settings.manifestUrl),
  ("fabric_meta_url", .text settings.fabricMetaUrl),
  ("fabric_maven_url", .text settings.fabricMavenUrl), ("java_bin", .text settings.javaBin),
  ("tools_dir", .text settings.toolsDir.toString),
  ("remapper_jar", .text settings.remapperJar.toString),
  ("decompiler_jar", .text settings.decompilerJar.toString),
  ("remapper_args", .ofTexts settings.remapperArgs),
  ("decompiler_args", .ofTexts settings.decompilerArgs),
  ("tool_timeout_s", match settings.toolTimeout with | none => .null | some x => .number x),
  ("http_max_attempts", .integer settings.httpMaxAttempts),
  ("http_timeout_s", .number settings.httpTimeout),
  ("library_workers", .integer settings.libraryWorkers), ("log_level", .text settings.logLevel),
  ("log_format", .text settings.logFormat)]

/-- The limit of time for a tool, if there is one. -/
def timeout (settings : Settings) : Option Seconds :=
  settings.toolTimeout.map .fractional

end Settings

end JarRefinery
