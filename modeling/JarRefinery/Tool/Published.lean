import JarRefinery.Http.Client
import JarRefinery.Settings.Basic
import JarRefinery.Xml.Document

/-!
Tools that are published in a repository: where their metadata and their jars are, which of their
versions is the one to use, and how they are fetched.
-/
namespace JarRefinery

/-- A published tool and the place that the settings keep its jar at. -/
structure PublishedTool where
  name : String
  repository : String
  groupPath : String
  artifact : String
  /-- Empty if the jar has none. -/
  classifier : String
  target : Settings → Path

namespace PublishedTool

def baseUrl (tool : PublishedTool) : String :=
  Text.stripEnd (· == '/') tool.repository ++ "/" ++ tool.groupPath ++ "/" ++ tool.artifact

def metadataUrl (tool : PublishedTool) : String :=
  tool.baseUrl ++ "/maven-metadata.xml"

def jarUrl (tool : PublishedTool) (version : String) : String :=
  let ending := if tool.classifier.isEmpty then "" else "-" ++ tool.classifier
  tool.baseUrl ++ "/" ++ version ++ "/" ++ tool.artifact ++ "-" ++ version ++ ending ++ ".jar"

def decompiler : PublishedTool :=
  ⟨"forgeflower", "https://maven.minecraftforge.net", "net/minecraftforge", "forgeflower", "",
    Settings.decompilerJar⟩

def remapper : PublishedTool :=
  ⟨"tiny-remapper", "https://maven.fabricmc.net", "net/fabricmc", "tiny-remapper", "fat",
    Settings.remapperJar⟩

/-- The tools that can be fetched, by name. -/
def all : List PublishedTool := [decompiler, remapper]

/-- The version to use: the release, else the latest, else the last one listed. -/
def chooseVersion (root : Xml.Element) : Option String :=
  let first (name : String) : String :=
    Text.strip ((root.firstText? ["versioning", name]).getD "")
  let listed := (root.texts ["versioning", "versions", "version"]).map Text.strip
  (first "release" :: first "latest" :: listed.reverse).find? (!·.isEmpty)

/-- The version to use, as the metadata of a tool tells. -/
def latestVersion (metadata : String) : Except Fault String :=
  match Xml.Document.ofString metadata with
  | .error flaw =>
    let fault : Fault := .markup flaw
    .error (.because (.of .toolFetchError ("Invalid maven-metadata.xml: " ++ fault.message)) fault)
  | .ok root =>
    match chooseVersion root with
    | some version => .ok version
    | none => .error (.of .toolFetchError "maven-metadata.xml lists no versions")

/-- Downloads the jar of the version to use: the version, and where the jar is. -/
def fetch (tool : PublishedTool) (settings : Settings) : Action (String × Path) := do
  let target := tool.target settings
  let version ← Action.explain (·.isAny [.httpFetchError, .osError])
    (fun fault => .of .toolFetchError (tool.name ++ ": " ++ fault.message))
    do
      let metadata ← Http.getText settings.httpMaxAttempts tool.metadataUrl
      let version ← Action.ofResult (latestVersion metadata)
      let _ ← Http.download settings.httpMaxAttempts (tool.jarUrl version) target
      pure version
  pure (version, target)

end PublishedTool

end JarRefinery
