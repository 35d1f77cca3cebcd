import JarRefinery.Mapping.Container
import JarRefinery.Mapping.Coordinate
import JarRefinery.Mapping.Publication
import JarRefinery.Run

/-!
Providing the mapping sets of a run.

* The direct provider downloads the one table that is published with the version.
* The chained provider needs a mapping to intermediary names and goes on to readable names if there
  is a mapping to them: that this second layer does not exist is an event, while every other failure
  to get it ends the run.
-/
namespace JarRefinery.MappingProvider

/-- The table published with a version. -/
def provideDirect (run : Run) (metadata : VersionMetadata) (stripped : Artifact) :
    Action (List MappingSet) := do
  match metadata.mappingsDownload run.side with
  | none => throw (.of .mappingUnavailable
      ("Version " ++ metadata.id ++ " publishes no " ++ run.side ++ " mappings"))
  | some download =>
    let target := run.workspace.mapping
      (run.side ++ "-" ++ stripped.space ++ "-" ++ namedNamespace ++ ".txt")
    let _ ← Action.explain (·.isA .httpFetchError)
      (fun fault => .of .mappingUnavailable
        ("Cannot download " ++ run.side ++ " mappings: " ++ fault.message))
      (Http.download run.maxAttempts download.url target)
    pure [{ name := namedNamespace, path := target, source := stripped.space,
            target := namedNamespace, encoding := .plain }]

/-- The services of the chained provider. -/
structure Chained where
  metaUrl : String
  mavenUrl : String
  maxAttempts : Int
deriving DecidableEq, Repr

namespace Chained

/-- An address without the slashes at its end. -/
def base (url : String) : String :=
  Text.stripEnd (· == '/') url

def releasesUrl (chained : Chained) (layer version : String) : String :=
  base chained.metaUrl ++ "/v2/versions/" ++ layer ++ "/" ++ version

/-- The releases of a layer for a version; faults of getting or reading the list are explained. -/
def releases (chained : Chained) (layer version doing : String) : Action (List MappingRelease) :=
  Action.explain (·.isAny [.httpFetchError, .valueError])
    (fun fault => .of .mappingUnavailable (doing ++ ": " ++ fault.message))
    (MappingRelease.fetchAll chained.maxAttempts (chained.releasesUrl layer version))

/-- The address of a published file. -/
def fileUrl (chained : Chained) (coordinate classifier extension : String) :
    Except Fault String := do
  let coordinate ← Coordinate.parse coordinate
  pure (base chained.mavenUrl ++ "/" ++ coordinate.path classifier extension)

/-- Where archives of mappings keep the document. -/
def documentEntry : String := "mappings/mappings.tiny"

/-- The first release of the layer that is required. -/
def intermediaryRelease (chained : Chained) (version : String) : Action MappingRelease := do
  match ← chained.releases "intermediary" version "Cannot query intermediary releases" with
  | release :: _ => pure release
  | [] => throw (.of .mappingUnavailable ("No intermediary release for " ++ version))

/-- Gets the document out of the archive that is published beside it. -/
def fetchFromArchive (chained : Chained) (release : MappingRelease) (workspace : Workspace)
    (target : Path) : Action Unit := do
  let container := workspace.mapping ("intermediary-" ++ release.version ++ "-v2.jar")
  let url ← Action.ofResult (chained.fileUrl release.coordinate "v2" "jar")
  let _ ← Action.explain (·.isA .httpFetchError)
    (fun fault => .of .mappingUnavailable
      ("Intermediary mappings missing as .tiny and as " ++ url ++ ": " ++ fault.message))
    (Http.download chained.maxAttempts url container)
  let _ ← Mapping.extractEntry container documentEntry target

/-- The required layer, as a document of its own or else out of an archive. -/
def fetchIntermediary (chained : Chained) (release : MappingRelease) (workspace : Workspace)
    (space : String) : Action MappingSet := do
  let target := workspace.mapping ("intermediary-" ++ release.version ++ ".tiny")
  let url ← Action.ofResult (chained.fileUrl release.coordinate "" "tiny")
  let loaded ← Action.handle (·.isA .httpFetchError) (fun fault => pure (.error fault))
    (Except.ok <$> Http.download chained.maxAttempts url target)
  match loaded with
  | .ok _ => pure ()
  | .error fault =>
    Action.refuse (!fault.isNotFound) (.because (.of .mappingUnavailable
      ("Cannot download intermediary mappings: " ++ fault.message)) fault)
    chained.fetchFromArchive release workspace target
  pure { name := intermediaryNamespace, path := target, source := space,
         target := intermediaryNamespace, encoding := .tiny }

/-- The layer of readable names, still compressed, or the fault that tells that there is none. All
other faults are thrown. -/
def fetchNamed (chained : Chained) (workspace : Workspace) (version : String) :
    Action (Except Fault MappingSet) := do
  let releases ← chained.releases "yarn" version "Cannot query named mapping releases"
  match MappingRelease.newest? releases with
  | none => return .error (.of .mappingUnavailable ("No named mapping release for " ++ version))
  | some release =>
    let target := workspace.mapping ("yarn-" ++ release.version ++ ".tiny.gz")
    let url ← Action.ofResult (chained.fileUrl release.coordinate "tiny" "gz")
    let loaded ← Action.handle (·.isA .httpFetchError) (fun fault => pure (.error fault))
      (Except.ok <$> Http.download chained.maxAttempts url target)
    match loaded with
    | .ok _ => return .ok { name := namedNamespace, path := target,
                            source := intermediaryNamespace, target := namedNamespace,
                            encoding := .tiny, needsHeader := true }
    | .error fault =>
      Action.refuse (!fault.isNotFound) (.because (.of .mappingUnavailable
        ("Cannot download named mappings from " ++ url ++ ": " ++ fault.message)) fault)
      return .error (.of .mappingUnavailable ("Named mappings not published at " ++ url))

/-- The name without the suffix of compressed files. -/
def plainName (name : String) : String :=
  if Text.endsWith ".gz" name then String.ofList (name.toList.take (name.length - 3)) else name

/-- Decompresses the document of a set beside it. -/
def decompressed (workspace : Workspace) (set : MappingSet) : Action MappingSet := do
  let target := workspace.mapping (plainName set.path.name)
  let _ ← Mapping.gunzip set.path target
  pure { set with path := target }

end Chained

/-- One mapping or two that follow one another. -/
def provideChained (chained : Chained) (run : Run) (stripped : Artifact) :
    Action (List MappingSet) := do
  let release ← chained.intermediaryRelease run.version
  let first ← chained.fetchIntermediary release run.workspace stripped.space
  match ← chained.fetchNamed run.workspace run.version with
  | .error fault =>
    run.emit "mappings" "mappings.layer.missing"
      [("layer", .text namedNamespace), ("message", .text fault.message)]
    pure [first]
  | .ok second =>
    let second ← Chained.decompressed run.workspace second
    pure [first, second]

/-- The mapping sets of a run. -/
def provide (run : Run) : Action (List MappingSet) := do
  let state ← Run.handed
  match run.provider, state.metadata, state.stripped with
  | direct, some metadata, some stripped => provideDirect run metadata stripped
  | direct, _, _ =>
    throw (.value "direct mappings need resolved metadata and a stripped artifact")
  | chained metaUrl mavenUrl, _, some stripped =>
    provideChained ⟨metaUrl, mavenUrl, run.maxAttempts⟩ run stripped
  | chained _ _, _, none => throw (.value "chained mappings need a stripped artifact")
  | fixed _ sets, _, _ => Action.ofResult sets

end JarRefinery.MappingProvider
