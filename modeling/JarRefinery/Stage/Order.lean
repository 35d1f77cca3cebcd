import JarRefinery.Decompile
import JarRefinery.Mapping.Header
import JarRefinery.Mapping.Provide
import JarRefinery.Package
import JarRefinery.Release.Fetch
import JarRefinery.Remap
import JarRefinery.Stage.Basic
import JarRefinery.Strip

/-!
The seven stages of a run, in their order:

* resolve finds the metadata of the version,
* fetch downloads its jar and libraries,
* unpack takes the payload out of a bundle,
* sanitize strips the payload of its reserved entries,
* mappings provides the chain of mapping sets,
* remap makes one pass for each of them,
* decompile writes the sources of the last output.

A stage needs what earlier stages handed on.
-/
namespace JarRefinery.Stage

def jarType : Option String := some "application/java-archive"
def textType : Option String := some "text/plain"

def source (run : Run) : ReleaseSource :=
  ⟨run.settings.manifestUrl, run.maxAttempts⟩

/-- The names of the downloads of a version, sorted. -/
def downloadNames (metadata : VersionMetadata) : Json :=
  .ofTexts ((metadata.downloads.map (·.1)).mergeSort)

def resolve (run : Run) : Action StageOutput := do
  let entry ← (source run).entry run.version
  let metadata ← (source run).metadata entry
  Run.hand ({ · with metadata := some metadata })
  let found : Json.Fields := [("version", .text metadata.id), ("metadata_url", .text entry.url),
    ("downloads", downloadNames metadata)]
  let libraries : Json.Fields := [("libraries", .ofNat metadata.dependencies.length)]
  run.emit "resolve" "resolve.finish" (found ++ libraries)
  pure { outputs := found, metrics := libraries }

/-- Tells of a library that was there or could not be had. -/
def announceLibrary (run : Run) (library : LibraryFetch) : Action Unit := do
  let name : Json := .text library.dependency.name
  if library.status = .present then
    run.emit "fetch" "fetch.library.skip" [("library", name)]
  match library.warning with
  | none => pure ()
  | some warning =>
    run.emit "fetch" "fetch.library.failed" [("library", name), ("message", .text warning)]

/-- How many of the libraries ended in each way. -/
def libraryCounts (libraries : List LibraryFetch) : Json.Fields :=
  [LibraryStatus.downloaded, .present, .failed].map fun status =>
    ("libraries_" ++ status.name, .ofNat (libraries.countP (·.status = status)))

def fetch (run : Run) : Action StageOutput := do
  match (← Run.handed).metadata with
  | none => throw (.value "stage_fetch requires resolved version metadata")
  | some metadata =>
    let fetched ← Release.fetchPrimary run.maxAttempts metadata run.side run.workspace
    let primary ← Action.ofResult fetched
    Run.hand ({ · with primary := some primary })
    let ref ← run.recordArtifact "fetch" jarType primary.path
    let libraries ←
      Release.fetchLibraries run.maxAttempts run.workspace metadata.dependencies
    libraries.forM (announceLibrary run)
    pure { outputs := [("primary", .text ref.path)], metrics := libraryCounts libraries,
           warnings := libraries.filterMap (·.warning), artifacts := [ref] }

def unpack (run : Run) : Action StageOutput := do
  match (← Run.handed).primary with
  | none => throw (.value "stage_unpack requires a fetched primary artifact")
  | some primary =>
    let (payload, bundled) ←
      Package.inspect run.settings.javaBin run.settings.timeout run.workspace primary
    Run.hand ({ · with payload := some payload })
    let path : Json := .text payload.path.toString
    let artifacts ←
      if bundled then do
        run.emit "unpack" "unpack.detected" [("payload", path)]
        pure [← run.recordArtifact "unpack" none payload.path]
      else pure []
    pure { outputs := [("bundled", .bool bundled), ("payload", path)], artifacts }

def sanitize (run : Run) : Action StageOutput := do
  match (← Run.handed).payload with
  | none => throw (.value "stage_sanitize requires a payload artifact")
  | some payload =>
    let (stripped, kept, dropped) ← Strip.artifact payload (run.workspace.stripped run.side)
    Run.hand ({ · with stripped := some stripped })
    let ref ← run.recordArtifact "sanitize" jarType stripped.path
    pure { outputs := [("stripped", .text ref.path)], artifacts := [ref],
           metrics := [("entries_kept", .ofNat kept), ("entries_dropped", .ofNat dropped)] }

/-- A set whose document has its header line; the document with it stands beside the one without. -/
def normalized (set : MappingSet) : Action MappingSet := do
  if set.needsHeader then
    let target := set.path.withName (set.path.stem ++ "-normalized" ++ set.path.suffix)
    let _ ← Mapping.normalizeFile set.source set.target set.path target
    return { set with path := target, needsHeader := false }
  else return set

/-- The warning that comes with a chain that does not end in readable names. -/
def layerWarnings (sets : List MappingSet) : List String :=
  match sets.getLast? with
  | none => []
  | some last =>
    if last.target = namedNamespace then []
    else ["Named layer unavailable; output stays in the " ++ last.target ++ " namespace"]

/-- The chain that the provider gives, checked. -/
def providedChain (run : Run) (space : String) : Action (List MappingSet) := do
  let sets ← MappingProvider.provide run
  Action.explain (·.isA .valueError)
    (fun fault => .of .mappingUnavailable
      (run.provider.kind ++ " provider returned a bad chain: " ++ fault.message))
    (Action.ofResult (MappingSet.checkChain sets space))
  pure sets

def mappings (run : Run) : Action StageOutput := do
  match (← Run.handed).stripped with
  | none => throw (.value "stage_mappings requires a stripped artifact")
  | some stripped =>
    let sets ← (← providedChain run stripped.space).mapM normalized
    Run.hand ({ · with mappingSets := sets })
    let chosen : Json.Fields := [("provider", .text run.provider.kind),
      ("chain", .ofTexts (sets.map (·.arrow)))]
    run.emit "mappings" "mappings.selected" chosen
    let artifacts ← sets.mapM fun set => run.recordArtifact "mappings" textType set.path
    pure { outputs := chosen ++ [("documents", .ofTexts (sets.map (·.path.toString)))],
           warnings := layerWarnings sets, artifacts }

def remapper (settings : Settings) : Remapper :=
  ⟨settings.javaBin, settings.remapperJar, settings.remapperArgs, settings.timeout⟩

/-- Tells of a remapping pass and records its output. -/
def announcePass (run : Run) (set : MappingSet) (output : Artifact) (result : ToolResult) :
    Action ArtifactRef := do
  run.emit "remap" "remap.pass.finish" [("name", .text set.name),
    ("from_ns", .text set.source), ("to_ns", .text set.target),
    ("output", .text output.path.toString), ("duration_ms", .integer result.milliseconds)]
  run.recordArtifact "remap" jarType output.path

def remap (run : Run) : Action StageOutput := do
  let needed := "stage_remap requires a stripped artifact and mapping sets"
  match (← Run.handed).stripped with
  | none => throw (.value needed)
  | some stripped =>
    let passes ← (remapper run.settings).chain run.workspace (announcePass run) stripped
      (← Run.handed).mappingSets
    match passes.getLast? with
    | none => throw (.value needed)
    | some (final, _) =>
      Run.hand ({ · with mapped := some final })
      pure { outputs := [
               ("passes", .ofTexts (passes.map fun (output, _) =>
                 output.name ++ ":" ++ output.space)),
               ("mapped", .text final.path.toString), ("namespace", .text final.space)],
             metrics := [("passes", .ofNat passes.length)], artifacts := passes.map (·.2) }

def decompiler (settings : Settings) : Decompiler :=
  ⟨settings.javaBin, settings.decompilerJar, settings.decompilerArgs, settings.timeout⟩

/-- How many files there are below a directory. -/
def countFiles (directory : Path) : Action Nat := do
  let location ← Action.onFiles (FileTree.locating directory)
  return ((← get).files.below location).countP fun (_, node) => node != .directory

def decompile (run : Run) : Action StageOutput := do
  match (← Run.handed).mapped with
  | none => throw (.value "stage_decompile requires a mapped artifact")
  | some mapped =>
    let directory := run.workspace.sourcesDirectory
    let result ← (decompiler run.settings).decompile mapped directory
    Run.hand ({ · with sourcesDirectory := some directory })
    let duration : Json.Fields := [("duration_ms", .integer result.milliseconds)]
    run.emit "decompile" "tool.invoked" ([("argv", .ofTexts result.argv),
      ("returncode", .integer result.status)] ++ duration)
    let files ← countFiles directory
    pure { outputs := [("sources", .text directory.toString),
             ("input", .text mapped.path.toString), ("namespace", .text mapped.space)],
           metrics := ("source_files", .ofNat files) :: duration }

/-- The stages of a run. -/
def all : List Stage := [
  ⟨"resolve", resolve⟩, ⟨"fetch", fetch⟩, ⟨"unpack", unpack⟩, ⟨"sanitize", sanitize⟩,
  ⟨"mappings", mappings⟩, ⟨"remap", remap⟩, ⟨"decompile", decompile⟩]

end JarRefinery.Stage
