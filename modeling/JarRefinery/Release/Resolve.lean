import JarRefinery.Http.Client
import JarRefinery.Release.Manifest
import JarRefinery.Release.Metadata

/-!
Resolving a version: the manifest lists the address of its metadata. Two words stand for the latest
versions that the manifest declares.
-/
namespace JarRefinery

/-- Where versions are looked up, and how often a request is made before it has failed. -/
structure ReleaseSource where
  manifestUrl : String
  maxAttempts : Int
deriving DecidableEq, Repr

namespace ReleaseSource

/-- Faults of getting or reading a document. -/
def isUnavailable (fault : Fault) : Bool :=
  fault.isAny [.httpFetchError, .valueError]

/-- The document at `url`, which must have the form that `check` asks for. -/
def document {α : Type} (source : ReleaseSource) (url : String)
    (check : Json → Schema.Checked α) : Action α := do
  let json ← Http.getJson source.maxAttempts url
  Action.ofExcept .schema (check json)

def manifest (source : ReleaseSource) : Action VersionManifest :=
  Action.explain isUnavailable
    (fun fault => .of .metadataFetchError
      ("Cannot load version manifest " ++ source.manifestUrl ++ ": " ++ fault.message))
    (source.document source.manifestUrl VersionManifest.ofJson)

/-- What the word for a latest version stands for in a manifest; nothing if `version` is no such
word. -/
def alias? (manifest : VersionManifest) (version : String) : Option (Option String) :=
  if version = "latest" then some manifest.latest.release
  else if version = "snapshot" then some manifest.latest.snapshot
  else none

/-- The id to look for. -/
def wantedId (manifest : VersionManifest) (version : String) : Except Fault String :=
  match alias? manifest version with
  | none => .ok version
  | some id =>
    let id := id.getD ""
    if id.isEmpty then
      .error (.of .versionNotFound ("Manifest does not declare a " ++ version ++ " version"))
    else .ok id

/-- The entry of a version in the manifest. -/
def entry (source : ReleaseSource) (version : String) : Action VersionEntry := do
  let manifest ← source.manifest
  let id ← Action.ofResult (wantedId manifest version)
  match manifest.find? id with
  | some entry => pure entry
  | none => throw (.of .versionNotFound
      ("Version " ++ Text.quote version ++ " is not in " ++ source.manifestUrl))

def metadata (source : ReleaseSource) (entry : VersionEntry) : Action VersionMetadata :=
  Action.explain isUnavailable
    (fun fault => .of .metadataFetchError
      ("Cannot load metadata for " ++ entry.id ++ " from " ++ entry.url ++ ": " ++
        fault.message))
    (source.document entry.url VersionMetadata.ofJson)

def resolve (source : ReleaseSource) (version : String) : Action VersionMetadata := do
  source.metadata (← source.entry version)

end ReleaseSource

end JarRefinery
