import JarRefinery.Artifact
import JarRefinery.FileDigest
import JarRefinery.Release.Resolve
import JarRefinery.Workspace

/-!
Fetching the jar of a version and the libraries it needs. A jar must have the checksum that the
metadata declares. A library that cannot be fetched is no more than a warning.
-/
namespace JarRefinery

namespace Release

def isDownloadFault (fault : Fault) : Bool :=
  fault.isAny [.httpFetchError, .osError]

/-- Letters of ASCII in lower case; a checksum has no others. -/
def lowerCase (text : String) : String :=
  String.ofList (text.toList.map Char.toLower)

/-- The jar at `target`, if its checksum is the one declared. -/
def checkPrimary (side : String) (download : Download) (target : Path) :
    Action (Except Fault Artifact) := do
  let artifact : Artifact := ⟨"raw", target, officialNamespace⟩
  let expected := download.sha1.getD ""
  if expected.isEmpty then return .ok artifact
  else
    let digest ← FileDigest.ofFile target
    if lowerCase digest.sha1 = lowerCase expected then return .ok artifact
    else return .error (.of .artifactFetchError
      (side ++ " jar checksum mismatch: expected sha1 " ++ expected ++ ", got " ++ digest.sha1))

/-- Downloads the jar of a side, whatever is at its place: the jar, or why there is none. Only
faults that are no failure of the download itself are thrown. -/
def fetchPrimary (maxAttempts : Int) (metadata : VersionMetadata) (side : String)
    (workspace : Workspace) : Action (Except Fault Artifact) := do
  match metadata.primaryDownload side with
  | none => return .error (.of .artifactFetchError
      ("Version " ++ metadata.id ++ " has no " ++ side ++ " download"))
  | some download =>
    let target := workspace.primary side
    let loaded ← Action.handle isDownloadFault (fun fault => pure (.error fault))
      (Except.ok <$> Http.download maxAttempts download.url target)
    match loaded with
    | .ok _ => checkPrimary side download target
    | .error fault => return .error (.of .artifactFetchError
        ("Failed to download " ++ side ++ " jar from " ++ download.url ++ ": " ++ fault.message))

end Release

inductive LibraryStatus where
  | downloaded
  | present
  | failed
deriving DecidableEq, Repr

def LibraryStatus.name : LibraryStatus → String
  | downloaded => "downloaded"
  | present => "present"
  | failed => "failed"

/-- How the fetch of a library ended. -/
structure LibraryFetch where
  dependency : Dependency
  path : Path
  status : LibraryStatus
  warning : Option String
deriving DecidableEq, Repr

namespace Release

/-- Downloads a library to its place unless something is there. -/
def fetchLibraryTo (maxAttempts : Int) (dependency : Dependency) (target : Path) :
    Action LibraryFetch := do
  if ← Action.onFiles (FileTree.doesExist target) then
    return ⟨dependency, target, .present, none⟩
  else
    let download := do
      let _ ← Http.download maxAttempts dependency.url target
      pure (⟨dependency, target, .downloaded, none⟩ : LibraryFetch)
    download.handle isDownloadFault fun fault =>
      pure ⟨dependency, target, .failed,
        some ("Skipped library " ++ dependency.name ++ ": " ++ fault.message)⟩

def fetchLibrary (maxAttempts : Int) (workspace : Workspace) (dependency : Dependency) :
    Action LibraryFetch := do
  let place ← Action.handle (·.isA .valueError) (fun fault => pure (.error fault))
    (Except.ok <$> workspace.library dependency.path)
  match place with
  | .ok target => fetchLibraryTo maxAttempts dependency target
  | .error fault =>
    pure ⟨dependency, workspace.librariesDirectory, .failed,
      some (dependency.name ++ ": " ++ fault.message)⟩

/-- Fetches the libraries one after the other. -/
def fetchLibraries (maxAttempts : Int) (workspace : Workspace) (dependencies : List Dependency) :
    Action (List LibraryFetch) :=
  dependencies.mapM (fetchLibrary maxAttempts workspace)

end Release

end JarRefinery
