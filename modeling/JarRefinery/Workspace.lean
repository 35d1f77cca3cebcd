import JarRefinery.World

/-!
The workspace of a run: one directory in which every file has its place.

* `side.jar` is the jar as downloaded and `side-stripped.jar` the jar without its reserved entries;
* `libraries` holds the libraries, `unpacked` what a bundle was unpacked to, `mappings` the mapping
  documents, `build` one jar for every remapping pass, and `sources` what the decompiler wrote;
* `runs` holds the event log and the report of every run.
-/
namespace JarRefinery

structure Workspace where
  root : Path
deriving DecidableEq, Repr

namespace Workspace

def primary (workspace : Workspace) (side : String) : Path :=
  workspace.root / (side ++ ".jar")

def librariesDirectory (workspace : Workspace) : Path :=
  workspace.root / "libraries"

def unpackDirectory (workspace : Workspace) : Path :=
  workspace.root / "unpacked"

def stripped (workspace : Workspace) (side : String) : Path :=
  workspace.root / (side ++ "-stripped.jar")

def mappingsDirectory (workspace : Workspace) : Path :=
  workspace.root / "mappings"

def mapping (workspace : Workspace) (fileName : String) : Path :=
  workspace.mappingsDirectory / fileName

def buildDirectory (workspace : Workspace) : Path :=
  workspace.root / "build"

/-- The output of the remapping pass `pass`. -/
def mapped (workspace : Workspace) (pass : String) (extension : String) : Path :=
  workspace.buildDirectory / (pass ++ "-mapped." ++ extension)

def sourcesDirectory (workspace : Workspace) : Path :=
  workspace.root / "sources"

def runsDirectory (workspace : Workspace) : Path :=
  workspace.root / "runs"

/-- The place of a library, which must lie below the libraries directory once all double dots are
resolved. -/
def library (workspace : Workspace) (relative : String) : Action Path := do
  let place ← Action.onFiles (FileTree.resolve (workspace.librariesDirectory / relative))
  let base ← Action.onFiles (FileTree.resolve workspace.librariesDirectory)
  if base.parts.isPrefixOf place.parts ∧ base.parts ≠ place.parts then pure place
  else throw (.value ("Library path escapes libraries dir: " ++ relative))

/-- The directories that a run needs from the start. -/
def startDirectories (workspace : Workspace) : List Path :=
  [workspace.root, workspace.librariesDirectory, workspace.mappingsDirectory,
    workspace.buildDirectory]

/-- Makes the directories that a run needs. -/
def prepare (workspace : Workspace) : Action Unit := do
  let root := workspace.root.toString
  Action.explain (·.isA .osError)
    (fun fault => .of .workspaceError
      ("Cannot create workspace " ++ root ++ ": " ++ fault.message))
    (workspace.startDirectories.forM fun directory =>
      Action.onFiles (FileTree.ensureDirectories directory))
  let made ← Action.onFiles (FileTree.isDirectory workspace.root)
  Action.refuse (!made) (.of .workspaceError ("Workspace is not writable: " ++ root))

/-- The workspace of a version if no other is asked for. -/
def defaultRoot (directory : Path) (version : String) : Path :=
  directory / version

end Workspace

end JarRefinery
