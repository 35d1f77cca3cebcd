import JarRefinery.Archive.Directory
import JarRefinery.Tool.Call
import JarRefinery.Workspace

/-!
Packages: the jar of a version is either the payload itself or a bundle around it. A bundle unpacks
itself when it is run; its payload is then the first of the jars it wrote.
-/
namespace JarRefinery.Package

/-- Only bundles have this entry. -/
def bundleMarker : String := "META-INF/versions.list"

def payloadsDirectory : String := "versions"

/-- With an empty main class a bundle unpacks its jars and ends. -/
def unpackOptions : List String := ["-DbundlerMainClass="]

/-- Whether the archive at `path` is a bundle. No entry is opened. -/
def isBundled (path : Path) : Action Bool :=
  Action.explain (·.isAny [.badArchive, .osError])
    (fun fault => .of .unpackError
      ("Cannot open " ++ path.toString ++ " as an archive: " ++ fault.message))
    do
      let archive ← Action.onFiles (FileTree.readFile path)
      let entries ← Action.ofExcept .archive (Archive.readDirectory archive)
      pure (Archive.find? entries bundleMarker).isSome

/-- The jars below a location, told by the suffix of their names, by the names that lead there. -/
def jarsBelow (files : FileTree) (location : Location) : List (List String) :=
  (files.below location).filterMap fun (names, node) =>
    match node with
    | .file _ _ => if Text.endsWith ".jar" (names.getLastD "") then some names else none
    | .directory => none

/-- The first of some lists of names, compared name by name. -/
def least? : List (List String) → Option (List String)
  | [] => none
  | first :: rest => some (rest.foldl (fun least names => if names < least then names else least)
      first)

/-- The first jar below the directory that bundles unpack to. -/
def findPayload (unpackDirectory : Path) : Action (Option Path) := do
  let payloads := unpackDirectory / payloadsDirectory
  if ← Action.onFiles (FileTree.isDirectory payloads) then
    let location ← Action.onFiles (FileTree.locating payloads)
    let names? := least? (jarsBelow (← get).files location)
    return names?.map fun names => ⟨payloads.root, payloads.parts ++ names⟩
  else return none

/-- Runs a bundle in the directory that it is to unpack to; its payload. -/
def unpack (java : String) (timeout : Option Seconds) (workspace : Workspace) (bundle : Artifact) :
    Action Artifact := do
  let directory := workspace.unpackDirectory
  Action.onFiles (FileTree.ensureDirectories directory)
  let jar ← Action.onFiles (FileTree.resolve bundle.path)
  let result ← Tool.call ⟨Tool.javaArgv java unpackOptions jar [], some directory, timeout⟩
  Action.refuse (!result.isOk) (.of .unpackError
    ("Bundler extraction exited with " ++ toString result.status ++ ": " ++ result.shown))
  match ← findPayload directory with
  | some payload => pure (bundle.derive "payload" payload none)
  | none => throw (.of .unpackError
      ("Bundler extraction produced no jar under " ++ (directory / payloadsDirectory).toString))

/-- The payload of a package, and whether it had to be unpacked. -/
def inspect (java : String) (timeout : Option Seconds) (workspace : Workspace)
    (package : Artifact) : Action (Artifact × Bool) := do
  if ← isBundled package.path then
    let payload ← unpack java timeout workspace package
    pure (payload, true)
  else pure (package, false)

end JarRefinery.Package
