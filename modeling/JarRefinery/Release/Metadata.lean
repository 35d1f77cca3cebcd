import JarRefinery.Schema.Checked

/-!
The metadata of one version: what can be downloaded for it, and the libraries that it needs.
-/
namespace JarRefinery

structure Download where
  url : String
  sha1 : Option String
  size : Option Int
deriving DecidableEq, Repr

structure LibraryArtifact where
  path : Option String
  url : Option String
  sha1 : Option String
  size : Option Int
deriving DecidableEq, Repr

structure Library where
  name : String
  artifact : Option LibraryArtifact
deriving DecidableEq, Repr

/-- A library that can be fetched: it has an address and a place to be installed at. -/
structure Dependency where
  name : String
  url : String
  path : String
deriving DecidableEq, Repr

structure VersionMetadata where
  id : String
  kind : Option String
  downloads : List (String × Download)
  libraries : List Library
deriving DecidableEq, Repr

open Schema

def sizeJson : Option Int → Json
  | none => .null
  | some n => .integer n

def Download.ofJson : Json → Checked Download :=
  model fun fields =>
    Download.mk <$> required "url" text fields <*> optionalText "sha1" fields <*>
      field "size" (optional (integerAtLeast 0)) none fields

def Download.toJson (download : Download) : Json :=
  .object [("url", .text download.url), ("sha1", .ofOption download.sha1),
    ("size", sizeJson download.size)]

def LibraryArtifact.ofJson : Json → Checked LibraryArtifact :=
  model fun fields =>
    LibraryArtifact.mk <$> optionalText "path" fields <*> optionalText "url" fields <*>
      optionalText "sha1" fields <*> field "size" (optional integer) none fields

def LibraryArtifact.toJson (artifact : LibraryArtifact) : Json :=
  .object [("path", .ofOption artifact.path), ("url", .ofOption artifact.url),
    ("sha1", .ofOption artifact.sha1), ("size", sizeJson artifact.size)]

namespace Library

/-- The downloads of a library, of which one artifact matters. -/
def downloadsOfJson : Json → Checked (Option LibraryArtifact) :=
  model (field "artifact" (optional LibraryArtifact.ofJson) none)

def ofJson : Json → Checked Library :=
  model fun fields =>
    Library.mk <$> required "name" text fields <*> field "downloads" downloadsOfJson none fields

def toJson (library : Library) : Json :=
  let artifact := match library.artifact with
    | none => .null
    | some artifact => artifact.toJson
  .object [("name", .text library.name), ("downloads", .object [("artifact", artifact)])]

/-- The dependency that a library is, if its address and path are given and not empty. -/
def dependency? (library : Library) : Option Dependency :=
  match library.artifact with
  | none => none
  | some artifact =>
    let url := artifact.url.getD ""
    let path := artifact.path.getD ""
    if url.isEmpty || path.isEmpty then none else some ⟨library.name, url, path⟩

end Library

def Dependency.ofJson : Json → Checked Dependency :=
  model fun fields =>
    (fun name url path _ => ⟨name, url, path⟩) <$> required "name" text fields <*>
      required "url" text fields <*> required "path" text fields <*>
      noExtras ["name", "url", "path"] fields

def Dependency.toJson (dependency : Dependency) : Json :=
  .object [("name", .text dependency.name), ("url", .text dependency.url),
    ("path", .text dependency.path)]

namespace VersionMetadata

def ofJson : Json → Checked VersionMetadata :=
  model fun fields =>
    VersionMetadata.mk <$> required "id" text fields <*> optionalText "type" fields <*>
      field "downloads" (dictionary Download.ofJson) [] fields <*>
      field "libraries" (list Library.ofJson) [] fields

def toJson (metadata : VersionMetadata) : Json :=
  .object [("id", .text metadata.id), ("type", .ofOption metadata.kind),
    ("downloads", .object (metadata.downloads.map fun (name, d) => (name, d.toJson))),
    ("libraries", .list (metadata.libraries.map Library.toJson))]

def primaryDownload (metadata : VersionMetadata) (side : String) : Option Download :=
  metadata.downloads.lookup side

def mappingsDownload (metadata : VersionMetadata) (side : String) : Option Download :=
  metadata.downloads.lookup (side ++ "_mappings")

/-- The libraries that can be fetched, in their order. -/
def dependencies (metadata : VersionMetadata) : List Dependency :=
  metadata.libraries.filterMap Library.dependency?

end VersionMetadata

end JarRefinery
