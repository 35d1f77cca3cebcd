import JarRefinery.Schema.Checked

/-!
The version manifest: every version with the address of its metadata, and which versions are the
latest ones.
-/
namespace JarRefinery

structure VersionEntry where
  id : String
  kind : Option String
  url : String
  sha1 : Option String
deriving DecidableEq, Repr

structure LatestVersions where
  release : Option String
  snapshot : Option String
deriving DecidableEq, Repr

structure VersionManifest where
  latest : LatestVersions
  versions : List VersionEntry
deriving DecidableEq, Repr

open Schema

def VersionEntry.ofJson : Json → Checked VersionEntry :=
  model fun fields =>
    VersionEntry.mk <$> required "id" nonemptyText fields <*> optionalText "type" fields <*>
      required "url" nonemptyText fields <*> optionalText "sha1" fields

def VersionEntry.toJson (entry : VersionEntry) : Json :=
  .object [("id", .text entry.id), ("type", .ofOption entry.kind), ("url", .text entry.url),
    ("sha1", .ofOption entry.sha1)]

def LatestVersions.ofJson : Json → Checked LatestVersions :=
  model fun fields =>
    LatestVersions.mk <$> optionalText "release" fields <*> optionalText "snapshot" fields

def LatestVersions.toJson (latest : LatestVersions) : Json :=
  .object [("release", .ofOption latest.release), ("snapshot", .ofOption latest.snapshot)]

namespace VersionManifest

def ofJson : Json → Checked VersionManifest :=
  model fun fields =>
    VersionManifest.mk <$> field "latest" LatestVersions.ofJson ⟨none, none⟩ fields <*>
      field "versions" (list VersionEntry.ofJson) [] fields

def toJson (manifest : VersionManifest) : Json :=
  .object [("latest", manifest.latest.toJson),
    ("versions", .list (manifest.versions.map VersionEntry.toJson))]

/-- The first entry with this id. -/
def find? (manifest : VersionManifest) (id : String) : Option VersionEntry :=
  manifest.versions.find? (·.id = id)

end VersionManifest

end JarRefinery
