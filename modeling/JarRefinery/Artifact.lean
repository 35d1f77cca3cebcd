import JarRefinery.Json.Value
import JarRefinery.Path

/-!
Artifacts: jars in the workspace, each with the namespace that its names are in. No stage changes
the file of an artifact; it makes another one.
-/
namespace JarRefinery

/-- The namespaces that jars and mappings are in. -/
def officialNamespace : String := "official"
def intermediaryNamespace : String := "intermediary"
def namedNamespace : String := "named"

structure Artifact where
  name : String
  path : Path
  space : String
deriving DecidableEq, Repr

namespace Artifact

/-- Another artifact in the same namespace, or in `space` if it is given. -/
def derive (artifact : Artifact) (name : String) (path : Path) (space : Option String) :
    Artifact :=
  ⟨name, path, space.getD artifact.space⟩

end Artifact

/-- A file that a stage made, as the report lists it. -/
structure ArtifactRef where
  path : String
  bytes : Nat
  sha256 : String
  contentType : Option String
deriving DecidableEq, Repr

def ArtifactRef.toJson (ref : ArtifactRef) : Json :=
  .object [("path", .text ref.path), ("bytes", .ofNat ref.bytes), ("sha256", .text ref.sha256),
    ("content_type", .ofOption ref.contentType)]

end JarRefinery
