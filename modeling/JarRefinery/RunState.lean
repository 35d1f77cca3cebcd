import JarRefinery.Artifact
import JarRefinery.Mapping.Set
import JarRefinery.Release.Metadata

/-!
What the stages of a run hand on to one another. Each field is set by one stage.
-/
namespace JarRefinery

structure RunState where
  metadata : Option VersionMetadata := none
  primary : Option Artifact := none
  payload : Option Artifact := none
  stripped : Option Artifact := none
  mappingSets : List MappingSet := []
  mapped : Option Artifact := none
  sourcesDirectory : Option Path := none
deriving DecidableEq, Repr

end JarRefinery
