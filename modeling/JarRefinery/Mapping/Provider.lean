import JarRefinery.Mapping.Set

/-!
Providers of mapping sets: the one that uses the mappings published with a version, the one that
chains two mappings of a service of its own, and those that know their sets beforehand.
-/
namespace JarRefinery

inductive MappingProvider where
  | direct
  | chained (metaUrl mavenUrl : String)
  | fixed (word : String) (sets : Except Fault (List MappingSet))

namespace MappingProvider

def kind : MappingProvider → String
  | direct => "direct"
  | chained _ _ => "chained"
  | fixed word _ => word

/-- The provider of a kind; the chained one asks these services. -/
def ofKind (kind metaUrl mavenUrl : String) : Except Fault MappingProvider :=
  match kind with
  | "direct" => .ok .direct
  | "chained" => .ok (.chained metaUrl mavenUrl)
  | _ => .error (.value ("Unknown mapping provider: " ++ Text.quote kind))

end MappingProvider

end JarRefinery
