import JarRefinery.Fault

/-!
Coordinates of published files, written group:artifact:version, and where a repository keeps them.
-/
namespace JarRefinery

structure Coordinate where
  group : String
  artifact : String
  version : String
deriving DecidableEq, Repr

namespace Coordinate

/-- The coordinate that a text gives in its first three parts. -/
def parse (text : String) : Except Fault Coordinate :=
  match Text.split ':' text with
  | group :: artifact :: version :: _ => .ok ⟨group, artifact, version⟩
  | _ => .error (.value ("Not a maven coordinate: " ++ Text.quote text))

/-- The name of a file of the coordinate, with the classifier if there is one. -/
def fileName (coordinate : Coordinate) (classifier extension : String) : String :=
  coordinate.artifact ++ "-" ++ coordinate.version ++
    (if classifier.isEmpty then "" else "-" ++ classifier) ++ "." ++ extension

/-- The place of a file in a repository: every part of the group is a directory. -/
def path (coordinate : Coordinate) (classifier extension : String) : String :=
  "/".intercalate (Text.split '.' coordinate.group) ++ "/" ++ coordinate.artifact ++ "/" ++
    coordinate.version ++ "/" ++ coordinate.fileName classifier extension

end Coordinate

end JarRefinery
