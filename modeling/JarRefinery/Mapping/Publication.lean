import JarRefinery.Http.Client
import JarRefinery.Schema.Checked

/-!
Published mappings: the lists of mapping releases that a metadata service keeps for a version.
-/
namespace JarRefinery

structure MappingRelease where
  coordinate : String
  version : String
  build : Option Int
  stable : Option Bool
deriving DecidableEq, Repr

namespace MappingRelease

open Schema

def ofJson : Json → Checked MappingRelease :=
  model fun fields =>
    MappingRelease.mk <$> required "maven" text fields <*> required "version" text fields <*>
      field "build" (optional integer) none fields <*>
      field "stable" (optional truth) none fields

def toJson (release : MappingRelease) : Json :=
  .object [("maven", .text release.coordinate), ("version", .text release.version),
    ("build", match release.build with | none => .null | some n => .integer n),
    ("stable", match release.stable with | none => .null | some b => .bool b)]

/-- The releases of a list, checked one after the other: the first wrong one is told of. -/
def ofList (url : String) : Json → Except Fault (List MappingRelease)
  | .list items => items.mapM fun item => (ofJson item).mapError Fault.schema
  | _ => .error (.value ("Expected a JSON list from " ++ url))

/-- The releases listed at `url`; none if there is no such list. -/
def fetchAll (maxAttempts : Int) (url : String) : Action (List MappingRelease) := do
  let json ← Action.handle (fun fault => fault.isA .httpFetchError && fault.isNotFound)
    (fun _ => pure (.list [])) (Http.getJson maxAttempts url)
  Action.ofResult (ofList url json)

/-- The build number, zero if there is none. -/
def order (release : MappingRelease) : Int :=
  release.build.getD 0

/-- The first of the releases with the greatest build number. -/
def newest? : List MappingRelease → Option MappingRelease
  | [] => none
  | first :: rest =>
    some (rest.foldl (fun best release => if best.order < release.order then release else best)
      first)

end MappingRelease

end JarRefinery
