import JarRefinery.Fault

/-!
Mapping sets: documents that rename what a jar defines, each from one namespace to another. The sets
of a run form a chain of one or two.
-/
namespace JarRefinery

inductive MappingEncoding where
  | plain
  | tiny
deriving DecidableEq, Repr

def MappingEncoding.name : MappingEncoding → String
  | plain => "plain"
  | tiny => "tiny"

def MappingEncoding.parse (text : String) : Except Fault MappingEncoding :=
  match text with
  | "plain" => .ok .plain
  | "tiny" => .ok .tiny
  | _ => .error (.value (Text.quote text ++ " is not a valid MappingEncoding"))

/-- A mapping document and the namespaces between which it maps. The name is also that of the
remapping pass. -/
structure MappingSet where
  name : String
  path : Path
  source : String
  target : String
  encoding : MappingEncoding
  needsHeader : Bool := false
deriving DecidableEq, Repr

namespace MappingSet

/-- The two namespaces with an arrow between them. -/
def arrow (set : MappingSet) : String :=
  set.source ++ "->" ++ set.target

/-- Follows the sets from the namespace `space`: each must begin where the chain has come to. -/
def checkLinks (space : String) : List MappingSet → Except Fault Unit
  | [] => .ok ()
  | set :: rest =>
    if set.source = space then checkLinks set.target rest
    else .error (.value ("Mapping set " ++ Text.quote set.name ++ " expects " ++
      Text.quote set.source ++ " but chain is at " ++ Text.quote space))

/-- Whether the sets are a chain of one or two that begins at `space`. -/
def checkChain (sets : List MappingSet) (space : String) : Except Fault Unit :=
  if sets.length = 1 ∨ sets.length = 2 then checkLinks space sets
  else .error (.value
    ("Mapping chain must have 1 or 2 sets, got " ++ toString sets.length))

end MappingSet

end JarRefinery
