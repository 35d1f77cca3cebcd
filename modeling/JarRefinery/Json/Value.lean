import JarRefinery.Decimal.Binary64

/-!
JSON documents. The fields of an object keep the order in which they were first given, and a field
given again takes the later value.
-/
namespace JarRefinery

inductive Json where
  | null
  | bool (value : Bool)
  | integer (value : Int)
  | number (value : Binary64)
  | text (value : String)
  | list (items : List Json)
  | object (fields : List (String × Json))
deriving Inhabited, Repr

namespace Json

abbrev Fields := List (String × Json)

/-- Sets a field in its place, or at the end if it is new. -/
def Fields.put (key : String) (value : Json) : Fields → Fields
  | [] => [(key, value)]
  | field :: rest =>
    if field.1 = key then (key, value) :: rest else field :: Fields.put key value rest

def Fields.get? (key : String) (fields : Fields) : Option Json :=
  fields.lookup key

def Fields.remove (key : String) (fields : Fields) : Fields :=
  fields.filter (·.1 ≠ key)

/-- Sets all fields of `later` in turn. -/
def Fields.update (fields later : Fields) : Fields :=
  later.foldl (fun fields field => fields.put field.1 field.2) fields

/-- The object with these fields, of which some may be given twice. -/
def ofFields (fields : Fields) : Json :=
  .object (Fields.update [] fields)

def ofOption : Option String → Json
  | none => .null
  | some value => .text value

def ofTexts (items : List String) : Json :=
  .list (items.map .text)

def ofNat (n : Nat) : Json :=
  .integer n

/-- Whether the value counts as nothing: null, false, zero, or empty. -/
def isEmptyValue : Json → Bool
  | null => true
  | bool value => !value
  | integer value => value == 0
  | number value => value.isZero
  | text value => value.isEmpty
  | list items => items.isEmpty
  | object fields => fields.isEmpty

end Json

end JarRefinery
