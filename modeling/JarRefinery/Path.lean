import JarRefinery.Text.Split

/-!
Paths as written: an optional root and the names between the slashes. Empty names and single dots
are dropped, double dots are kept. `normal` resolves the double dots by the names alone.
-/
namespace JarRefinery

/-- `root` is empty, one slash, or two. -/
structure Path where
  root : String
  parts : List String
deriving DecidableEq, Repr, Inhabited

namespace Path

def isNamed (part : String) : Bool :=
  part != "" && part != "."

def rootOf (text : String) : String :=
  if Text.beginsWith "///" text then "/"
  else if Text.beginsWith "//" text then "//"
  else if Text.beginsWith "/" text then "/"
  else ""

def ofString (text : String) : Path :=
  ⟨rootOf text, (Text.split '/' text).filter isNamed⟩

def isAbsolute (path : Path) : Bool :=
  path.root != ""

def toString (path : Path) : String :=
  if path.root = "" ∧ path.parts = [] then "."
  else path.root ++ "/".intercalate path.parts

instance : ToString Path := ⟨toString⟩

/-- `other` seen from `path`; an absolute path stays what it is. -/
def join (path other : Path) : Path :=
  if other.isAbsolute then other else ⟨path.root, path.parts ++ other.parts⟩

instance : HDiv Path String Path := ⟨fun path text => path.join (ofString text)⟩

def parent (path : Path) : Path :=
  ⟨path.root, path.parts.dropLast⟩

/-- The last name, empty if there is none. -/
def name (path : Path) : String :=
  path.parts.getLastD ""

/-- Where the last dot of a name stands, unless it is the first or the last character. -/
def dotIndex? (name : String) : Option Nat :=
  let tail := (name.toList.reverse.takeWhile (· != '.')).length
  let index := name.length - tail - 1
  if tail < name.length ∧ 0 < index ∧ 0 < tail then some index else none

def stem (path : Path) : String :=
  match dotIndex? path.name with
  | some index => String.ofList (path.name.toList.take index)
  | none => path.name

def suffix (path : Path) : String :=
  match dotIndex? path.name with
  | some index => String.ofList (path.name.toList.drop index)
  | none => ""

/-- The path with another last name. -/
def withName (path : Path) (name : String) : Path :=
  ⟨path.root, path.parts.dropLast ++ [name]⟩

/-- One name after another from a location, where a double dot takes a step back. -/
def walk (location : List String) (parts : List String) : List String :=
  parts.foldl (fun location part =>
    if part = ".." then location.dropLast else location ++ [part]) location

/-- The location that a path names from the directory `here`, by the names alone. -/
def normal (here : List String) (path : Path) : List String :=
  walk (if path.isAbsolute then [] else here) path.parts

/-- The absolute path of a location. -/
def ofLocation (location : List String) : Path :=
  ⟨"/", location⟩

/-- The names that follow those of `base`. -/
def below? (base path : Path) : Option Path :=
  if base.root = "" ∧ base.parts = [] then
    if path.root = "" then some path else none
  else if base.root = path.root ∧ base.parts.isPrefixOf path.parts then
    some ⟨"", path.parts.drop base.parts.length⟩
  else none

end Path

end JarRefinery
