/-!
Elements of a document, as far as their texts can be asked for: the text of an element is the
character data before its first child.
-/
namespace JarRefinery.Xml

/-- The name of an element holds its namespace in braces if it has one. -/
inductive Element where
  | mk (name : String) (text : List Char) (children : List Element)
deriving Repr

namespace Element

def name : Element → String
  | mk name _ _ => name

def text : Element → List Char
  | mk _ text _ => text

def children : Element → List Element
  | mk _ _ children => children

/-- The elements that the names lead to, from child to child, in the order of the document. -/
def descend (element : Element) : List String → List Element
  | [] => [element]
  | name :: rest =>
    (element.children.filter (·.name = name)).flatMap fun child => child.descend rest

/-- The text of the first element that the names lead to. -/
def firstText? (element : Element) (names : List String) : Option String :=
  (element.descend names).head?.map fun found => String.ofList found.text

/-- The texts of all elements that the names lead to. -/
def texts (element : Element) (names : List String) : List String :=
  (element.descend names).map fun found => String.ofList found.text

end Element

end JarRefinery.Xml
