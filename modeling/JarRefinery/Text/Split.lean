/-!
Splitting texts: at a character, and by how they begin or end.
-/
namespace JarRefinery.Text

/-- The parts of a text between the occurrences of `mark`. -/
def split (mark : Char) (text : String) : List String :=
  (text.toList.splitOn mark).map String.ofList

def beginsWith (start text : String) : Bool :=
  start.toList.isPrefixOf text.toList

def endsWith (ending text : String) : Bool :=
  ending.toList.isSuffixOf text.toList

end JarRefinery.Text
