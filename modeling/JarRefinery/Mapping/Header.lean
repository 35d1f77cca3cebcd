import JarRefinery.TextFile

/-!
The header line that names the two namespaces of a mapping document. Documents that come without it
get it as their second line, after the line that marks their format; all other lines stay.
-/
namespace JarRefinery.Mapping

def headerStart : String := "tiny\t2\t0"

def headerLine (source target : String) : String :=
  headerStart ++ "\t" ++ source ++ "\t" ++ target

/-- Puts the header after the first line; no lines become the header alone. -/
def insertHeader (source target : String) : List String → List String
  | [] => [headerLine source target]
  | first :: rest => first :: headerLine source target :: rest

/-- The text with the header, every line ended by a line feed. -/
def normalizeText (source target text : String) : String :=
  "\n".intercalate (insertHeader source target (Text.lines text)) ++ "\n"

/-- Writes the document at `document` with its header to `target`, which must be another place. -/
def normalizeFile (source target : String) (document output : Path) : Action Path := do
  let from_ ← Action.onFiles (FileTree.resolve document)
  let to_ ← Action.onFiles (FileTree.resolve output)
  Action.refuse (from_ = to_)
    (.value ("Refusing to normalize " ++ document.toString ++ " in place"))
  let text ← TextFile.read document
  TextFile.write TextFile.defaultStyle output (normalizeText source target text)
  pure output

end JarRefinery.Mapping
