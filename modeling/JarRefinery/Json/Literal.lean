import JarRefinery.Decimal.Shortest
import JarRefinery.Json.Value
import JarRefinery.Text.Quoted

/-!
Values as messages show them: texts in quotes, and `None`, `True` and `False` for null and the truth
values. A text that stands alone is shown as it is.
-/
namespace JarRefinery.Json

mutual

def literal : Json → String
  | .null => "None"
  | .bool true => "True"
  | .bool false => "False"
  | .integer n => toString n
  | .number x => x.toText
  | .text value => Text.quote value
  | .list items => "[" ++ ", ".intercalate (literalItems items) ++ "]"
  | .object fields => "\x7b" ++ ", ".intercalate (literalFields fields) ++ "\x7d"

def literalItems : List Json → List String
  | [] => []
  | item :: rest => literal item :: literalItems rest

def literalFields : List (String × Json) → List String
  | [] => []
  | (key, value) :: rest => (Text.quote key ++ ": " ++ literal value) :: literalFields rest

end

def display : Json → String
  | .text value => value
  | value => literal value

/-- The texts in brackets, each in quotes. -/
def literalTexts (texts : List String) : String :=
  literal (ofTexts texts)

/-- What kind of value it is, in the word that messages use. -/
def kindName : Json → String
  | .null => "NoneType"
  | .bool _ => "bool"
  | .integer _ => "int"
  | .number _ => "float"
  | .text _ => "str"
  | .list _ => "list"
  | .object _ => "dict"

end JarRefinery.Json
