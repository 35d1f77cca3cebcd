import JarRefinery.Bytes
import JarRefinery.Decimal.Shortest
import JarRefinery.Json.Value

/-!
Written JSON: on one line with a blank after every comma and colon, or with one field or item a line
and two blanks of indentation for every level. Only the quote, the backslash and control characters
are escaped.
-/
namespace JarRefinery.Json

def escapeChar (c : Char) : List Char :=
  match c with
  | '\x22' => ['\\', '\x22']
  | '\\' => ['\\', '\\']
  | '\n' => ['\\', 'n']
  | '\r' => ['\\', 'r']
  | '\t' => ['\\', 't']
  | '\x08' => ['\\', 'b']
  | '\x0c' => ['\\', 'f']
  | c =>
    if c.toNat < 0x20 then
      ['\\', 'u', '0', '0', Bytes.hexDigit (c.toNat / 16), Bytes.hexDigit (c.toNat % 16)]
    else [c]

def printText (text : String) : String :=
  "\"" ++ String.ofList (text.toList.flatMap escapeChar) ++ "\""

def printNumber : Binary64 → String
  | .nan => "NaN"
  | .infinity negative => if negative then "-Infinity" else "Infinity"
  | x => x.toText

def commaSeparated (separator : String) : List String → String :=
  separator.intercalate

mutual

/-- The document on one line. -/
def print : Json → String
  | .null => "null"
  | .bool true => "true"
  | .bool false => "false"
  | .integer n => toString n
  | .number x => printNumber x
  | .text value => printText value
  | .list items => "[" ++ commaSeparated ", " (printItems items) ++ "]"
  | .object fields => "\x7b" ++ commaSeparated ", " (printFields fields) ++ "\x7d"

def printItems : List Json → List String
  | [] => []
  | item :: rest => print item :: printItems rest

def printFields : List (String × Json) → List String
  | [] => []
  | (key, value) :: rest => (printText key ++ ": " ++ print value) :: printFields rest

end

def lineAt (level : Nat) : String :=
  String.ofList ('\n' :: List.replicate (2 * level) ' ')

/-- Brackets around items that stand on lines of their own; nothing between them if there are
none. -/
def block (level : Nat) (opening closing : String) : List String → String
  | [] => opening ++ closing
  | items =>
    opening ++ lineAt (level + 1) ++ commaSeparated ("," ++ lineAt (level + 1)) items ++
      lineAt level ++ closing

mutual

/-- The document on lines of its own, at this level of indentation. -/
def printIndented (level : Nat) : Json → String
  | .null => "null"
  | .bool true => "true"
  | .bool false => "false"
  | .integer n => toString n
  | .number x => printNumber x
  | .text value => printText value
  | .list items => block level "[" "]" (printIndentedItems (level + 1) items)
  | .object fields => block level "\x7b" "\x7d" (printIndentedFields (level + 1) fields)

def printIndentedItems (level : Nat) : List Json → List String
  | [] => []
  | item :: rest => printIndented level item :: printIndentedItems level rest

def printIndentedFields (level : Nat) : List (String × Json) → List String
  | [] => []
  | (key, value) :: rest =>
    (printText key ++ ": " ++ printIndented level value) :: printIndentedFields level rest

end

end JarRefinery.Json
