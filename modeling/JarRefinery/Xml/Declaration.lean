import JarRefinery.Xml.Scan

/-!
The declaration that a document may begin with: its version, then perhaps an encoding, then perhaps
whether it stands alone. The encoding is not looked at: a document is a text here.
-/
namespace JarRefinery.Xml.Declaration

/-- A name with its value, as they stand in the declaration. -/
structure Setting where
  name : List Char
  namePlace : Place
  value : List Char
  valuePlace : Place

def isValueChar (c : Char) : Bool :=
  c.isAlphanum || c == '.' || c == '-' || c == '_'

/-- The next setting, if there is one. The text of a declaration is never unfinished: where it ends,
that is its flaw. -/
def setting? : Scan (Option Setting) := do
  match ← Scan.peek? with
  | none => return none
  | some c => if !isSpace c then Scan.fail .badDeclaration
  Scan.skipSpaces
  if (← Scan.peek?).isNone then return none
  let namePlace ← Scan.place
  let name ← Scan.takeWhile fun c => c != '=' && !isSpace c && c.toNat < 0x80
  Scan.skipSpaces
  if (← Scan.peek?) != some '=' || name.isEmpty then Scan.fail .badDeclaration
  Scan.advance
  Scan.skipSpaces
  match ← Scan.peek? with
  | some quote =>
    if quote != '\x22' && quote != '\x27' then Scan.fail .badDeclaration
    Scan.advance
    let valuePlace ← Scan.place
    let value ← Scan.takeWhile isValueChar
    if (← Scan.peek?) != some quote then Scan.fail .badDeclaration
    Scan.advance
    return some ⟨name, namePlace, value, valuePlace⟩
  | none => Scan.fail .badDeclaration

def badAt {α : Type} (place : Place) : Scan α :=
  throw (.broken ⟨.badDeclaration, place⟩)

/-- Whether the document stands alone, as a setting says; nothing may follow it. -/
def standalone (setting : Setting) : Scan Bool := do
  if setting.name != "standalone".toList then badAt setting.namePlace
  let answer ←
    if setting.value = "yes".toList then pure true
    else if setting.value = "no".toList then pure false
    else badAt setting.valuePlace
  Scan.skipSpaces
  if (← Scan.peek?).isSome then Scan.fail .badDeclaration
  pure answer

/-- Reads the settings: whether the document stands alone. -/
def settings : Scan Bool := do
  match ← setting? with
  | none => Scan.fail .badDeclaration
  | some version =>
    if version.name != "version".toList then badAt version.namePlace
    match ← setting? with
    | none => return false
    | some second =>
      if second.name != "encoding".toList then return ← standalone second
      if !(second.value.head?.any Char.isAlpha) then badAt second.valuePlace
      match ← setting? with
      | none => return false
      | some third => standalone third

/-- Reads a declaration with these contents: whether the document stands alone. -/
def read (place : Place) (contents : List Char) : Except Flaw Bool := do
  let (answer, _) ← settings.run ⟨contents, place⟩
  pure answer

end JarRefinery.Xml.Declaration
