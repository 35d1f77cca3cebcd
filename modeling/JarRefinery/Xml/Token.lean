import JarRefinery.Text.Lines
import JarRefinery.Xml.Scan

/-!
The tokens of the content of elements: tags, references, character data, comments and instructions.
-/
namespace JarRefinery.Xml

/-- An attribute as written. -/
structure Attribute where
  name : String
  place : Place
  value : List Scan.Piece
deriving Repr

inductive Token where
  | text (chars : List Char)
  | reference (reference : Scan.Reference)
  | startTag (name : String) (attributes : List Attribute) (isEmpty : Bool)
  | endTag (name : String) (namePlace : Place)
  | comment
  | instruction (instruction : Scan.Instruction)
deriving Repr

namespace Token

/-- Attributes and the end of a start tag: whether the element is empty. Attributes are separated by
blanks. -/
def attributes (sofar : List Attribute) : (fuel : Nat) → Scan (List Attribute × Bool)
  | 0 => throw .unfinished
  | fuel + 1 => do
    let hasBlank := isSpace (← Scan.peek)
    Scan.skipSpaces
    match ← Scan.peek with
    | '>' => do
      Scan.advance
      pure (sofar.reverse, false)
    | '/' => do
      Scan.advance
      Scan.expect '>'
      pure (sofar.reverse, true)
    | _ => do
      if !hasBlank then Scan.refuse
      let place ← Scan.place
      let name ← Scan.qualifiedName
      Scan.skipSpaces
      Scan.expect '='
      Scan.skipSpaces
      let value ← Scan.quotedValue
      attributes (⟨name, place, value⟩ :: sofar) fuel

def scanStartTag : Scan Token := do
  let name ← Scan.qualifiedName
  let (attributes, isEmpty) ← attributes [] ((← get).rest.length + 1)
  pure (.startTag name attributes isEmpty)

/-- A name with colons anywhere but at its beginning. -/
def endName : Scan String := do
  if !isNameStart (← Scan.peek) then Scan.refuse
  return String.ofList (← Scan.takeWhile fun c => isNameChar c || c == ':')

def scanEndTag : Scan Token := do
  let place ← Scan.place
  let name ← endName
  Scan.skipSpaces
  Scan.expect '>'
  pure (.endTag name place)

/-- A section ends where its last brackets could still be closed. -/
def unclosedSection (place : Place) : List Char → Place
  | [] => place
  | ['\r'] => place
  | [']'] => place
  | [']', ']'] => place
  | c :: rest => unclosedSection (place.after c rest.head?) rest

/-- Reads up to the end of a section of character data. -/
def untilSectionEnd (start : Cursor) (sofar : List (List Char)) : (fuel : Nat) → Scan (List Char)
  | 0 => throw .unfinished
  | fuel + 1 => do
    let chars ← Scan.takeWhile fun c => c != ']' && isXmlChar c
    match (← get).rest with
    | [] => throw (.broken ⟨.unclosedCdata, unclosedSection start.place start.rest⟩)
    | ']' :: ']' :: '>' :: _ => do
      Scan.advance
      Scan.advance
      Scan.advance
      pure (chars :: sofar).reverse.flatten
    | ']' :: _ => do
      Scan.advance
      untilSectionEnd start ([']'] :: chars :: sofar) fuel
    | _ => Scan.refuse

def sectionWord : List Char := ['C', 'D', 'A', 'T', 'A', '[']

/-- A section in which nothing is markup. -/
def charSection : Scan Token := do
  if (← get).rest.length < sectionWord.length then throw .unfinished
  sectionWord.forM Scan.expect
  let start ← get
  return .text (Text.unifyLineEnds (← untilSectionEnd start [] (start.rest.length + 1)))

/-- What follows an angle bracket. -/
def markup : Scan Token := do
  match ← Scan.peek with
  | '!' => do
    Scan.advance
    match ← Scan.peek with
    | '-' => do
      Scan.advance
      Scan.comment
      pure .comment
    | '[' => do
      Scan.advance
      charSection
    | _ => Scan.refuse
  | '?' => do
    Scan.advance
    return .instruction (← Scan.instruction)
  | '/' => do
    Scan.advance
    scanEndTag
  | _ => scanStartTag

/-- Character data up to the next markup. Two brackets may not be followed by an angle bracket. -/
def charData (sofar : List (List Char)) : (fuel : Nat) → Scan (List Char)
  | 0 => throw .unfinished
  | fuel + 1 => do
    let chars ← Scan.takeWhile fun c => c != '<' && c != '&' && c != ']' && isXmlChar c
    match (← get).rest with
    | ']' :: ']' :: '>' :: _ => do
      Scan.advance
      Scan.advance
      Scan.refuse
    | ']' :: _ => do
      Scan.advance
      charData ([']'] :: chars :: sofar) fuel
    | [] => pure (chars :: sofar).reverse.flatten
    | c :: _ =>
      if isXmlChar c then pure (chars :: sofar).reverse.flatten else Scan.refuse

def scan : Scan Token := do
  match ← Scan.peek with
  | '<' => do
    Scan.advance
    markup
  | '&' => do
    Scan.advance
    return .reference (← Scan.reference)
  | _ =>
    return .text (Text.unifyLineEnds (← charData [] ((← get).rest.length + 1)))

end Token

end JarRefinery.Xml
