import JarRefinery.Xml.Flaw
import JarRefinery.Xml.NameChar

/-!
Scanning: reading the parts that tokens of a document consist of. A scan ends with what it read, or
because the text ends too early, or because a character does not belong where it stands.
-/
namespace JarRefinery.Xml

/-- What is left of a text, and where that begins. -/
structure Cursor where
  rest : List Char
  place : Place
deriving Repr

/-- The place after a character, which `next` follows. -/
def Place.after (place : Place) (c : Char) (next : Option Char) : Place :=
  if c = '\n' then ⟨place.line + 1, 0⟩
  else if c = '\r' then
    if next = some '\n' then place else ⟨place.line + 1, 0⟩
  else ⟨place.line, place.column + 1⟩

namespace Cursor

def start (text : List Char) : Cursor :=
  ⟨text, ⟨1, 0⟩⟩

def next (cursor : Cursor) : Cursor :=
  match cursor.rest with
  | [] => cursor
  | c :: rest => ⟨rest, cursor.place.after c rest.head?⟩

/-- The characters up to the first that `p` does not hold of, in front of those `taken` before. -/
def spanFrom (p : Char → Bool) (place : Place) : (taken : List Char) → List Char →
    List Char × Cursor
  | taken, [] => (taken.reverse, ⟨[], place⟩)
  | taken, c :: rest =>
    if p c then spanFrom p (place.after c rest.head?) (c :: taken) rest
    else (taken.reverse, ⟨c :: rest, place⟩)

def span (p : Char → Bool) (cursor : Cursor) : List Char × Cursor :=
  spanFrom p cursor.place [] cursor.rest

end Cursor

/-- Why nothing could be read. -/
inductive ScanFlaw where
  | unfinished
  | broken (flaw : Flaw)
deriving Repr

abbrev Scan := StateT Cursor (Except ScanFlaw)

namespace Scan

variable {α : Type}

def place : Scan Place :=
  return (← get).place

def peek? : Scan (Option Char) :=
  return (← get).rest.head?

def peek : Scan Char := do
  match ← peek? with
  | some c => pure c
  | none => throw .unfinished

def advance : Scan Unit :=
  modify Cursor.next

def fail (kind : FlawKind) : Scan α := do
  throw (.broken ⟨kind, ← place⟩)

/-- Refuses the character that is next. -/
def refuse : Scan α :=
  fail .invalidToken

def takeWhile (p : Char → Bool) : Scan (List Char) :=
  modifyGet (Cursor.span p)

def skipSpaces : Scan Unit := do
  let _ ← takeWhile isSpace

/-- The character `c` must be next. -/
def expect (c : Char) : Scan Unit := do
  if (← peek) = c then advance else refuse

/-- A name without colons. -/
def plainName : Scan (List Char) := do
  if !isNameStart (← peek) then refuse
  takeWhile isNameChar

/-- A name that may have one colon inside. -/
def qualifiedName : Scan String := do
  let first ← plainName
  if (← peek?) = some ':' then
    advance
    return String.ofList (first ++ ':' :: (← plainName))
  return String.ofList first

/-- A reference to a character, if it is one, or to an entity. -/
inductive Reference where
  | char (c : Option Char)
  | entity (name : String)
deriving Repr

def digitValue (c : Char) : Nat :=
  if c.isDigit then c.toNat - 48 else c.toLower.toNat - 87

/-- The character of this number, if a document may hold it. -/
def charOf (n : Nat) : Option Char :=
  if n.isValidChar ∧ isXmlChar (Char.ofNat n) then some (Char.ofNat n) else none

def digits (base : Nat) (isDigit : Char → Bool) : Scan Reference := do
  if !isDigit (← peek) then refuse
  let digits ← takeWhile isDigit
  expect ';'
  pure (.char (charOf (digits.foldl (fun n c => base * n + digitValue c) 0)))

def isHexDigit (c : Char) : Bool :=
  c.isDigit || ('a' ≤ c && c ≤ 'f') || ('A' ≤ c && c ≤ 'F')

/-- What follows an ampersand. -/
def reference : Scan Reference := do
  if (← peek) = '#' then
    advance
    if (← peek) = 'x' then
      advance
      digits 16 isHexDigit
    else digits 10 Char.isDigit
  else
    let name ← plainName
    expect ';'
    pure (.entity (String.ofList name))

/-- What follows the hyphen that opens a comment. -/
def comment : Scan Unit := do
  expect '-'
  untilHyphens ((← get).rest.length + 1)
where
  /-- Reads up to two hyphens, which must end the comment. -/
  untilHyphens : (fuel : Nat) → Scan Unit
    | 0 => throw .unfinished
    | fuel + 1 => do
      let _ ← takeWhile fun c => c != '-' && isXmlChar c
      expect '-'
      if (← peek) = '-' then
        advance
        expect '>'
      else untilHyphens fuel

/-- What an instruction is: one for some application, or the declaration of the document itself with
where its contents begin. -/
inductive Instruction where
  | application
  | declaration (contents : Place) (text : List Char)
deriving Repr

/-- Reads up to a question mark with an angle bracket after it. -/
def untilMark (sofar : List (List Char)) : (fuel : Nat) → Scan (List Char)
  | 0 => throw .unfinished
  | fuel + 1 => do
    let chars ← takeWhile fun c => c != '?' && isXmlChar c
    expect '?'
    if (← peek) = '>' then
      advance
      pure (chars :: sofar).reverse.flatten
    else untilMark (['?'] :: chars :: sofar) fuel

/-- What follows the question mark that opens an instruction. -/
def instruction : Scan Instruction := do
  let target ← plainName
  let next ← peek
  if !isSpace next && next != '?' then refuse
  let isReserved := target.map Char.toLower = ['x', 'm', 'l']
  if isReserved && target != ['x', 'm', 'l'] then refuse
  let contents ← place
  let text ←
    if next = '?' then do
      advance
      expect '>'
      pure []
    else untilMark [] ((← get).rest.length + 1)
  pure (if isReserved then .declaration contents text else .application)

/-- A part of the value of an attribute or entity. -/
inductive Piece where
  | literal (c : Char)
  | reference (reference : Reference) (place : Place)
deriving Repr

/-- The parts of a value. It ends before a character that `ends` holds of, or with the text if there
is none. -/
def pieces (ends : Char → Bool) (refused : Char → Bool) (sofar : List Piece) :
    (fuel : Nat) → Scan (List Piece)
  | 0 => pure sofar.reverse
  | fuel + 1 => do
    match ← peek? with
    | none => pure sofar.reverse
    | some c =>
      if ends c then pure sofar.reverse
      else if refused c || !isXmlChar c then refuse
      else if c = '&' then
        let start ← place
        advance
        let reference ← reference
        pieces ends refused (.reference reference start :: sofar) fuel
      else
        advance
        pieces ends refused (.literal c :: sofar) fuel

def isAngle (c : Char) : Bool :=
  c == '<'

/-- The value of an attribute up to its closing quote. -/
def quotedValue : Scan (List Piece) := do
  let quote ← peek
  if quote != '\x22' && quote != '\x27' then refuse
  advance
  let pieces ← pieces (· == quote) isAngle [] ((← get).rest.length + 1)
  expect quote
  pure pieces

/-- Runs a scan at a cursor. A token that the text ends in is told of where it begins. -/
def run (scan : Scan α) (cursor : Cursor) : Except Flaw (α × Cursor) :=
  match StateT.run scan cursor with
  | .ok result => .ok result
  | .error .unfinished => .error ⟨.unclosedToken, cursor.place⟩
  | .error (.broken flaw) => .error flaw

end Scan

end JarRefinery.Xml
