import JarRefinery.Xml.Scan

/-!
What a document type declares, and the values that attributes get from it. Entities stand for a text
of their own, or for something outside of the document, which is never read.
-/
namespace JarRefinery.Xml

inductive EntityBody where
  | internal (text : List Char)
  | external
  | unparsed
deriving Repr

/-- The value that an attribute of an element has if it is left out. -/
structure DefaultValue where
  element : String
  name : String
  value : List Char
deriving Repr

/-- The declarations read. `isPartial` tells that there are further ones outside of the document. -/
structure Dtd where
  entities : List (String × EntityBody) := []
  defaults : List DefaultValue := []
  isPartial : Bool := false
  isStandalone : Bool := false
  /-- Whether declarations still count: they may be overridden by ones that were not read. -/
  isRead : Bool := true
deriving Repr

namespace Dtd

/-- The characters that can be referred to without a declaration. -/
def predefined : List (String × Char) :=
  [("lt", '<'), ("gt", '>'), ("amp", '&'), ("quot", '\x22'), ("apos", '\x27')]

/-- The first declaration of an entity counts. -/
def declare (dtd : Dtd) (name : String) (body : EntityBody) : Dtd :=
  if !dtd.isRead || (predefined.lookup name).isSome || (dtd.entities.lookup name).isSome then dtd
  else { dtd with entities := dtd.entities ++ [(name, body)] }

def declareDefault (dtd : Dtd) (value : DefaultValue) : Dtd :=
  let isDeclared := dtd.defaults.any fun other =>
    other.element = value.element && other.name = value.name
  if !dtd.isRead || isDeclared then dtd else { dtd with defaults := dtd.defaults ++ [value] }

/-- What a reference in an attribute or in content stands for. An entity that is not declared here
may be declared elsewhere. -/
inductive Meaning where
  | char (c : Char)
  | entity (body : EntityBody)
  | unknown
deriving Repr

/-- The meaning of a reference, with the entities `opened` that it stands in. -/
def meaning (dtd : Dtd) (opened : List String) : Scan.Reference → Except FlawKind Meaning
  | .char none => .error .badCharacterReference
  | .char (some c) => .ok (.char c)
  | .entity name =>
    match predefined.lookup name with
    | some c => .ok (.char c)
    | none =>
      match dtd.entities.lookup name with
      | none =>
        if dtd.isPartial && !dtd.isStandalone then .ok .unknown
        else .error (.undefinedEntity "")
      | some body =>
        if opened.contains name then .error .recursiveEntity
        else match body with
          | .unparsed => .error .binaryEntityReference
          | body => .ok (.entity body)

/-- A blank of a value as written: line ends are one blank each. -/
def blankOf (c : Char) (next : Option Scan.Piece) : List Char :=
  match c, next with
  | '\r', some (.literal '\n') => []
  | c, _ => if isSpace c then [' '] else [c]

/-- What is wrong with a reference in a value that `owner` begins with: what is not declared is told
of at the owner. -/
def referenceFlaw (owner place : Place) (kind : FlawKind) : Flaw :=
  match kind with
  | .undefinedEntity _ => ⟨kind, owner⟩
  | _ => ⟨kind, place⟩

/-- What is wrong with the text of an entity in a value. -/
def insideKind : ScanFlaw → FlawKind
  | .unfinished => .invalidToken
  | .broken flaw => flaw.kind

/-- The value that pieces give; `owner` is where the tag or literal begins that they are from.
Entities stand one in the other only if they differ, `depth` of them at most. -/
def valueOf (dtd : Dtd) (owner : Place) : (depth : Nat) → (opened : List String) →
    List Scan.Piece → Except Flaw (List Char)
  | _, _, [] => .ok []
  | depth, opened, .literal c :: rest => do
    return blankOf c rest.head? ++ (← valueOf dtd owner depth opened rest)
  | depth, opened, .reference reference place :: rest => do
    let flawed := referenceFlaw owner place
    let inside (kind : FlawKind) : Flaw := ⟨kind, owner⟩
    let part ← match ← (dtd.meaning opened reference).mapError flawed with
      | .char c => pure [c]
      | .unknown => pure []
      | .entity .external | .entity .unparsed => throw (flawed .externalEntityInAttribute)
      | .entity (.internal text) =>
        match depth, reference with
        | depth + 1, .entity name =>
          let scan := Scan.pieces (fun _ => false) Scan.isAngle [] (text.length + 1)
          let (pieces, _) ← (StateT.run scan (.start text)).mapError (inside ∘ insideKind)
          (valueOf dtd owner depth (name :: opened) pieces).mapError (inside ∘ Flaw.kind)
        | _, _ => throw (flawed .recursiveEntity)
    return part ++ (← valueOf dtd owner depth opened rest)
termination_by depth _ pieces => (depth, pieces.length)

/-- How deep entities can be nested. -/
def depth (dtd : Dtd) : Nat :=
  dtd.entities.length + 1

/-- The value of an attribute in the tag or literal that begins at `owner`. -/
def attributeValue (dtd : Dtd) (owner : Place) (pieces : List Scan.Piece) :
    Except Flaw (List Char) :=
  dtd.valueOf owner dtd.depth [] pieces

end Dtd

end JarRefinery.Xml
