import JarRefinery.Text.Lines
import JarRefinery.Xml.Dtd
import JarRefinery.Xml.PrologToken

/-!
The prolog of a document: its own declaration, and the declarations of its type. Parameter entities
are not expanded; after a reference to one it is not known which further declarations count.
-/
namespace JarRefinery.Xml

/-- What is left to read and what was declared so far. -/
structure PrologState where
  cursor : Cursor
  dtd : Dtd

abbrev Prolog := StateT PrologState (Except Flaw)

namespace Prolog

variable {α : Type}

def scan (scan : Scan α) : Prolog α := do
  let state ← get
  let (result, cursor) ← scan.run state.cursor
  set { state with cursor }
  pure result

def modifyDtd (change : Dtd → Dtd) : Prolog Unit :=
  modify fun state => { state with dtd := change state.dtd }

/-- The next token, blanks aside, and where it begins. -/
def next : Prolog (PrologToken × Place) := do
  scan Scan.skipSpaces
  let cursor := (← get).cursor
  if cursor.rest.isEmpty then throw ⟨.noElement, cursor.place⟩
  let token ← scan PrologToken.scan
  pure (token, cursor.place)

/-- The flaw of a token that does not belong where it stands. -/
def misplaced : PrologToken × Place → Flaw
  | (.parameterReference, place) => ⟨.illegalParameterReference, place⟩
  | (.instruction (.declaration _ _), place) => ⟨.misplacedDeclaration, place⟩
  | (_, place) => ⟨.syntaxError, place⟩

def refuse (token : PrologToken × Place) : Prolog α :=
  throw (misplaced token)

def name : Prolog String := do
  match ← next with
  | (.name text _, _) => pure text
  | token => refuse token

def nameWithoutColon : Prolog String := do
  match ← next with
  | (.name text false, _) => pure text
  | token => refuse token

def literal : Prolog Cursor := do
  match ← next with
  | (.literal contents, _) => pure contents
  | token => refuse token

def closeDeclaration : Prolog Unit := do
  match ← next with
  | (.declarationClose, _) => pure ()
  | token => refuse token

def isPublicChar (c : Char) : Bool :=
  c.isAlphanum || " \r\n-'()+,./:=?;!*#@$_%".contains c

/-- A literal that names something publicly. -/
def publicLiteral : Prolog Unit := do
  let contents ← literal
  let (_, rest) := contents.span isPublicChar
  if !rest.rest.isEmpty then throw ⟨.badPublicId, rest.place⟩

/-- Where the last reference in a text begins. -/
def lastReference (begun : Place) (place : Place) : List Char → Place
  | [] => begun
  | c :: rest =>
    lastReference (if c = '&' ∨ c = '%' then place else begun) (place.after c rest.head?) rest

/-- A scan of the contents of a literal; a reference that they end in is not well formed. -/
def scanLiteral (scan : Scan α) (contents : Cursor) : Prolog α :=
  match StateT.run scan contents with
  | .ok (result, _) => pure result
  | .error .unfinished =>
    throw ⟨.invalidToken, lastReference contents.place contents.place contents.rest⟩
  | .error (.broken flaw) => throw flaw

/-- The text of an entity: references to characters are replaced, those to entities stay. -/
def entityChars : List Scan.Piece → Except Flaw (List Char)
  | [] => .ok []
  | .literal c :: rest => do
    return c :: (← entityChars rest)
  | .reference (.char none) place :: _ => .error ⟨.badCharacterReference, place⟩
  | .reference (.char (some c)) _ :: rest => do
    return c :: (← entityChars rest)
  | .reference (.entity name) _ :: rest => do
    return '&' :: name.toList ++ ';' :: (← entityChars rest)

/-- Refuses a reference to a parameter entity, and a percent sign that is none. -/
def percentFlaw : Scan Unit := do
  let place ← Scan.place
  Scan.advance
  match ← PrologToken.scanPercent with
  | .percent => throw (.broken ⟨.invalidToken, place⟩)
  | _ => throw (.broken ⟨.illegalParameterReference, place⟩)

/-- The parts of the value of an entity. -/
def entityPieces : Scan (List Scan.Piece) := do
  let pieces ← Scan.pieces (· == '%') (fun _ => false) [] ((← get).rest.length + 1)
  if (← Scan.peek?).isSome then percentFlaw
  pure pieces

/-- The value of an entity. It is not looked at where declarations do not count. -/
def entityValue (contents : Cursor) : Prolog (List Char) := do
  if !(← get).dtd.isRead then return []
  let pieces ← scanLiteral entityPieces contents
  let chars ← entityChars pieces
  pure (Text.unifyLineEnds chars)

/-- The address of something outside; the word before it is `SYSTEM` or `PUBLIC`. -/
def externalId (keyword : String) (token : PrologToken × Place) : Prolog Unit := do
  if keyword = "PUBLIC" then publicLiteral
  else if keyword != "SYSTEM" then refuse token
  let _ ← literal

/-- A parameter entity: it is never used. -/
def parameterEntity : Prolog Unit := do
  let _ ← nameWithoutColon
  match ← next with
  | (.literal contents, _) => do
    let _ ← entityValue contents
  | (.name keyword false, place) => externalId keyword (.name keyword false, place)
  | token => refuse token
  closeDeclaration

/-- The end of the declaration of an entity outside, which may name a notation. -/
def externalEntity (entity : String) : Prolog Unit := do
  match ← next with
  | (.declarationClose, _) => modifyDtd (·.declare entity .external)
  | (.name "NDATA" _, _) => do
    let _ ← nameWithoutColon
    modifyDtd (·.declare entity .unparsed)
    closeDeclaration
  | token => refuse token

def entityDeclaration : Prolog Unit := do
  match ← next with
  | (.percent, _) => parameterEntity
  | (.name entity false, _) => do
    match ← next with
    | (.literal contents, _) => do
      let value ← entityValue contents
      modifyDtd (·.declare entity (.internal value))
      closeDeclaration
    | (.name keyword hasColon, place) => do
      externalId keyword (.name keyword hasColon, place)
      externalEntity entity
    | token => refuse token
  | token => refuse token

def notationDeclaration : Prolog Unit := do
  let _ ← nameWithoutColon
  match ← next with
  | (.name "SYSTEM" _, _) => do
    let _ ← literal
    closeDeclaration
  | (.name "PUBLIC" _, _) => do
    publicLiteral
    match ← next with
    | (.literal _, _) => closeDeclaration
    | (.declarationClose, _) => pure ()
    | token => refuse token
  | token => refuse token

/-- Names in parentheses with bars between them. -/
def choices (isName : PrologToken → Bool) : (fuel : Nat) → Prolog Unit
  | 0 => pure ()
  | fuel + 1 => do
    let token ← next
    if !isName token.1 then refuse token
    match ← next with
    | (.bar, _) => choices isName fuel
    | (.closeParen none, _) => pure ()
    | token => refuse token

def isPlainName : PrologToken → Bool
  | .name _ hasColon => !hasColon
  | _ => false

def isAnyName : PrologToken → Bool
  | .name _ _ | .nameToken => true
  | _ => false

/-- More than the number of tokens that are left. -/
def sizeLeft : Prolog Nat :=
  return (← get).cursor.rest.length + 1

def attributeTypes : List String :=
  ["CDATA", "ID", "IDREF", "IDREFS", "ENTITY", "ENTITIES", "NMTOKEN", "NMTOKENS"]

def attributeType : Prolog Unit := do
  match ← next with
  | (.openParen, _) => choices isAnyName (← sizeLeft)
  | (.name text hasColon, place) =>
    if text = "NOTATION" then
      match ← next with
      | (.openParen, _) => choices isPlainName (← sizeLeft)
      | token => refuse token
    else if !attributeTypes.contains text then refuse (.name text hasColon, place)
  | token => refuse token

/-- A value for an attribute that is left out. -/
def defaultValue (element attribute_ : String) (contents : Cursor) : Prolog Unit := do
  let dtd := (← get).dtd
  if dtd.isRead then
    let pieces ← scanLiteral
      (Scan.pieces (fun _ => false) Scan.isAngle [] (contents.rest.length + 1)) contents
    let quote := contents.place.column - 1
    let value ← dtd.attributeValue { contents.place with column := quote } pieces
    modifyDtd (·.declareDefault ⟨element, attribute_, value⟩)

/-- What an attribute has if it is left out. -/
def attributeDefault (element attribute_ : String) : Prolog Unit := do
  match ← next with
  | (.poundName "IMPLIED", _) | (.poundName "REQUIRED", _) => pure ()
  | (.poundName "FIXED", _) => do
    defaultValue element attribute_ (← literal)
  | (.literal contents, _) => defaultValue element attribute_ contents
  | token => refuse token

/-- The attributes that a declaration lists. -/
def attributeDeclarations (element : String) : (fuel : Nat) → Prolog Unit
  | 0 => pure ()
  | fuel + 1 => do
    match ← next with
    | (.declarationClose, _) => pure ()
    | (.name attribute_ _, _) => do
      attributeType
      attributeDefault element attribute_
      attributeDeclarations element fuel
    | token => refuse token

/-- Names after character data, with bars in front of them. -/
def mixedNames : (fuel : Nat) → Prolog Unit
  | 0 => pure ()
  | fuel + 1 => do
    let _ ← name
    match ← next with
    | (.bar, _) => mixedNames fuel
    | (.closeParen (some '*'), _) => pure ()
    | token => refuse token

def mixedContent : Prolog Unit := do
  match ← next with
  | (.closeParen none, _) | (.closeParen (some '*'), _) => pure ()
  | (.bar, _) => mixedNames (← sizeLeft)
  | token => refuse token

def isContentName : PrologToken → Bool
  | .name _ _ | .markedName => true
  | _ => false

/-- A content model from an item on; each open group has one kind of separator. -/
def groupItems (separators : List (Option Char)) : (fuel : Nat) → (token : PrologToken × Place) →
    Prolog Unit
  | 0, _ => pure ()
  | fuel + 1, token => do
    match token.1 with
    | .openParen => groupItems (none :: separators) fuel (← next)
    | item => do
      if !isContentName item then refuse token
      afterItem separators fuel
where
  separate (kind : Char) (separators : List (Option Char)) (token : PrologToken × Place) :
      Prolog (List (Option Char)) := do
    match separators with
    | separator :: rest =>
      if separator.getD kind = kind then pure (some kind :: rest) else refuse token
    | [] => refuse token
  afterItem (separators : List (Option Char)) : (fuel : Nat) → Prolog Unit
    | 0 => pure ()
    | fuel + 1 => do
      match ← next with
      | (.closeParen _, _) =>
        if separators.length ≤ 1 then pure () else afterItem separators.tail fuel
      | (.comma, place) => do
        groupItems (← separate ',' separators (.comma, place)) fuel (← next)
      | (.bar, place) => do
        groupItems (← separate '|' separators (.bar, place)) fuel (← next)
      | token => refuse token

def elementDeclaration : Prolog Unit := do
  let _ ← name
  match ← next with
  | (.name "EMPTY" _, _) | (.name "ANY" _, _) => pure ()
  | (.openParen, _) => do
    match ← next with
    | (.poundName "PCDATA", _) => mixedContent
    | token => groupItems [none] (← sizeLeft) token
  | token => refuse token
  closeDeclaration

/-- The declarations up to the closing bracket. -/
def declarations : (fuel : Nat) → Prolog Unit
  | 0 => pure ()
  | fuel + 1 => do
    match ← next with
    | (.closeBracket, _) => pure ()
    | (.comment, _) | (.instruction .application, _) => declarations fuel
    | (.parameterReference, _) => do
      modifyDtd fun dtd => { dtd with isPartial := true, isRead := dtd.isStandalone }
      declarations fuel
    | (.declarationOpen "ENTITY", _) => do
      entityDeclaration
      declarations fuel
    | (.declarationOpen "ATTLIST", _) => do
      attributeDeclarations (← name) (← sizeLeft)
      declarations fuel
    | (.declarationOpen "ELEMENT", _) => do
      elementDeclaration
      declarations fuel
    | (.declarationOpen "NOTATION", _) => do
      notationDeclaration
      declarations fuel
    | token => refuse token

/-- The rest of the declaration of a type, after its opening. -/
def documentType : Prolog Unit := do
  let _ ← name
  let token ← next
  let token ← match token with
    | (.name keyword hasColon, place) => do
      externalId keyword (.name keyword hasColon, place)
      modifyDtd fun dtd => { dtd with isPartial := true }
      next
    | token => pure token
  match token with
  | (.declarationClose, _) => pure ()
  | (.openBracket, _) => do
    declarations (← sizeLeft)
    closeDeclaration
  | token => refuse token

/-- Whatever may stand in front of the first element; `typed` tells that the type was declared. -/
def miscellany (typed : Bool) : (fuel : Nat) → Prolog Unit
  | 0 => pure ()
  | fuel + 1 => do
    match ← next with
    | (.elementStart, _) => pure ()
    | (.comment, _) | (.instruction .application, _) => miscellany typed fuel
    | (.declarationOpen keyword, place) => do
      if typed || keyword != "DOCTYPE" then refuse (.declarationOpen keyword, place)
      documentType
      miscellany true fuel
    | token => refuse token

end Prolog

end JarRefinery.Xml
