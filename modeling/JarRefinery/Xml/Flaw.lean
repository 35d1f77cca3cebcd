/-!
What keeps a text from being an XML document, and where.
-/
namespace JarRefinery.Xml

inductive FlawKind where
  | syntaxError
  | noElement
  | invalidToken
  | unclosedToken
  | partialCharacter
  | mismatchedTag
  | duplicateAttribute
  | junkAfterDocument
  | undefinedEntity (name : String)
  | recursiveEntity
  | asyncEntity
  | badCharacterReference
  | binaryEntityReference
  | illegalParameterReference
  | externalEntityInAttribute
  | misplacedDeclaration
  | unclosedCdata
  | unboundName
  | undeclaringName
  | reservedXml
  | reservedXmlns
  | reservedUri
  | badDeclaration
  | badPublicId
deriving DecidableEq, Repr

def FlawKind.message : FlawKind → String
  | syntaxError => "syntax error"
  | noElement => "no element found"
  | invalidToken => "not well-formed (invalid token)"
  | unclosedToken => "unclosed token"
  | partialCharacter => "partial character"
  | mismatchedTag => "mismatched tag"
  | duplicateAttribute => "duplicate attribute"
  | junkAfterDocument => "junk after document element"
  | undefinedEntity name =>
    if name.isEmpty then "undefined entity" else "undefined entity &" ++ name ++ ";"
  | recursiveEntity => "recursive entity reference"
  | asyncEntity => "asynchronous entity"
  | badCharacterReference => "reference to invalid character number"
  | binaryEntityReference => "reference to binary entity"
  | illegalParameterReference => "illegal parameter entity reference"
  | externalEntityInAttribute => "reference to external entity in attribute"
  | misplacedDeclaration => "XML or text declaration not at start of entity"
  | unclosedCdata => "unclosed CDATA section"
  | unboundName => "unbound prefix"
  | undeclaringName => "must not undeclare prefix"
  | reservedXml => "reserved prefix (xml) must not be undeclared or bound to another namespace name"
  | reservedXmlns => "reserved prefix (xmlns) must not be declared or undeclared"
  | reservedUri => "prefix must not be bound to one of the reserved namespace names"
  | badDeclaration => "XML declaration not well-formed"
  | badPublicId => "illegal character(s) in public id"

/-- A place in a text: the line, counted from one, and the column in it, counted from zero. -/
structure Place where
  line : Nat
  column : Nat
deriving DecidableEq, Repr

structure Flaw where
  kind : FlawKind
  place : Place
deriving DecidableEq, Repr

def Flaw.message (flaw : Flaw) : String :=
  flaw.kind.message ++ ": line " ++ toString flaw.place.line ++ ", column " ++
    toString flaw.place.column

end JarRefinery.Xml
