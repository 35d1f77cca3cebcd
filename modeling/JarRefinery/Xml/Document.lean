import JarRefinery.Xml.Declaration
import JarRefinery.Xml.Element
import JarRefinery.Xml.Prolog
import JarRefinery.Xml.Token

/-!
Documents: one element, with a prolog in front of it and nothing but comments and instructions after
it. Elements are closed in the order opposite to that in which they were opened, an entity holds
whole elements only, and the parts of names in front of a colon must be bound to namespaces.
-/
namespace JarRefinery.Xml

/-- The namespaces that parts of names are bound to; the empty one stands for no such part. -/
abbrev Bindings := List (String × String)

def xmlNamespace : String := "http://www.w3.org/XML/1998/namespace"
def xmlnsNamespace : String := "http://www.w3.org/2000/xmlns/"

def Bindings.start : Bindings := [("xml", xmlNamespace)]

/-- An element whose end is not read yet. -/
structure OpenElement where
  written : String
  name : String
  text : List (List Char)
  children : List Element
  bindings : Bindings

namespace OpenElement

def close (element : OpenElement) : Element :=
  .mk element.name element.text.reverse.flatten element.children.reverse

/-- Only text before the first child counts. -/
def addText (element : OpenElement) (chars : List Char) : OpenElement :=
  if element.children.isEmpty then { element with text := chars :: element.text } else element

def addChild (element : OpenElement) (child : Element) : OpenElement :=
  { element with children := child :: element.children }

end OpenElement

/-- The open elements, the innermost first, and the element of the document once it is closed. -/
structure Builder where
  opened : List OpenElement := []
  root : Option Element := none

namespace Builder

def addText (builder : Builder) (chars : List Char) : Builder :=
  match builder.opened with
  | [] => builder
  | element :: rest => { builder with opened := element.addText chars :: rest }

/-- The bindings where the next element begins. -/
def bindings (builder : Builder) : Bindings :=
  match builder.opened with
  | [] => .start
  | element :: _ => element.bindings

/-- Closes the innermost element. -/
def close (builder : Builder) : Builder :=
  match builder.opened with
  | [] => builder
  | [element] => ⟨[], some element.close⟩
  | element :: outer :: rest => { builder with opened := outer.addChild element.close :: rest }

end Builder

namespace Namespace

/-- A name and the part in front of its colon. -/
def split (name : String) : Option String × String :=
  match name.splitOn ":" with
  | [space, localName] => (some space, localName)
  | _ => (none, name)

/-- What an attribute binds, if it is for that. -/
def boundBy? (attribute_ : String) : Option String :=
  if attribute_ = "xmlns" then some ""
  else match split attribute_ with
    | (some "xmlns", localName) => some localName
    | _ => none

/-- Binds a part of names to a namespace. The brace that ends namespaces in names is no character of
addresses. -/
def bind (bindings : Bindings) (space uri : String) : Except FlawKind Bindings :=
  let isXml := uri = xmlNamespace
  if uri.isEmpty ∧ !space.isEmpty then .error .undeclaringName
  else if space = "xmlns" then .error .reservedXmlns
  else if space = "xml" ∧ !isXml then .error .reservedXml
  else if space ≠ "xml" ∧ isXml then .error .reservedUri
  else if uri = xmlnsNamespace then .error .reservedUri
  else if uri.contains '}' then .error .syntaxError
  else .ok ((space, uri) :: bindings)

/-- A name with its namespace in braces, if it is in one. -/
def expand (bindings : Bindings) (isAttribute : Bool) (name : String) : Except FlawKind String :=
  let braced (uri localName : String) :=
    if uri.isEmpty then localName else "\x7b" ++ uri ++ "\x7d" ++ localName
  match split name with
  | (some space, localName) =>
    match bindings.lookup space with
    | some uri => .ok (braced uri localName)
    | none => .error .unboundName
  | (none, localName) =>
    .ok (if isAttribute then localName else braced ((bindings.lookup "").getD "") localName)

end Namespace

namespace Document

/-- Attributes as they count: with the values that they bind namespaces to, if they do. -/
structure Attributes where
  written : List String
  bindings : Bindings

/-- Reads the attributes of a tag at `place` one after the other. -/
def readAttributes (dtd : Dtd) (place : Place) : Attributes → List Attribute →
    Except Flaw Attributes
  | sofar, [] => .ok sofar
  | sofar, next :: rest => do
    if sofar.written.contains next.name then throw ⟨.duplicateAttribute, next.place⟩
    let value ← dtd.attributeValue place next.value
    let bindings ← match Namespace.boundBy? next.name with
      | none => pure sofar.bindings
      | some space =>
        (Namespace.bind sofar.bindings space (String.ofList value)).mapError (⟨·, place⟩)
    readAttributes dtd place ⟨sofar.written ++ [next.name], bindings⟩ rest

/-- Adds the attributes that are left out in a tag and have a value declared. -/
def addDefaults (place : Place) : Attributes → List DefaultValue → Except Flaw Attributes
  | sofar, [] => .ok sofar
  | sofar, next :: rest => do
    if sofar.written.contains next.name then addDefaults place sofar rest
    else
      let bindings ← match Namespace.boundBy? next.name with
        | none => pure sofar.bindings
        | some space =>
          (Namespace.bind sofar.bindings space (String.ofList next.value)).mapError (⟨·, place⟩)
      addDefaults place ⟨sofar.written ++ [next.name], bindings⟩ rest

/-- Refuses two attributes of one name in one namespace. -/
def checkExpanded (bindings : Bindings) : (seen : List String) → List String →
    Except FlawKind Unit
  | _, [] => .ok ()
  | seen, name :: rest => do
    let expanded ← Namespace.expand bindings true name
    if seen.contains expanded then throw .duplicateAttribute
    checkExpanded bindings (expanded :: seen) rest

/-- The element that a start tag at `place` opens. -/
def openElement (dtd : Dtd) (bindings : Bindings) (place : Place) (name : String)
    (attributes : List Attribute) : Except Flaw OpenElement := do
  let read ← readAttributes dtd place ⟨[], bindings⟩ attributes
  let defaults := dtd.defaults.filter (·.element = name)
  let read ← addDefaults place read defaults
  let flawed (kind : FlawKind) : Flaw := ⟨kind, place⟩
  let named := read.written.filter fun name =>
    (Namespace.boundBy? name).isNone && (Namespace.split name).1.isSome
  (checkExpanded read.bindings [] named).mapError flawed
  let expanded ← (Namespace.expand read.bindings false name).mapError flawed
  pure ⟨name, expanded, [], [], read.bindings⟩

/-- Reads content until the root is closed, or, within an entity, until its text ends. `base` is the
number of elements that were open before the entity, and `depth` bounds how deep entities are
nested. -/
def content (dtd : Dtd) : (depth : Nat) → (opened : List String) → (base : Nat) → (fuel : Nat) →
    Cursor → Builder → Except Flaw (Builder × Cursor)
  | _, _, _, 0, cursor, builder => .ok (builder, cursor)
  | depth, opened, base, fuel + 1, cursor, builder => do
    let place := cursor.place
    if cursor.rest.isEmpty then
      if base = 0 then throw ⟨.noElement, place⟩
      if builder.opened.length ≠ base then throw ⟨.asyncEntity, place⟩
      return (builder, cursor)
    let (token, after) ← Token.scan.run cursor
    let next := content dtd depth opened base fuel after
    match token with
    | .text chars => next (builder.addText chars)
    | .comment | .instruction .application => next builder
    | .instruction (.declaration _ _) => throw ⟨.misplacedDeclaration, place⟩
    | .startTag name attributes isEmpty =>
      let element ← openElement dtd builder.bindings place name attributes
      let builder := { builder with opened := element :: builder.opened }
      let builder := if isEmpty then builder.close else builder
      if builder.opened.isEmpty then return (builder, after)
      next builder
    | .endTag name namePlace =>
      if builder.opened.length = base then throw ⟨.asyncEntity, place⟩
      if (builder.opened.head?.map (·.written)) ≠ some name then
        throw ⟨.mismatchedTag, namePlace⟩
      let builder := builder.close
      if builder.opened.isEmpty then return (builder, after)
      next builder
    | .reference reference =>
      let flawed (kind : FlawKind) : Flaw := ⟨kind, place⟩
      match ← (dtd.meaning opened reference).mapError flawed, reference with
      | .char c, _ => next (builder.addText [c])
      | .entity (.internal text), .entity name =>
        match depth with
        | 0 => throw (flawed .recursiveEntity)
        | depth + 1 =>
          let (builder, _) ← (content dtd depth (name :: opened) builder.opened.length
            (text.length + 1) (.start text) builder).mapError fun flaw => flawed flaw.kind
          next builder
      | _, .entity name => throw (flawed (.undefinedEntity name))
      | _, .char _ => next builder
termination_by depth _ _ fuel => (depth, fuel)

/-- What follows the root. -/
def epilog : (fuel : Nat) → Cursor → Except Flaw Unit
  | 0, _ => .ok ()
  | fuel + 1, cursor => do
    let (_, cursor) ← Scan.skipSpaces.run cursor
    if cursor.rest.isEmpty then return
    let (token, after) ← PrologToken.scan.run cursor
    match token with
    | .comment | .instruction .application => epilog fuel after
    | _ => throw ⟨.junkAfterDocument, cursor.place⟩

/-- A mark of the order of bytes is no part of the document, but takes a column. -/
def start (text : List Char) : Cursor :=
  let cursor := Cursor.start text
  if text.head? = some (Char.ofNat 0xfeff) then cursor.next else cursor

/-- The declaration that a document may begin with: whether it stands alone, and what follows. -/
def declaration (cursor : Cursor) : Except Flaw (Bool × Cursor) := do
  if !(['<', '?'].isPrefixOf cursor.rest) then return (false, cursor)
  let (token, after) ← PrologToken.scan.run cursor
  match token with
  | .instruction (.declaration place contents) => return (← Declaration.read place contents, after)
  | _ => return (false, cursor)

/-- The element of a document. -/
def read (text : List Char) : Except Flaw Element := do
  let (isStandalone, cursor) ← declaration (start text)
  let size := text.length + 1
  let (_, prolog) ← (Prolog.miscellany false size).run ⟨cursor, { isStandalone }⟩
  let (builder, after) ← content prolog.dtd prolog.dtd.depth [] 0 size prolog.cursor {}
  epilog size after
  match builder.root with
  | some root => return root
  | none => throw ⟨.noElement, after.place⟩

def ofString (text : String) : Except Flaw Element :=
  read text.toList

end Document

end JarRefinery.Xml
