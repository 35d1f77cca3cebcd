import JarRefinery.Xml.Scan

/-!
The tokens in front of the first element of a document, among them those of the declarations of its
type.
-/
namespace JarRefinery.Xml

inductive PrologToken where
  /-- A name; `hasColon` tells whether there is a colon in it. -/
  | name (text : String) (hasColon : Bool)
  | nameToken
  /-- A name followed by a mark of how often it may occur. -/
  | markedName
  | poundName (text : String)
  | literal (contents : Cursor)
  | percent
  | parameterReference
  | comma
  | bar
  | openParen
  | closeParen (mark : Option Char)
  | openBracket
  | closeBracket
  | sectionOpen
  | sectionClose
  | declarationOpen (keyword : String)
  | declarationClose
  | comment
  | instruction (instruction : Scan.Instruction)
  | elementStart
deriving Repr

namespace PrologToken

/-- The next character must be one of these, if there is one. -/
def delimited (delimiters : List Char) : Scan Unit := do
  match ← Scan.peek? with
  | none => pure ()
  | some c => if !delimiters.contains c && !isSpace c then Scan.refuse

/-- A text in quotes. -/
def scanLiteral : Scan PrologToken := do
  let quote ← Scan.peek
  Scan.advance
  let place ← Scan.place
  let text ← Scan.takeWhile fun c => c != quote && isXmlChar c
  Scan.expect quote
  delimited ['>', '%', '[']
  pure (.literal ⟨text, place⟩)

/-- A name of declarations, made of ASCII letters. -/
def keywordFrom (sofar : List Char) : (fuel : Nat) → Scan String
  | 0 => throw .unfinished
  | fuel + 1 => do
    let c ← Scan.peek
    if c.isAlpha || c == '_' then
      Scan.advance
      keywordFrom (c :: sofar) fuel
    else if isSpace c then pure (String.ofList sofar.reverse)
    else if c = '%' then
      match (← get).rest with
      | _ :: next :: _ =>
        if isSpace next || next == '%' then Scan.refuse
        else pure (String.ofList sofar.reverse)
      | _ => throw .unfinished
    else Scan.refuse

/-- What follows an angle bracket and an exclamation mark. -/
def scanDeclaration : Scan PrologToken := do
  match ← Scan.peek with
  | '-' => do
    Scan.advance
    Scan.comment
    pure .comment
  | '[' => do
    Scan.advance
    pure .sectionOpen
  | c => do
    if !(c.isAlpha || c == '_') then Scan.refuse
    return .declarationOpen (← keywordFrom [] ((← get).rest.length + 1))

/-- What follows a percent sign. -/
def scanPercent : Scan PrologToken := do
  match ← Scan.peek with
  | '%' => pure .percent
  | c =>
    if isSpace c then pure .percent
    else do
      let _ ← Scan.plainName
      Scan.expect ';'
      pure .parameterReference

/-- What follows a number sign. -/
def scanPound : Scan PrologToken := do
  let name ← Scan.plainName
  delimited [')', '>', '%', '|']
  pure (.poundName (String.ofList name))

/-- A closing parenthesis and the mark after it. -/
def scanClose : Scan PrologToken := do
  match ← Scan.peek? with
  | some '*' => marked '*'
  | some '?' => marked '?'
  | some '+' => marked '+'
  | _ => do
    delimited ['>', ',', '|', ')']
    pure (.closeParen none)
where
  marked (mark : Char) : Scan PrologToken := do
    Scan.advance
    pure (.closeParen (some mark))

/-- The end of a name or name token, at which a mark may stand. -/
def finishName (token : PrologToken) : Scan PrologToken := do
  match ← Scan.peek?, token with
  | some '+', .nameToken | some '*', .nameToken | some '?', .nameToken => Scan.refuse
  | some '+', _ | some '*', _ | some '?', _ => do
    Scan.advance
    pure .markedName
  | _, token => do
    delimited ['>', ')', ',', '|', '[', '%']
    pure token

/-- The rest of something that is a name token if not a name. -/
def scanNameToken : Scan PrologToken := do
  let _ ← Scan.takeWhile fun c => isNameChar c || c == ':'
  finishName .nameToken

/-- A name, or a name token where a colon stands in the wrong place. -/
def scanName : Scan PrologToken := do
  let first ← Scan.plainName
  match (← get).rest with
  | ':' :: rest =>
    match rest with
    | [] => throw .unfinished
    | c :: _ =>
      Scan.advance
      if !isNameStart c then scanNameToken
      else do
        let second ← Scan.plainName
        if (← Scan.peek?) = some ':' then scanNameToken
        else finishName (.name (String.ofList (first ++ ':' :: second)) true)
  | _ => finishName (.name (String.ofList first) false)

/-- A token that is one character. -/
def single (token : PrologToken) : Scan PrologToken := do
  Scan.advance
  pure token

def scan : Scan PrologToken := do
  match ← Scan.peek with
  | '\x22' | '\x27' => scanLiteral
  | '<' => do
    let start ← get
    Scan.advance
    match ← Scan.peek with
    | '!' => do
      Scan.advance
      scanDeclaration
    | '?' => do
      Scan.advance
      return .instruction (← Scan.instruction)
    | c => do
      if !isNameStart c then Scan.refuse
      set start
      pure .elementStart
  | '%' => do
    Scan.advance
    scanPercent
  | '#' => do
    Scan.advance
    scanPound
  | ',' => single .comma
  | '|' => single .bar
  | '(' => single .openParen
  | ')' => do
    Scan.advance
    scanClose
  | '[' => single .openBracket
  | ']' => do
    match (← get).rest with
    | _ :: ']' :: '>' :: _ => do
      Scan.advance
      Scan.advance
      single .sectionClose
    | _ => single .closeBracket
  | '>' => single .declarationClose
  | c =>
    if isNameStart c then scanName
    else if isNameChar c || c == ':' then scanNameToken
    else Scan.refuse

end PrologToken

end JarRefinery.Xml
