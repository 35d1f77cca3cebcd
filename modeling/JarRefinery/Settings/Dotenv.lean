import JarRefinery.Text.Blank

/-!
Files of environment variables: one assignment a line, with quotes, comments and references to other
variables. A line that is no assignment is passed over.
-/
namespace JarRefinery.Dotenv

/-- A variable, without a value if only its name is written. -/
structure Binding where
  name : String
  value : Option (List Char)

def isLineBreak (c : Char) : Bool :=
  c == '\n' || c == '\r'

/-- White space within a line. -/
def isInlineBlank (c : Char) : Bool :=
  Text.isBlank c && !isLineBreak c

def isNameChar (c : Char) : Bool :=
  !Text.isBlank c && c != '=' && c != '#'

def skipInline (chars : List Char) : List Char :=
  chars.dropWhile isInlineBlank

/-- What follows the end of the line, which may be the end of the file; nothing if the line goes
on. -/
def endLine? (chars : List Char) : Option (List Char) :=
  match skipInline chars with
  | [] => some []
  | '\r' :: '\n' :: rest => some rest
  | c :: rest => if isLineBreak c then some rest else none

def skipComment (chars : List Char) : List Char :=
  match skipInline chars with
  | '#' :: rest => rest.dropWhile (!isLineBreak ·)
  | _ => chars

/-- What follows the rest of the line. -/
def skipLine (chars : List Char) : List Char :=
  match chars.dropWhile (!isLineBreak ·) with
  | [] => []
  | _ :: rest => rest

/-- What follows the word that marks a variable as one for other programs. -/
def skipExport (chars : List Char) : List Char :=
  let word := "export".toList
  if word.isPrefixOf chars then
    match chars.drop word.length with
    | c :: rest => if isInlineBlank c then skipInline rest else chars
    | [] => chars
  else chars

/-- The characters up to the closing quote, and those behind it; a backslash keeps a quote from
closing. -/
def takeQuoted? (quote : Char) : List Char → Option (List Char × List Char)
  | [] => none
  | '\\' :: c :: rest =>
    if c = quote then
      match takeQuoted? quote rest with
      | some (inside, after) => some ('\\' :: c :: inside, after)
      | none => some (['\\'], rest)
    else (takeQuoted? quote (c :: rest)).map fun (inside, after) => ('\\' :: inside, after)
  | c :: rest =>
    if c = quote then some ([], rest)
    else (takeQuoted? quote rest).map fun (inside, after) => (c :: inside, after)

def unescapeSingle : List Char → List Char
  | '\\' :: c :: rest =>
    if c = '\\' ∨ c = '\x27' then c :: unescapeSingle rest
    else '\\' :: unescapeSingle (c :: rest)
  | c :: rest => c :: unescapeSingle rest
  | [] => []

def controlOf? (c : Char) : Option Char :=
  match c with
  | '\\' => some '\\'
  | '\x27' => some '\x27'
  | '\x22' => some '\x22'
  | 'a' => some '\x07'
  | 'b' => some '\x08'
  | 'f' => some '\x0c'
  | 'n' => some '\n'
  | 'r' => some '\r'
  | 't' => some '\t'
  | 'v' => some '\x0b'
  | _ => none

def unescapeDouble : List Char → List Char
  | '\\' :: c :: rest =>
    match controlOf? c with
    | some control => control :: unescapeDouble rest
    | none => '\\' :: unescapeDouble (c :: rest)
  | c :: rest => c :: unescapeDouble rest
  | [] => []

/-- Cuts a value off where white space and a number sign begin a comment. -/
def cutComment : List Char → List Char
  | [] => []
  | c :: rest =>
    if Text.isBlank c && (rest.dropWhile Text.isBlank).head? == some '#' then []
    else c :: cutComment rest

def trimEnd (chars : List Char) : List Char :=
  (chars.reverse.dropWhile Text.isBlank).reverse

/-- The value that `chars` begins with. -/
def readValue? (chars : List Char) : Option (List Char × List Char) :=
  match chars with
  | '\x27' :: rest =>
    (takeQuoted? '\x27' rest).map fun (inside, after) => (unescapeSingle inside, after)
  | '\x22' :: rest =>
    (takeQuoted? '\x22' rest).map fun (inside, after) => (unescapeDouble inside, after)
  | chars =>
    some (trimEnd (cutComment (chars.takeWhile (!isLineBreak ·))),
      chars.dropWhile (!isLineBreak ·))

/-- The name that `chars` begins with; nothing in front of a comment. A failure is told with where
reading stopped. -/
def readName (chars : List Char) : Except (List Char) (Option String × List Char) :=
  match chars with
  | '#' :: _ => .ok (none, chars)
  | '\x27' :: rest =>
    match rest.takeWhile (· != '\x27'), rest.dropWhile (· != '\x27') with
    | c :: name, _ :: after => .ok (some (String.ofList (c :: name)), after)
    | _, _ => .error chars
  | chars =>
    match chars.takeWhile isNameChar with
    | [] => .error chars
    | name => .ok (some (String.ofList name), chars.dropWhile isNameChar)

/-- The assignment that `chars` begins with, or where it stops being one. -/
def readBinding (chars : List Char) : Except (List Char) (Option Binding × List Char) := do
  let (name, rest) ← readName (skipExport chars)
  let rest := skipInline rest
  let (value, rest) ← match rest with
    | '=' :: after =>
      let after := skipInline after
      match readValue? after with
      | some (value, rest) => pure (some value, rest)
      | none => throw after
    | rest => pure (none, rest)
  let rest := skipComment rest
  match endLine? rest with
  | some after => pure (name.map fun name => ⟨name, value⟩, after)
  | none => throw rest

/-- All assignments; every step takes at least one character. -/
def readBindings : (fuel : Nat) → List Char → List Binding
  | 0, _ => []
  | fuel + 1, chars =>
    match chars.dropWhile Text.isBlank with
    | [] => []
    | chars =>
      match readBinding chars with
      | .ok (some binding, rest) => binding :: readBindings fuel rest
      | .ok (none, rest) => readBindings fuel rest
      | .error rest => readBindings fuel (skipLine rest)

/-- A reference after a dollar sign and an opening brace: its name, what stands for it if it has no
value, and what follows it. -/
def readReference? (chars : List Char) : Option (String × List Char × List Char) :=
  let isName (c : Char) := c != '\x7d' && c != ':'
  let name := String.ofList (chars.takeWhile isName)
  match chars.dropWhile isName with
  | '\x7d' :: rest => some (name, [], rest)
  | ':' :: '-' :: rest =>
    match rest.dropWhile (· != '\x7d') with
    | [] => none
    | _ :: after => some (name, rest.takeWhile (· != '\x7d'), after)
  | _ => none

/-- Puts the values of variables in place of references to them. -/
def substitute (known : List (String × Option String)) :
    (fuel : Nat) → List Char → List Char
  | 0, chars => chars
  | _ + 1, [] => []
  | fuel + 1, c :: rest =>
    match c, rest with
    | '$', '\x7b' :: after =>
      match readReference? after with
      | some (name, default, rest) =>
        let value := match known.lookup name with
          | none => default
          | some none => []
          | some (some value) => value.toList
        value ++ substitute known fuel rest
      | none => c :: substitute known fuel rest
    | c, rest => c :: substitute known fuel rest

/-- The variables of a file, each after the ones before it; those win over the environment. -/
def resolve (environment : List (String × String)) (bindings : List Binding) :
    List (String × Option String) :=
  let outside := environment.map fun (name, value) => (name, some value)
  (bindings.foldl (fun found binding =>
    let value := binding.value.map fun value =>
      String.ofList (substitute (found ++ outside) value.length value)
    (binding.name, value) :: found) []).reverse

def parse (environment : List (String × String)) (text : String) :
    List (String × Option String) :=
  resolve environment (readBindings (text.length + 1) text.toList)

end JarRefinery.Dotenv
