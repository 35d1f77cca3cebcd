import JarRefinery.Text.Blank

/-!
Scripts of the shell: words with quotes and references in them, and the commands that words make.
-/
namespace JarRefinery.Machine.Script

/-- A part of a word. What is quoted stays one field. -/
inductive Piece where
  | text (chars : List Char) (isQuoted : Bool)
  /-- The value of a variable, or `default` if it is empty. -/
  | reference (name : String) (default : String) (isQuoted : Bool)
  /-- What a script writes. -/
  | output (script : List Char) (isQuoted : Bool)
  | sum (expression : List Char)
deriving Repr

abbrev Word := List Piece

inductive Direction where
  | read
  | write
  | append
  | duplicate
deriving DecidableEq, Repr

inductive Token where
  | word (pieces : Word)
  /-- A channel is led to what the next word tells. -/
  | redirect (channel : Nat) (direction : Direction)
  | operator (text : String)
deriving Repr

structure Redirect where
  channel : Nat
  direction : Direction
  target : Word
deriving Repr

inductive Command where
  | nothing
  | simple (words : List Word) (redirects : List Redirect)
  | group (isChild : Bool) (body : Command) (redirects : List Redirect)
  | sequence (first second : Command)
  | both (first second : Command)
  | either (first second : Command)
  | pipe (source target : Command)
  | negated (command : Command)
  | choice (condition body otherwise : Command)
  | loop (isUntil : Bool) (condition body : Command)
  | each (name : String) (words : List Word) (body : Command)
deriving Repr

/-- Why a script is none. -/
abbrev Flaw := String

/-! ### Words -/

def isNameStart (c : Char) : Bool :=
  c.isAlpha || c == '_'

def isNameChar (c : Char) : Bool :=
  c.isAlphanum || c == '_'

def isSpecial (c : Char) : Bool :=
  "?#$@*!-".contains c || c.isDigit

/-- The characters up to a closing parenthesis, and those behind it. -/
def takeInside (depth : Nat) : List Char → Option (List Char × List Char)
  | [] => none
  | ')' :: rest =>
    match depth with
    | 0 => some ([], rest)
    | depth + 1 => (takeInside depth rest).map fun (inside, after) => (')' :: inside, after)
  | c :: rest =>
    (takeInside (if c = '(' then depth + 1 else depth) rest).map fun (inside, after) =>
      (c :: inside, after)

/-- The reference between braces. -/
def readBraces? (isQuoted : Bool) (chars : List Char) : Option (Piece × List Char) :=
  let inside := chars.takeWhile (· != '\x7d')
  match chars.drop inside.length with
  | [] => none
  | _ :: rest =>
    let name := inside.takeWhile fun c => isNameChar c || isSpecial c && c != '-'
    let default := match inside.drop name.length with
      | ':' :: '-' :: default => default
      | '-' :: default => default
      | _ => []
    some (.reference (String.ofList name) (String.ofList default) isQuoted, rest)

/-- What a dollar sign begins. -/
def readReference (isQuoted : Bool) (chars : List Char) : Except Flaw (Piece × List Char) :=
  match chars with
  | '(' :: '(' :: rest =>
    match takeInside 0 rest with
    | some (inside, ')' :: after) => .ok (.sum inside, after)
    | _ => .error "end of file unexpected (expecting \"))\")"
  | '(' :: rest =>
    match takeInside 0 rest with
    | some (inside, after) => .ok (.output inside isQuoted, after)
    | none => .error "end of file unexpected (expecting \")\")"
  | '\x7b' :: rest =>
    match readBraces? isQuoted rest with
    | some found => .ok found
    | none => .error "end of file unexpected (expecting \"\x7d\")"
  | c :: rest =>
    if isNameStart c then
      let name := chars.takeWhile isNameChar
      .ok (.reference (String.ofList name) "" isQuoted, chars.drop name.length)
    else if isSpecial c then .ok (.reference (String.singleton c) "" isQuoted, rest)
    else .ok (.text ['$'] isQuoted, chars)
  | [] => .ok (.text ['$'] isQuoted, [])

def unclosed : Flaw := "Unterminated quoted string"

/-- The script between two backquotes. -/
def readBackquoted (isQuoted : Bool) (chars : List Char) : Except Flaw (Piece × List Char) :=
  let inside := chars.takeWhile (· != '\x60')
  match chars.drop inside.length with
  | [] => .error "EOF in backquote substitution"
  | _ :: rest => .ok (.output inside isQuoted, rest)

/-- The pieces up to the closing double quote. -/
def readQuoted : (fuel : Nat) → List Char → Except Flaw (Word × List Char)
  | 0, _ => .error unclosed
  | _ + 1, [] => .error unclosed
  | _ + 1, '\x22' :: rest => .ok ([], rest)
  | fuel + 1, '\\' :: c :: rest => do
    let (pieces, after) ← readQuoted fuel rest
    if c = '\n' then return (pieces, after)
    let isEscaped := c == '$' || c == '\x60' || c == '\x22' || c == '\\'
    return (.text (if isEscaped then [c] else ['\\', c]) true :: pieces, after)
  | fuel + 1, c :: rest => do
    let (piece, rest) ←
      if c = '$' then readReference true rest
      else if c = '\x60' then readBackquoted true rest
      else .ok (.text [c] true, rest)
    let (pieces, after) ← readQuoted fuel rest
    return (piece :: pieces, after)

def isOperatorChar (c : Char) : Bool :=
  ";&|<>()\n".contains c

/-- The word that `chars` begins with. -/
def readWord : (fuel : Nat) → List Char → Except Flaw (Word × List Char)
  | 0, chars => .ok ([], chars)
  | _ + 1, [] => .ok ([], [])
  | fuel + 1, c :: rest => do
    if c = ' ' ∨ c = '\t' ∨ isOperatorChar c then return ([], c :: rest)
    let (pieces, rest) ← match c, rest with
      | '\x27', rest =>
        let inside := rest.takeWhile (· != '\x27')
        match rest.drop inside.length with
        | [] => .error unclosed
        | _ :: after => .ok ([Piece.text inside true], after)
      | '\x22', rest => do
        let (pieces, after) ← readQuoted (rest.length + 1) rest
        .ok (.text [] true :: pieces, after)
      | '\\', '\n' :: after => .ok ([], after)
      | '\\', c :: after => .ok ([.text [c] true], after)
      | '$', rest => do
        let (piece, after) ← readReference false rest
        .ok ([piece], after)
      | '\x60', rest => do
        let (piece, after) ← readBackquoted false rest
        .ok ([piece], after)
      | c, rest => .ok ([.text [c] false], rest)
    let (more, after) ← readWord fuel rest
    return (pieces ++ more, after)

/-- Neighbouring texts of one kind as one. -/
def joinTexts : Word → Word
  | .text first isQuoted :: rest =>
    match joinTexts rest with
    | .text second isQuoted' :: rest' =>
      if isQuoted = isQuoted' then .text (first ++ second) isQuoted :: rest'
      else .text first isQuoted :: .text second isQuoted' :: rest'
    | rest' => .text first isQuoted :: rest'
  | piece :: rest => piece :: joinTexts rest
  | [] => []

def readDirection (chars : List Char) : Direction × List Char :=
  match chars with
  | '>' :: '>' :: rest => (.append, rest)
  | '>' :: '&' :: rest => (.duplicate, rest)
  | '<' :: '&' :: rest => (.duplicate, rest)
  | '>' :: '|' :: rest => (.write, rest)
  | '<' :: rest => (.read, rest)
  | _ :: rest => (.write, rest)
  | [] => (.write, [])

def isArrow (c : Char) : Bool :=
  c == '<' || c == '>'

/-- The tokens of a script. -/
def tokens : (fuel : Nat) → List Char → Except Flaw (List Token)
  | 0, _ => .ok []
  | _ + 1, [] => .ok []
  | fuel + 1, c :: rest => do
    if c = ' ' ∨ c = '\t' then return ← tokens fuel rest
    if c = '#' then return ← tokens fuel (rest.dropWhile (· != '\n'))
    match c, rest with
    | '&', '&' :: rest => return .operator "&&" :: (← tokens fuel rest)
    | '|', '|' :: rest => return .operator "||" :: (← tokens fuel rest)
    | c, rest =>
      if isArrow c then
        let (direction, rest) := readDirection (c :: rest)
        return .redirect (if c = '<' then 0 else 1) direction :: (← tokens fuel rest)
      if c.isDigit && (rest.head?.map isArrow).getD false then
        let (direction, rest) := readDirection rest
        return .redirect (c.toNat - 48) direction :: (← tokens fuel rest)
      if isOperatorChar c then return .operator (String.singleton c) :: (← tokens fuel rest)
      let (pieces, rest) ← readWord (rest.length + 2) (c :: rest)
      return .word (joinTexts pieces) :: (← tokens fuel rest)

/-! ### Commands -/

/-- The plain text of a word that may be reserved. -/
def Token.reserved? : Token → Option String
  | .word [.text chars false] => some (String.ofList chars)
  | _ => none

def Token.isOperator (text : String) : Token → Bool
  | .operator found => found == text
  | _ => false

def isSeparator (token : Token) : Bool :=
  token.isOperator ";" || token.isOperator "\n" || token.isOperator "&"

/-- Words that end a list of commands. -/
def closers : List String := ["then", "do", "done", "fi", "else", "elif", "\x7d"]

def endsList : List Token → Bool
  | [] => true
  | token :: _ => token.isOperator ")" || (token.reserved?.map closers.contains).getD false

def unexpected : List Token → Flaw
  | [] => "end of file unexpected"
  | .operator text :: _ =>
    if text = "\n" then "newline unexpected" else "\"" ++ text ++ "\" unexpected"
  | .redirect .. :: _ => "redirection unexpected"
  | token :: _ => match token.reserved? with
    | some word => "\"" ++ word ++ "\" unexpected"
    | none => "word unexpected"

/-- Passes over a reserved word. -/
def expect (word : String) : List Token → Except Flaw (List Token)
  | token :: rest =>
    if token.reserved? == some word then .ok rest
    else .error (unexpected (token :: rest) ++ " (expecting \"" ++ word ++ "\")")
  | [] => .error ("end of file unexpected (expecting \"" ++ word ++ "\")")

/-- The words and redirects of a simple command, or the redirects behind a compound one. -/
def readParts (withWords : Bool) :
    List Token → Except Flaw ((List Word × List Redirect) × List Token)
  | .redirect channel direction :: .word target :: rest => do
    let ((words, redirects), rest) ← readParts withWords rest
    return ((words, ⟨channel, direction, target⟩ :: redirects), rest)
  | .redirect _ _ :: rest => .error (unexpected rest)
  | .word pieces :: rest => do
    if !withWords then return (([], []), .word pieces :: rest)
    let ((words, redirects), rest) ← readParts withWords rest
    return ((pieces :: words, redirects), rest)
  | tokens => .ok (([], []), tokens)

/-- The words of a loop up to the end of the line. -/
def readItems : List Token → List Word × List Token
  | .word pieces :: rest =>
    let (words, rest) := readItems rest
    (pieces :: words, rest)
  | tokens => ([], tokens)

def skipNewlines (tokens : List Token) : List Token :=
  tokens.dropWhile (·.isOperator "\n")

def skipSeparators (tokens : List Token) : List Token :=
  tokens.dropWhile fun token => token.isOperator "\n" || token.isOperator ";"

mutual

/-- A list of commands, up to where a list ends. -/
def readList : (fuel : Nat) → List Token → Except Flaw (Command × List Token)
  | 0, tokens => .error (unexpected tokens)
  | fuel + 1, tokens => do
    let tokens := skipNewlines tokens
    if endsList tokens then return (.nothing, tokens)
    let (first, rest) ← readChain fuel tokens
    match rest with
    | token :: rest' =>
      if isSeparator token then
        let (second, rest) ← readList fuel rest'
        return (.sequence first second, rest)
      else if endsList rest then return (first, rest)
      else .error (unexpected rest)
    | [] => return (first, [])

/-- Pipelines of which one decides whether the next one runs. -/
def readChain : (fuel : Nat) → List Token → Except Flaw (Command × List Token)
  | 0, tokens => .error (unexpected tokens)
  | fuel + 1, tokens => do
    let (first, rest) ← readPipeline fuel tokens
    readLinks fuel first rest

def readLinks : (fuel : Nat) → Command → List Token → Except Flaw (Command × List Token)
  | 0, first, rest => .ok (first, rest)
  | fuel + 1, first, rest =>
    match rest with
    | .operator "&&" :: rest => do
      let (second, rest) ← readPipeline fuel (skipNewlines rest)
      readLinks fuel (.both first second) rest
    | .operator "||" :: rest => do
      let (second, rest) ← readPipeline fuel (skipNewlines rest)
      readLinks fuel (.either first second) rest
    | rest => .ok (first, rest)

def readPipeline : (fuel : Nat) → List Token → Except Flaw (Command × List Token)
  | 0, tokens => .error (unexpected tokens)
  | fuel + 1, tokens => do
    match tokens with
    | token :: rest =>
      if token.reserved? == some "!" then
        let (command, rest) ← readPipeline fuel rest
        return (.negated command, rest)
    | [] => pure ()
    let (first, rest) ← readCommand fuel tokens
    match rest with
    | .operator "|" :: rest =>
      let (second, rest) ← readPipeline fuel (skipNewlines rest)
      return (.pipe first second, rest)
    | rest => return (first, rest)

def readCommand : (fuel : Nat) → List Token → Except Flaw (Command × List Token)
  | 0, tokens => .error (unexpected tokens)
  | fuel + 1, tokens => do
    match tokens with
    | .operator "(" :: rest => do
      let (body, rest) ← readList fuel rest
      match rest with
      | .operator ")" :: rest => readRedirected (.group true body) rest
      | rest => .error (unexpected rest)
    | token :: rest =>
      match token.reserved? with
      | some "\x7b" => do
        let (body, rest) ← readList fuel rest
        readRedirected (.group false body) (← expect "\x7d" rest)
      | some "if" => do
        let (command, rest) ← readChoice fuel rest
        readRedirected (.group false command) rest
      | some "while" => readLoop fuel false rest
      | some "until" => readLoop fuel true rest
      | some "for" => readEach fuel rest
      | _ =>
        if endsList tokens then .error (unexpected tokens)
        let ((words, redirects), rest) ← readParts true tokens
        if words.isEmpty && redirects.isEmpty then .error (unexpected rest)
        return (.simple words redirects, rest)
    | [] => .error (unexpected [])

def readRedirected (make : List Redirect → Command) (tokens : List Token) :
    Except Flaw (Command × List Token) := do
  let ((_, redirects), rest) ← readParts false tokens
  return (make redirects, rest)

def readChoice : (fuel : Nat) → List Token → Except Flaw (Command × List Token)
  | 0, tokens => .error (unexpected tokens)
  | fuel + 1, tokens => do
    let (condition, rest) ← readList fuel tokens
    let (body, rest) ← readList fuel (← expect "then" rest)
    match rest.head?.bind Token.reserved? with
    | some "elif" =>
      let (otherwise, rest) ← readChoice fuel rest.tail
      return (.choice condition body otherwise, rest)
    | some "else" =>
      let (otherwise, rest) ← readList fuel rest.tail
      return (.choice condition body otherwise, ← expect "fi" rest)
    | _ => return (.choice condition body .nothing, ← expect "fi" rest)

def readLoop : (fuel : Nat) → (isUntil : Bool) → List Token → Except Flaw (Command × List Token)
  | 0, _, tokens => .error (unexpected tokens)
  | fuel + 1, isUntil, tokens => do
    let (condition, rest) ← readList fuel tokens
    let (body, rest) ← readList fuel (← expect "do" rest)
    readRedirected (.group false (.loop isUntil condition body)) (← expect "done" rest)

def readEach : (fuel : Nat) → List Token → Except Flaw (Command × List Token)
  | 0, tokens => .error (unexpected tokens)
  | fuel + 1, tokens => do
    match tokens with
    | token :: rest =>
      let name := (token.reserved?).getD ""
      let (words, rest) := match rest with
        | token :: rest' =>
          if token.reserved? == some "in" then readItems rest'
          else ([[.reference "@" "" true]], rest)
        | [] => ([], [])
      let (body, rest) ← readList fuel (← expect "do" (skipSeparators rest))
      readRedirected (.group false (.each name words body)) (← expect "done" rest)
    | [] => .error (unexpected [])

end

/-- The commands of a script. -/
def parse (script : List Char) : Except Flaw Command := do
  let tokens ← tokens (script.length + 1) script
  let (command, rest) ← readList (8 * tokens.length + 8) tokens
  if rest.isEmpty then return command
  else .error (unexpected rest)

end JarRefinery.Machine.Script
