import JarRefinery.Json.Literal

/-!
Reading of command lines: options that begin with a dash, and arguments. An option may be shortened
as long as it stays the only one. Its value follows it, or an equals sign in it. After two dashes
that stand alone everything is an argument.
-/
namespace JarRefinery.CommandLine

/-- An option by all its names. It asks for help, or else has a value, which may have to be one of
some choices. -/
structure Switch where
  names : List String
  isHelp : Bool
  choices : Option (List String)
deriving Repr

/-- The arguments that are no options: one value, or a command with all that follows it. -/
inductive Positional where
  | value (name : String)
  | command (name : String) (choices : List String)
deriving Repr

structure Grammar where
  program : String
  switches : List Switch
  positional : Option Positional
deriving Repr

/-- Why no values were read: help was asked for, or the command line was refused. -/
inductive Exit where
  | help
  | refused (program message : String)
deriving Repr, DecidableEq

namespace Exit

def code : Exit → Nat
  | help => 0
  | refused _ _ => 2

/-- What is written about a refusal. -/
def text : Exit → String
  | help => ""
  | refused program message => program ++ ": error: " ++ message

end Exit

/-- What an option stands for as written: a switch by this name, with the value after an equals
sign. -/
structure Chosen where
  switch : Switch
  name : String
  value : Option String
deriving Repr

inductive Shape where
  | argument
  | dashes
  | option (chosen : Option Chosen)
deriving Repr

/-- What was read: the values of options by their first name, the positional arguments, and whatever
was not recognized. -/
structure Values where
  options : List (String × String) := []
  arguments : Option (List String) := none
  unknown : List String := []
deriving Repr

namespace Grammar

def refuse {α : Type} (grammar : Grammar) (message : String) : Except Exit α :=
  .error (.refused grammar.program message)

/-- A refusal because of one argument. -/
def refuseArgument {α : Type} (grammar : Grammar) (name message : String) : Except Exit α :=
  grammar.refuse ("argument " ++ name ++ ": " ++ message)

def allNames (grammar : Grammar) : List (Switch × String) :=
  grammar.switches.flatMap fun switch => switch.names.map (switch, ·)

def find? (grammar : Grammar) (name : String) : Option Switch :=
  grammar.switches.find? (·.names.contains name)

/-- The parts in front of the first equals sign and behind it. -/
def splitValue (text : String) : String × Option String :=
  match text.splitOn "=" with
  | name :: first :: rest => (name, some ("=".intercalate (first :: rest)))
  | _ => (text, none)

/-- The options that a text may stand for in short. -/
def shortened (grammar : Grammar) (text : String) : List Chosen :=
  if text.startsWith "--" then
    let (start, value) := splitValue text
    (grammar.allNames.filter fun (_, name) => name.startsWith start).map fun (switch, name) =>
      ⟨switch, name, value⟩
  else
    let short := (text.take 2).toString
    grammar.allNames.filterMap fun (switch, name) =>
      if name = short then some ⟨switch, name, some (text.drop 2).toString⟩
      else if name.startsWith text then some ⟨switch, name, none⟩
      else none

/-- Whether a text is a number with a minus sign. -/
def isNegativeNumber (text : String) : Bool :=
  match text.toList with
  | '-' :: digits =>
    let whole := digits.takeWhile Char.isDigit
    match digits.drop whole.length with
    | [] => !whole.isEmpty
    | '.' :: fraction => !fraction.isEmpty && fraction.all Char.isDigit
    | _ => false
  | _ => false

/-- What a text is that stands in front of two dashes. -/
def shape (grammar : Grammar) (text : String) : Except Exit Shape :=
  if !text.startsWith "-" then .ok .argument
  else match grammar.find? text with
    | some switch => .ok (.option (some ⟨switch, text, none⟩))
    | none =>
      if text.length = 1 then .ok .argument
      else
        let (start, value) := splitValue text
        match value, grammar.find? start with
        | some value, some switch => .ok (.option (some ⟨switch, start, some value⟩))
        | _, _ =>
          match grammar.shortened text with
          | [] =>
            if isNegativeNumber text || text.contains ' ' then .ok .argument
            else .ok (.option none)
          | [chosen] => .ok (.option (some chosen))
          | several => grammar.refuse ("ambiguous option: " ++ text ++ " could match " ++
              ", ".intercalate (several.map (·.name)))

def shapes (grammar : Grammar) : List String → Except Exit (List (String × Shape))
  | [] => .ok []
  | "--" :: rest => .ok (("--", .dashes) :: rest.map (·, .argument))
  | text :: rest => do
    return (text, ← grammar.shape text) :: (← grammar.shapes rest)

def isDashes : String × Shape → Bool
  | (_, .dashes) => true
  | _ => false

def isOption : String × Shape → Bool
  | (_, .option _) => true
  | _ => false

/-- The positional arguments that stand first, and what follows them. -/
def takePositional (positional : Option Positional) (items : List (String × Shape)) :
    Option (List String × List (String × Shape)) :=
  let dashes := items.takeWhile isDashes
  match items.drop dashes.length with
  | (text, .argument) :: rest =>
    match positional with
    | none => none
    | some (.value _) =>
      let after := rest.takeWhile isDashes
      let taken := dashes.map (·.1) ++ text :: after.map (·.1)
      some (taken.erase "--", rest.drop after.length)
    | some (.command _ _) => some (dashes.map (·.1) ++ text :: rest.map (·.1), [])
  | _ => none

def checkChoice (grammar : Grammar) (name : String) (choices : Option (List String))
    (value : String) : Except Exit Unit :=
  match choices with
  | none => .ok ()
  | some choices =>
    if choices.contains value then .ok ()
    else grammar.refuseArgument name ("invalid choice: " ++ Text.quote value ++
      " (choose from " ++ ", ".intercalate (choices.map Text.quote) ++ ")")

def displayName (switch : Switch) : String :=
  "/".intercalate switch.names

/-- Several short options may be written as one; all that can be meant is help more than once. -/
def helpOrRefuse {α : Type} (grammar : Grammar) (switch : Switch) (letters : List Char) :
    Except Exit α :=
  let isShort (c : Char) := switch.names.contains (String.ofList ['-', c])
  let rest := letters.dropWhile isShort
  if letters.all isShort && !letters.isEmpty then .error .help
  else grammar.refuseArgument (displayName switch)
    ("ignored explicit argument " ++ Text.quote (String.ofList rest))

/-- Takes an option and its value from what follows: both, and the rest. -/
def takeOption (grammar : Grammar) (chosen : Chosen) (rest : List (String × Shape)) :
    Except Exit ((String × String) × List (String × Shape)) := do
  let switch := chosen.switch
  if switch.isHelp then
    match chosen.value with
    | none => .error .help
    | some value =>
      if chosen.name.startsWith "--" then
        grammar.refuseArgument (displayName switch)
          ("ignored explicit argument " ++ Text.quote value)
      else grammar.helpOrRefuse switch value.toList
  else
    let (value, rest) ← match chosen.value, rest with
      | some value, _ => pure (value, rest)
      | none, (value, .argument) :: rest => pure (value, rest)
      | none, _ => grammar.refuseArgument (displayName switch) "expected one argument"
    grammar.checkChoice (displayName switch) switch.choices value
    pure ((switch.names.headD "", value), rest)

/-- Reads items one after the other. Every step takes at least one, so `fuel` need not exceed their
number. -/
def readItems (grammar : Grammar) : (fuel : Nat) → Values → List (String × Shape) →
    Except Exit Values
  | 0, values, _ => .ok values
  | _, values, [] => .ok values
  | fuel + 1, values, (text, .option none) :: rest =>
    readItems grammar fuel { values with unknown := values.unknown ++ [text] } rest
  | fuel + 1, values, (_, .option (some chosen)) :: rest => do
    let (option, rest) ← grammar.takeOption chosen rest
    readItems grammar fuel { values with options := values.options ++ [option] } rest
  | fuel + 1, values, items =>
    match values.arguments, takePositional grammar.positional items with
    | none, some (taken, rest) => do
      if let some (.command name choices) := grammar.positional then
        grammar.checkChoice name (some choices) (taken.headD "")
      readItems grammar fuel { values with arguments := some taken } rest
    | _, _ =>
      let skipped := items.takeWhile (!isOption ·)
      readItems grammar fuel { values with unknown := values.unknown ++ skipped.map (·.1) }
        (items.drop skipped.length)

def positionalName : Positional → String
  | .value name => name
  | .command name _ => name

/-- Reads a command line. -/
def read (grammar : Grammar) (texts : List String) : Except Exit Values := do
  let items ← grammar.shapes texts
  grammar.readItems items.length {} items

/-- The positional arguments read; they have to be there. -/
def required (grammar : Grammar) (values : Values) : Except Exit (List String) :=
  match grammar.positional, values.arguments with
  | none, _ => .ok []
  | _, some arguments => .ok arguments
  | some positional, none => grammar.refuse
      ("the following arguments are required: " ++ positionalName positional)

end Grammar

/-- The last value given to an option. -/
def Values.last? (values : Values) (name : String) : Option String :=
  values.options.reverse.lookup name

end JarRefinery.CommandLine
