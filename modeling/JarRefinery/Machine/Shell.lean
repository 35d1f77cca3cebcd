import JarRefinery.Machine.Program
import JarRefinery.Machine.Script

/-!
The shell: it expands words into fields and runs commands, its own and the programs of the machine.
-/
namespace JarRefinery.Machine.Shell

open Script

/-! ### Fields -/

/-- What a piece of a word expands to. -/
inductive Part where
  /-- Stays in one field. -/
  | solid (text : String)
  /-- Falls into fields at its blanks. -/
  | loose (text : String)
  /-- Ends a field. -/
  | gap
deriving Repr

/-- Fields that are complete, and the one begun. -/
structure Split where
  done : List String := []
  current : Option String := none

namespace Split

def finish (split : Split) : Split :=
  ⟨split.done ++ split.current.toList, none⟩

def add (split : Split) (text : String) : Split :=
  { split with current := some (split.current.getD "" ++ text) }

def addLoose (split : Split) (c : Char) : Split :=
  if c = ' ' ∨ c = '\t' ∨ c = '\n' then split.finish else split.add (String.singleton c)

def addPart (split : Split) : Part → Split
  | .solid text => split.add text
  | .loose text => text.toList.foldl addLoose split
  | .gap => split.finish

end Split

def fields (parts : List Part) : List String :=
  (parts.foldl Split.addPart {}).finish.done

/-- The text of a word that stays one field. -/
def wholeText (parts : List Part) : String :=
  String.join (parts.map fun
    | .solid text => text
    | .loose text => text
    | .gap => " ")

/-! ### Arithmetic -/

inductive Symbol where
  | number (n : Int)
  | name (text : String)
  | sign (text : String)
deriving DecidableEq, Repr

def symbols : (fuel : Nat) → List Char → List Symbol
  | 0, _ => []
  | _ + 1, [] => []
  | fuel + 1, c :: rest =>
    if Text.isBlank c || c == '$' then symbols fuel rest
    else if c.isDigit then
      let digits := c :: rest.takeWhile Char.isDigit
      .number ((String.ofList digits).toNat?.getD 0) :: symbols fuel (rest.drop (digits.length - 1))
    else if isNameStart c then
      let name := c :: rest.takeWhile isNameChar
      .name (String.ofList name) :: symbols fuel (rest.drop (name.length - 1))
    else match c, rest with
      | '<', '=' :: rest => .sign "<=" :: symbols fuel rest
      | '>', '=' :: rest => .sign ">=" :: symbols fuel rest
      | '=', '=' :: rest => .sign "==" :: symbols fuel rest
      | '!', '=' :: rest => .sign "!=" :: symbols fuel rest
      | c, rest => .sign (String.singleton c) :: symbols fuel rest

/-- The operators, those that bind least first. -/
def ranks : List (List String) :=
  [["==", "!="], ["<", "<=", ">", ">="], ["+", "-"], ["*", "/", "%"]]

def apply (sign : String) (a b : Int) : Int :=
  let truth (holds : Bool) : Int := if holds then 1 else 0
  match sign with
  | "+" => a + b
  | "-" => a - b
  | "*" => a * b
  | "/" => Int.tdiv a b
  | "%" => Int.tmod a b
  | "<" => truth (a < b)
  | "<=" => truth (a ≤ b)
  | ">" => truth (b < a)
  | ">=" => truth (b ≤ a)
  | "==" => truth (a == b)
  | _ => truth (a != b)

mutual

/-- A value whose operators have one of these ranks. -/
def readRank (value : String → Int) : (fuel : Nat) → List (List String) → List Symbol →
    Int × List Symbol
  | 0, _, rest => (0, rest)
  | fuel + 1, [], rest => readAtom value fuel rest
  | fuel + 1, rank :: ranks, rest =>
    let (first, rest) := readRank value fuel ranks rest
    readRight value fuel rank ranks first rest

def readRight (value : String → Int) : (fuel : Nat) → List String → List (List String) → Int →
    List Symbol → Int × List Symbol
  | 0, _, _, first, rest => (first, rest)
  | fuel + 1, rank, ranks, first, rest =>
    match rest with
    | .sign sign :: rest' =>
      if rank.contains sign then
        let (second, rest) := readRank value fuel ranks rest'
        readRight value fuel rank ranks (apply sign first second) rest
      else (first, rest)
    | rest => (first, rest)

def readAtom (value : String → Int) : (fuel : Nat) → List Symbol → Int × List Symbol
  | 0, rest => (0, rest)
  | fuel + 1, rest =>
    match rest with
    | .number n :: rest => (n, rest)
    | .name name :: rest => (value name, rest)
    | .sign "-" :: rest =>
      let (n, rest) := readAtom value fuel rest
      (-n, rest)
    | .sign "(" :: rest =>
      let (n, rest) := readRank value fuel ranks rest
      (n, rest.tail)
    | _ :: rest => (0, rest)
    | [] => (0, [])

end

def evaluate (value : String → Int) (expression : List Char) : Int :=
  let symbols := symbols (expression.length + 1) expression
  (readRank value (16 * symbols.length + 16) ranks symbols).1

/-! ### Variables -/

def variableOf (job : Job) (name : String) : String :=
  match name with
  | "?" => toString job.status
  | "#" => toString (job.arguments.length - 1)
  | "@" | "*" => " ".intercalate job.arguments.tail
  | "$" => "1"
  | "-" | "!" => ""
  | "PWD" => (Path.ofLocation job.files.here).toString
  | name =>
    match name.toNat? with
    | some n => job.arguments.getD n ""
    | none => (job.values.lookup name).getD ""

def setVariable (name value : String) : Running Unit :=
  modify fun job =>
    { job with values := (name, value) :: job.values.filter (·.1 ≠ name) }

def setStatus (status : Nat) : Running Unit :=
  modify ({ · with status })

/-- Tells that something went wrong, under the name of the shell. -/
def complain (text : String) : Running Unit := do
  Running.complain ((← get).arguments.headD "sh" ++ ": 1: " ++ text ++ "\n")

/-- The variable that a word sets, and the rest of the word. -/
def assignment? : Word → Option (String × Word)
  | .text chars false :: rest =>
    let name := chars.takeWhile isNameChar
    match name, chars.drop name.length with
    | c :: _, '=' :: value =>
      if isNameStart c then some (String.ofList name, .text value false :: rest) else none
    | _, _ => none
  | _ => none

/-- Several arguments, each a field of its own. -/
def separated : List String → List Part
  | [] => []
  | [argument] => [.solid argument]
  | argument :: rest => .solid argument :: .gap :: separated rest

/-! ### Commands of the shell itself -/

def changeDirectory (target : String) : Running Nat := do
  let path := Path.ofString target
  match ← Running.onFiles (FileTree.isDirectory path) with
  | .ok true =>
    modify fun job =>
      { job with files.here := path.normal job.files.here }
    return 0
  | _ =>
    complain ("cd: can't cd to " ++ target)
    return 2

def exit (arguments : List String) : Running Nat := do
  match arguments with
  | [] => throw (.exited (← get).status)
  | text :: _ =>
    match text.toNat? with
    | some n => throw (.exited (n % 256))
    | none =>
      complain ("exit: Illegal number: " ++ text)
      throw (.exited 2)

def shift : Program := fun _ => do
  modify fun job =>
    { job with arguments := job.arguments.take 1 ++ job.arguments.drop 2 }
  return 0

/-- Sets variables given as name and value. -/
def setVariables : Program := fun arguments => do
  for argument in arguments do
    match argument.splitOn "=" with
    | name :: value :: values => setVariable name ("=".intercalate (value :: values))
    | _ => pure ()
  return 0

def unset : Program := fun names => do
  modify fun job =>
    { job with values := job.values.filter (!names.contains ·.1) }
  return 0

def ownCommands : List (String × Program) := [(":", Program.constant 0),
  ("true", Program.constant 0), ("false", Program.constant 1), ("echo", Program.shellEcho),
  ("printf", Program.printf false), ("test", Program.test), ("[", Program.bracket),
  ("pwd", Program.pwd), ("kill", Program.kill), ("shift", shift),
  ("unset", unset), ("wait", Program.constant 0), ("export", setVariables),
  ("cd", fun arguments => changeDirectory (arguments.headD "/root")), ("exit", exit)]

/-! ### Redirects -/

def nullDevice : String := "/dev/null"

/-- Opens the file that a channel is led to. -/
def openSink (target : String) (keepsContents : Bool) : Running (Option Sink) := do
  if target = nullDevice then return some .nowhere
  let path := Path.ofString target
  let opened ← Running.onFiles do
    if keepsContents then FileTree.appendFile path [] else FileTree.writeFile path []
    FileTree.locating path
  match opened with
  | .ok location => return some (.file location)
  | .error error =>
    let reason := match error with
      | .system error =>
        if error.code = .noEntry then "Directory nonexistent" else error.code.text
      | .nullByte => ErrorCode.noEntry.text
    complain ("cannot create " ++ target ++ ": " ++ reason)
    return none

/-- Takes the contents of a file for input. -/
def openInput (target : String) : Running Bool := do
  if target = nullDevice then
    modify ({ · with input := [] })
    return true
  match ← Running.onFiles (FileTree.readFile (Path.ofString target)) with
  | .ok input =>
    modify ({ · with input })
    return true
  | .error error =>
    let reason := match error with
      | .system error => if error.code = .noEntry then "No such file" else error.code.text
      | .nullByte => "No such file"
    complain ("cannot open " ++ target ++ ": " ++ reason)
    return false

def setSink (channel : Nat) (sink : Sink) (sinks : Sink × Sink) : Sink × Sink :=
  match channel with
  | 1 => (sink, sinks.2)
  | 2 => (sinks.1, sink)
  | _ => sinks

/-- Where the channels lead after some redirects, unless one of them fails. -/
def redirected (sinks : Sink × Sink) : List (Nat × Direction × String) →
    Running (Option (Sink × Sink))
  | [] => return some sinks
  | (channel, direction, target) :: rest => do
    match direction with
    | .read => if ← openInput target then redirected sinks rest else return none
    | .duplicate =>
      let sink := if target = "2" then sinks.2 else if target = "-" then .nowhere else sinks.1
      redirected (setSink channel sink sinks) rest
    | direction =>
      match ← openSink target (direction = .append) with
      | some sink => redirected (setSink channel sink sinks) rest
      | none => return none

/-! ### Running -/

/-- The program that a name stands for, if it is one of the machine's. -/
def programOf? (name : String) : Option Program :=
  if name.contains '/' then Program.all.lookup ((name.splitOn "/").getLastD "")
  else Program.all.lookup name

def shells : List String := ["sh", "dash", "bash"]

def isShell (name : String) : Bool :=
  shells.contains ((name.splitOn "/").getLastD "")

/-- What a shell that is started with these arguments runs: its script, and its own arguments. -/
def scriptOf (name : String) (arguments : List String) :
    Running (Except (String × Nat) (String × List String)) := do
  match arguments with
  | ["-c"] => return .error (name ++ ": 0: -c requires an argument\n", 2)
  | "-c" :: script :: [] => return .ok (script, [name])
  | "-c" :: script :: arguments => return .ok (script, arguments)
  | file :: arguments =>
    match ← Running.onFiles (FileTree.readFile (Path.ofString file)) with
    | .ok contents => return .ok (Text.Utf8.decodeReplacing contents, file :: arguments)
    | .error _ => return .error (name ++ ": 0: cannot open " ++ file ++ ": No such file\n", 2)
  | [] => return .ok (Text.Utf8.decodeReplacing (← get).input, [name])

mutual

/-- The parts of a word; every step takes fuel. -/
def expand : (fuel : Nat) → Word → Running (List Part)
  | 0, _ => throw .late
  | _ + 1, [] => pure []
  | fuel + 1, piece :: rest => do
    let part (isQuoted : Bool) (text : String) : Part :=
      if isQuoted then .solid text else .loose text
    let first ← match piece with
      | .text chars _ => pure [Part.solid (String.ofList chars)]
      | .reference "@" _ true => return separated (← get).arguments.tail ++ (← expand fuel rest)
      | .reference name default isQuoted => do
        let value := variableOf (← get) name
        pure [part isQuoted (if value.isEmpty then default else value)]
      | .sum expression => do
        let job ← get
        let value (name : String) : Int := (variableOf job name).toInt?.getD 0
        pure [Part.solid (toString (evaluate value expression))]
      | .output script isQuoted => do
        let (bytes, status) ← Running.capturing (runChild fuel script)
        setStatus status
        pure [part isQuoted (Text.stripEnd (· == '\n') (Text.Utf8.decodeReplacing bytes))]
    return first ++ (← expand fuel rest)

def expandAll : (fuel : Nat) → List Word → Running (List String)
  | 0, _ => throw .late
  | _ + 1, [] => pure []
  | fuel + 1, word :: rest => do
    let parts ← expand fuel word
    return fields parts ++ (← expandAll fuel rest)

/-- Runs a script in a copy of the shell. -/
def runChild : (fuel : Nat) → List Char → Running Nat
  | 0, _ => throw .late
  | fuel + 1, script => do
    match Script.parse script with
    | .error flaw => do
      complain ("Syntax error: " ++ flaw)
      return 2
    | .ok command => inCopy fuel command

/-- Runs a command in a copy of the shell. -/
def inCopy : (fuel : Nat) → Command → Running Nat
  | 0, _ => throw .late
  | fuel + 1, command => do
    let before ← get
    let status ← Running.inChild do
      run fuel command
      return (← get).status
    modify fun job =>
      { job with values := before.values, arguments := before.arguments,
                     files.here := before.files.here }
    return status

/-- Starts a shell. -/
def start : (fuel : Nat) → (name : String) → (arguments : List String) → Running Nat
  | 0, _, _ => throw .late
  | fuel + 1, name, arguments => do
    let before ← get
    match ← scriptOf name arguments with
    | .error (message, status) =>
      Running.complain message
      return status
    | .ok (script, arguments) =>
      modify ({ · with arguments, status := 0 })
      let status ← Running.inChild (runChild fuel script.toList)
      modify ({ · with arguments := before.arguments })
      return status

/-- Runs the command that some fields make. -/
def runFields : (fuel : Nat) → List String → Running Nat
  | 0, _ => throw .late
  | _ + 1, [] => return (← get).status
  | fuel + 1, name :: arguments => do
    match name, ownCommands.lookup name with
    | "eval", _ => runScript fuel (" ".intercalate arguments).toList
    | "command", _ => runFields fuel arguments
    | "exec", _ =>
      if arguments.isEmpty then return 0
      else throw (.exited (← runFields fuel arguments))
    | _, some program => program arguments
    | _, none =>
      if isShell name then
        tryCatch (start fuel name arguments) fun
          | .killed signal => return 128 + signal
          | ending => throw ending
      else match programOf? name with
        | some program => Running.inChild (program arguments)
        | none => do
          let found ← Running.onFiles (FileTree.find? (Path.ofString name))
          match name.contains '/', found with
          | true, .ok (some _) =>
            complain (name ++ ": Permission denied")
            return 126
          | _, _ =>
            complain (name ++ ": not found")
            return 127

/-- Runs a script in the shell itself. -/
def runScript : (fuel : Nat) → List Char → Running Nat
  | 0, _ => throw .late
  | fuel + 1, script => do
    match Script.parse script with
    | .error flaw =>
      complain ("Syntax error: " ++ flaw)
      throw (.exited 2)
    | .ok command =>
      run fuel command
      return (← get).status

/-- Runs a step with its redirects; one that fails keeps the step from being run. -/
def withRedirects : (fuel : Nat) → List Redirect → Running Nat → Running Nat
  | 0, _, _ => throw .late
  | fuel + 1, redirects, step => do
    let targets ← redirects.mapM fun redirect => do
      let parts ← expand fuel redirect.target
      return (redirect.channel, redirect.direction, wholeText parts)
    let job ← get
    match ← redirected job.sinks targets with
    | none => return 2
    | some sinks =>
      let status ← Running.redirecting sinks step
      modify ({ · with input := job.input })
      return status

/-- The words that set variables stand in front. -/
def runSimple : (fuel : Nat) → List Word → List Redirect → Running Nat
  | 0, _, _ => throw .late
  | fuel + 1, words, redirects => do
    let settings := (words.takeWhile fun word => (assignment? word).isSome).filterMap assignment?
    let fields ← expandAll fuel (words.drop settings.length)
    let before := (← get).values
    if fields.isEmpty then setStatus 0
    for (name, value) in settings do
      let parts ← expand fuel value
      setVariable name (wholeText parts)
    let status ← withRedirects fuel redirects (runFields fuel fields)
    if !settings.isEmpty && !fields.isEmpty then modify ({ · with values := before })
    return status

/-- Runs a command and leaves its status. -/
def run : (fuel : Nat) → Command → Running Unit
  | 0, _ => throw .late
  | fuel + 1, command => do
    match command with
    | .nothing => pure ()
    | .simple words redirects => setStatus (← runSimple fuel words redirects)
    | .group isChild body redirects =>
      setStatus (← withRedirects fuel redirects
        (if isChild then inCopy fuel body
         else do
           run fuel body
           return (← get).status))
    | .sequence first second =>
      run fuel first
      run fuel second
    | .both first second =>
      run fuel first
      if (← get).status = 0 then run fuel second
    | .either first second =>
      run fuel first
      if (← get).status ≠ 0 then run fuel second
    | .pipe source target =>
      let (bytes, _) ← Running.capturing (inCopy fuel source)
      let before := (← get).input
      modify ({ · with input := bytes })
      let status ← inCopy fuel target
      modify ({ · with input := before })
      setStatus status
    | .negated command =>
      run fuel command
      setStatus (if (← get).status = 0 then 1 else 0)
    | .choice condition body otherwise =>
      run fuel condition
      if (← get).status = 0 then run fuel body
      else
        setStatus 0
        run fuel otherwise
    | .loop isUntil condition body =>
      run fuel condition
      if ((← get).status = 0) = !isUntil then
        run fuel body
        run fuel (.loop isUntil condition body)
      else setStatus 0
    | .each name words body =>
      let fields ← expandAll fuel words
      setStatus 0
      runEach fuel name body fields

def runEach : (fuel : Nat) → String → Command → List String → Running Unit
  | 0, _, _, _ => throw .late
  | _ + 1, _, _, [] => pure ()
  | fuel + 1, name, body, field :: rest => do
    setVariable name field
    run fuel body
    runEach fuel name body rest

end

end JarRefinery.Machine.Shell
