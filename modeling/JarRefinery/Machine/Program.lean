import JarRefinery.Machine.Format
import JarRefinery.Machine.Job

/-!
The programs of the machine: each takes its arguments and gives an exit status.
-/
namespace JarRefinery.Machine

abbrev Program := List String → Running Nat

namespace Program

def constant (status : Nat) : Program :=
  fun _ => pure status

/-- Which switches stand in front of the texts that are to be echoed. -/
def echoSwitches : List String → List Char × List String
  | [] => ([], [])
  | text :: rest =>
    match text.toList with
    | '-' :: c :: letters =>
      if (c :: letters).all fun c => c == 'n' || c == 'e' || c == 'E' then
        let (more, texts) := echoSwitches rest
        (c :: letters ++ more, texts)
      else ([], text :: rest)
    | _ => ([], text :: rest)

/-- Writes its arguments with blanks between them. -/
def echo : Program := fun arguments => do
  let (switches, texts) := echoSwitches arguments
  let text := " ".intercalate texts
  let last := (switches.filter (· != 'n')).getLast?
  let (bytes, isOver) :=
    if last == some 'e' then Format.unescaped true text else (Text.Utf8.encode text, false)
  Running.write (bytes ++ if switches.contains 'n' || isOver then [] else [0x0a])
  pure 0

/-- What the shell has in place of `echo`: it always replaces escapes. -/
def shellEcho : Program := fun arguments => do
  let isBare := arguments.head? == some "-n"
  let (bytes, isOver) :=
    Format.unescaped false (" ".intercalate (if isBare then arguments.tail else arguments))
  Running.write (bytes ++ if isBare || isOver then [] else [0x0a])
  pure 0

def printf (hex : Bool) : Program
  | [] => do
    Running.complain "printf: missing operand\nTry 'printf --help' for more information.\n"
    pure 1
  | text :: arguments => do
    let (text, arguments) := if text = "--" then (arguments.headD "", arguments.tail)
      else (text, arguments)
    Running.write (Format.format hex text arguments)
    pure 0

/-- Why a file operation failed, in words. -/
def reason : FileError → String
  | .system error => error.code.text
  | .nullByte => ErrorCode.noEntry.text

/-- Writes the contents of files, or its input if there are no arguments. -/
def cat : Program := fun arguments => do
  if arguments.isEmpty then Running.write (← get).input
  let statuses ← arguments.mapM fun argument => do
    if argument = "-" then
      Running.write (← get).input
      return 0
    match ← Running.onFiles (FileTree.readFile (Path.ofString argument)) with
    | .ok contents =>
      Running.write contents
      return 0
    | .error error =>
      Running.complain ("cat: " ++ argument ++ ": " ++ reason error ++ "\n")
      return 1
  pure (statuses.foldl max 0)

def pwd : Program := fun _ => do
  Running.print ((Path.ofLocation (← get).files.here).toString ++ "\n")
  pure 0

/-- A decimal number of some unit, in millionths of it. -/
def millionths? (text : String) : Option Nat :=
  match text.splitOn "." with
  | [whole] => whole.toNat?.map (· * 1000000)
  | [whole, fraction] =>
    let digits := (fraction.toList ++ List.replicate 6 '0').take 6
    match (if whole.isEmpty then some 0 else whole.toNat?), (String.ofList digits).toNat? with
    | some n, some f => some (n * 1000000 + f)
    | _, _ => none
  | _ => none

/-- The microseconds that a length of time stands for. -/
def microseconds? (text : String) : Option Nat :=
  let units : List (Char × Nat) := [('s', 1), ('m', 60), ('h', 3600), ('d', 86400)]
  match text.toList.getLast?.bind fun c => units.lookup c with
  | some unit => (millionths? (text.dropEnd 1).toString).map (· * unit)
  | none => millionths? text

def sleep : Program := fun arguments => do
  if arguments.isEmpty then
    Running.complain "sleep: missing operand\nTry 'sleep --help' for more information.\n"
    return 1
  match arguments.mapM microseconds? with
  | none =>
    Running.complain ("sleep: invalid time interval '" ++ " ".intercalate arguments ++
      "'\nTry 'sleep --help' for more information.\n")
    return 1
  | some times =>
    Running.wait (times.foldl (· + ·) 0)
    return 0

def isAbove (step last n : Int) : Bool :=
  if step < 0 then n < last else last < n

def count (step last : Int) : (fuel : Nat) → Int → List Int
  | 0, _ => []
  | fuel + 1, n => if isAbove step last n then [] else n :: count step last fuel (n + step)

/-- Counts from one number to another. -/
def seq : Program := fun arguments => do
  let numbers := arguments.filterMap String.toInt?
  let (first, step, last) := match numbers with
    | [last] => ((1 : Int), (1 : Int), last)
    | [first, last] => (first, 1, last)
    | first :: step :: last :: _ => (first, step, last)
    | [] => (1, 1, 0)
  let counted := count step last ((last - first).natAbs + 1) first
  Running.print (String.join (counted.map fun n => toString n ++ "\n"))
  pure 0

def integer (text : String) : Int :=
  (text.toInt?).getD 0

def holdsBinary (operator left right : String) : Bool :=
  match operator with
  | "=" | "==" => left == right
  | "!=" => left != right
  | "-eq" => integer left == integer right
  | "-ne" => integer left != integer right
  | "-lt" => integer left < integer right
  | "-le" => integer left ≤ integer right
  | "-gt" => integer right < integer left
  | "-ge" => integer right ≤ integer left
  | _ => false

def holdsUnary (operator operand : String) : Running Bool := do
  let path := Path.ofString operand
  let found ← Running.onFiles (FileTree.find? path)
  match operator, found with
  | "-n", _ => return !operand.isEmpty
  | "-z", _ => return operand.isEmpty
  | "-f", .ok (some (.file _ _)) => return true
  | "-s", .ok (some (.file contents _)) => return !contents.isEmpty
  | "-x", .ok (some (.file _ mode)) => return mode &&& 0o111 != 0
  | "-d", .ok (some .directory) => return true
  | "-e", .ok (some _) => return true
  | "-r", .ok (some _) => return true
  | "-w", .ok (some _) => return true
  | _, _ => return false

/-- Whether a condition holds. -/
def holds : List String → Running Bool
  | [] => pure false
  | "!" :: rest => return !(← holds rest)
  | [text] => pure !text.isEmpty
  | [operator, operand] => holdsUnary operator operand
  | left :: operator :: right :: _ => pure (holdsBinary operator left right)

def test : Program := fun arguments =>
  return if ← holds arguments then 0 else 1

/-- A condition between brackets. -/
def bracket : Program := fun arguments =>
  test arguments.dropLast

def signals : List (String × Nat) := [("HUP", 1), ("INT", 2), ("QUIT", 3), ("ILL", 4), ("TRAP", 5),
  ("ABRT", 6), ("BUS", 7), ("FPE", 8), ("KILL", 9), ("USR1", 10), ("SEGV", 11), ("USR2", 12),
  ("PIPE", 13), ("ALRM", 14), ("TERM", 15), ("CHLD", 17), ("CONT", 18), ("STOP", 19)]

/-- Signals that a job does not notice. -/
def ignoredSignals : List Nat := [0, 17, 18, 23, 28]

def signal? (word : String) : Option Nat :=
  let name := if word.startsWith "SIG" then (word.drop 3).toString else word
  word.toNat? <|> signals.lookup name

/-- Sends a signal to the job that sends it. -/
def kill : Program := fun arguments => do
  let word := match arguments with
    | "-s" :: name :: _ => name
    | first :: _ => if first.startsWith "-" then (first.drop 1).toString else "TERM"
    | [] => "0"
  match signal? word with
  | some signal =>
    if ignoredSignals.contains signal then return 0
    else throw (.killed signal)
  | none => return 1

/-- Lists the names in a directory. -/
def ls : Program := fun arguments => do
  let files := (← get).files
  let location := (Path.ofString (arguments.headD ".")).normal files.here
  let names := (files.below location).filterMap fun
    | ([name], _) => if name.startsWith "." then none else some name
    | _ => none
  if files.isDirectoryAt location then
    Running.print (String.join (names.mergeSort.map (· ++ "\n")))
    return 0
  if (files.node? location).isSome then
    Running.print (arguments.headD "." ++ "\n")
    return 0
  Running.complain ("ls: cannot access '" ++ arguments.headD "." ++
    "': No such file or directory\n")
  return 2

/-- The programs that do not start others. -/
def all : List (String × Program) := [("true", constant 0), ("false", constant 1), ("echo", echo),
  ("printf", printf true), ("cat", cat), ("pwd", pwd), ("sleep", sleep), ("seq", seq), ("ls", ls),
  ("test", test),
  ("[", bracket), ("kill", constant 1)]

end Program

end JarRefinery.Machine
