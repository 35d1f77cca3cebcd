import JarRefinery.Bytes
import JarRefinery.Path
import JarRefinery.Text.Quoted

/-!
A tree of files and directories without links, and the operations on it. An operation that fails
names the path as it was given; directories that it made before it failed stay.
-/
namespace JarRefinery

inductive ErrorCode where
  | noEntry
  | execFormat
  | permissionDenied
  | busy
  | fileExists
  | notDirectory
  | isDirectory
  | invalidArgument
  | nameTooLong
deriving DecidableEq, Repr

def ErrorCode.number : ErrorCode → Nat
  | noEntry => 2
  | execFormat => 8
  | permissionDenied => 13
  | busy => 16
  | fileExists => 17
  | notDirectory => 20
  | isDirectory => 21
  | invalidArgument => 22
  | nameTooLong => 36

def ErrorCode.text : ErrorCode → String
  | noEntry => "No such file or directory"
  | execFormat => "Exec format error"
  | permissionDenied => "Permission denied"
  | busy => "Device or resource busy"
  | fileExists => "File exists"
  | notDirectory => "Not a directory"
  | isDirectory => "Is a directory"
  | invalidArgument => "Invalid argument"
  | nameTooLong => "File name too long"

/-- What the system answers, with the paths it was asked about. -/
structure SystemError where
  code : ErrorCode
  path : Option String
  target : Option String := none
deriving DecidableEq, Repr

def SystemError.message (e : SystemError) : String :=
  "[Errno " ++ toString e.code.number ++ "] " ++ e.code.text ++
    (match e.path with | none => "" | some path => ": " ++ Text.quote path) ++
    (match e.target with | none => "" | some target => " -> " ++ Text.quote target)

/-- A path with a zero character in it never reaches the system. -/
inductive FileError where
  | system (error : SystemError)
  | nullByte
deriving DecidableEq, Repr

/-- The names from the root down. -/
abbrev Location := List String

inductive Node where
  | directory
  | file (contents : Bytes) (mode : Nat)
deriving DecidableEq, Repr

/-- The nodes below the root, each at one location; `here` is the current directory. -/
structure FileTree where
  nodes : List (Location × Node)
  here : Location

namespace FileTree

/-- Operations on a tree, which may change it also where they fail. -/
abbrev Action := ExceptT FileError (StateM FileTree)

def node? (tree : FileTree) (location : Location) : Option Node :=
  if location = [] then some .directory else tree.nodes.lookup location

def isDirectoryAt (tree : FileTree) (location : Location) : Bool :=
  tree.node? location == some .directory

def setNode (location : Location) (node : Node) : List (Location × Node) → List (Location × Node)
  | [] => [(location, node)]
  | entry :: rest =>
    if entry.1 = location then (location, node) :: rest else entry :: setNode location node rest

def put (tree : FileTree) (location : Location) (node : Node) : FileTree :=
  { tree with nodes := setNode location node tree.nodes }

def erase (tree : FileTree) (location : Location) : FileTree :=
  { tree with nodes := tree.nodes.filter (·.1 ≠ location) }

/-- The nodes strictly below a location, by the names that lead there. -/
def below (tree : FileTree) (location : Location) : List (List String × Node) :=
  tree.nodes.filterMap fun (place, node) =>
    if location.isPrefixOf place ∧ place ≠ location then
      some (place.drop location.length, node)
    else none

/-- Names have at most 255 bytes, whole paths fewer than 4096. -/
def nameLimit : Nat := 255
def pathLimit : Nat := 4095

/-- Follows names from a location that need not exist: all but the last must lead through
directories. -/
def follow (tree : FileTree) (location : Location) : List String → Except ErrorCode Location
  | [] => .ok location
  | part :: rest =>
    match tree.node? location with
    | none => .error .noEntry
    | some (.file _ _) => .error .notDirectory
    | some .directory =>
      if part = ".." then tree.follow location.dropLast rest
      else if nameLimit < part.utf8ByteSize then .error .nameTooLong
      else tree.follow (location ++ [part]) rest

/-- The location that a path leads to, existing or not. -/
def locate (tree : FileTree) (path : Path) : Except ErrorCode Location :=
  if pathLimit < path.toString.utf8ByteSize then .error .nameTooLong
  else tree.follow (if path.isAbsolute then [] else tree.here) path.parts

def hasNull (path : Path) : Bool :=
  path.parts.any (·.toList.contains '\x00')

def fail {α : Type} (code : ErrorCode) (path : Path) : Action α :=
  throw (.system ⟨code, some path.toString, none⟩)

/-- The location of a path, with failures told of that path. -/
def locating (path : Path) : Action Location := do
  if hasNull path then throw .nullByte
  match (← get).locate path with
  | .ok location => pure location
  | .error code => fail code path

/-- The node at a path. -/
def stat (path : Path) : Action Node := do
  let location ← locating path
  match (← get).node? location with
  | some node => pure node
  | none => fail .noEntry path

/-- The node at a path, or nothing if no path leads there. Only a name that is too long is a
failure. -/
def find? (path : Path) : Action (Option Node) := do
  match (stat path).run (← get) with
  | (.ok node, _) => pure (some node)
  | (.error .nullByte, _) => pure none
  | (.error (.system e), _) =>
    if e.code = .noEntry ∨ e.code = .notDirectory then pure none else throw (.system e)

def doesExist (path : Path) : Action Bool := do
  return (← find? path).isSome

def isDirectory (path : Path) : Action Bool := do
  return (← find? path) == some .directory

def isFile (path : Path) : Action Bool := do
  match ← find? path with
  | some (.file _ _) => return true
  | _ => return false

def readFile (path : Path) : Action Bytes := do
  match ← stat path with
  | .file contents _ => return contents
  | .directory => fail .isDirectory path

/-- Whether the last step of a path is to a directory by itself, and not to a name in one. -/
def endsInDots (path : Path) : Bool :=
  path.parts = [] || path.parts.getLast? == some ".."

/-- Opens a file for writing: what it held, and its mode, if it is there. The directory must be
there. -/
def opening (path : Path) : Action (Location × Bytes × Option Nat) := do
  let location ← locating path
  let tree ← get
  match tree.node? location with
  | some (.file contents mode) => pure (location, contents, some mode)
  | some .directory => fail .isDirectory path
  | none =>
    if tree.isDirectoryAt location.dropLast then pure (location, [], none)
    else fail .noEntry path

def defaultMode : Nat := 0o644

/-- Replaces the contents of a file, which is made if need be. -/
def writeFile (path : Path) (contents : Bytes) : Action Unit := do
  let (location, _, mode) ← opening path
  modify (·.put location (.file contents (mode.getD defaultMode)))

def appendFile (path : Path) (contents : Bytes) : Action Unit := do
  let (location, before, mode) ← opening path
  modify (·.put location (.file (before ++ contents) (mode.getD defaultMode)))

def setMode (path : Path) (mode : Nat) : Action Unit := do
  let location ← locating path
  match (← get).node? location with
  | some (.file contents _) => modify (·.put location (.file contents mode))
  | some .directory => pure ()
  | none => fail .noEntry path

def unlink (path : Path) : Action Unit := do
  let location ← locating path
  match (← get).node? location with
  | some (.file _ _) => modify (·.erase location)
  | some .directory => fail .isDirectory path
  | none => fail .noEntry path

/-- Removes a file if there is one; whatever goes wrong is not told. -/
def discard (path : Path) : Action Unit := do
  try unlink path catch _ => pure ()

/-- Moves a file to another path, over the file that may be there. -/
def rename (source target : Path) : Action Unit := do
  let tell {α : Type} (code : ErrorCode) : Action α :=
    throw (.system ⟨code, some source.toString, some target.toString⟩)
  if hasNull source || hasNull target then throw .nullByte
  let tree ← get
  match tree.locate source, tree.locate target with
  | .error code, _ => tell code
  | _, .error code => tell code
  | .ok from_, .ok to_ =>
    if endsInDots target then tell .busy
    else match tree.node? from_, tree.node? to_ with
      | some (.file contents mode), some (.file _ _) =>
        set ((tree.erase from_).put to_ (.file contents mode))
      | some (.file contents mode), none =>
        if tree.isDirectoryAt to_.dropLast then
          set ((tree.erase from_).put to_ (.file contents mode))
        else tell .noEntry
      | some (.file _ _), some .directory => tell .isDirectory
      | some .directory, _ => tell .isDirectory
      | none, _ => tell .noEntry

/-- Makes one directory, whose parent must be there. -/
def makeDirectory (path : Path) : Action Unit := do
  let location ← locating path
  let tree ← get
  match tree.node? location with
  | some _ => fail .fileExists path
  | none =>
    if tree.isDirectoryAt location.dropLast then modify (·.put location .directory)
    else fail .noEntry path

/-- Makes one directory; that it is there already is no failure. -/
def ensureDirectory (path : Path) : Action Unit := do
  match (makeDirectory path).run (← get) with
  | (.ok _, tree) => set tree
  | (.error (.system e), _) =>
    if e.code = .noEntry then throw (.system e)
    else if ← isDirectory path then pure ()
    else throw (.system e)
  | (.error .nullByte, _) => throw .nullByte

/-- Makes a directory and those above it that are missing; `depth` is the number of names. -/
def ensureChain : (depth : Nat) → Path → Action Unit
  | 0, path => ensureDirectory path
  | depth + 1, path => do
    match (ensureDirectory path).run (← get) with
    | (.ok _, tree) => set tree
    | (.error (.system e), _) =>
      if e.code = .noEntry then
        ensureChain depth path.parent
        ensureDirectory path
      else throw (.system e)
    | (.error .nullByte, _) => throw .nullByte

def ensureDirectories (path : Path) : Action Unit :=
  ensureChain path.parts.length path

/-- Eight characters, different for every number of at most eight digits. -/
def serialText (n : Nat) : String :=
  let digits := Nat.toDigits 10 n
  String.ofList (List.replicate (8 - digits.length) 'a' ++ digits)

/-- A temporary name beside `name`. -/
def siblingName (name : String) (n : Nat) : String :=
  "." ++ name ++ "." ++ serialText n ++ ".tmp"

/-- The first of the temporary names from the `n`-th on that no node in a directory has. -/
def unusedSibling? (tree : FileTree) (directory : Location) (name : String) :
    (tries n : Nat) → Option String
  | 0, _ => none
  | tries + 1, n =>
    let sibling := siblingName name n
    if (tree.node? (directory ++ [sibling])).isNone then some sibling
    else tree.unusedSibling? directory name tries (n + 1)

/-- How many temporary names are tried: all that have eight digits at most. -/
def siblingTries : Nat := 100000000

/-- Makes an empty file beside `path` under a name of its own, along with the directories above. -/
def newSibling (path : Path) : Action Path := do
  ensureDirectories path.parent
  let tree ← get
  let directory := path.parent.normal tree.here
  match tree.unusedSibling? directory path.name siblingTries 0 with
  | none => throw (.system ⟨.fileExists, none, none⟩)
  | some name =>
    let sibling := Path.ofLocation (directory ++ [name])
    let (location, _, _) ← opening sibling
    modify (·.put location (.file [] 0o600))
    pure sibling

/-- The absolute path of `path`, with double dots resolved. -/
def resolve (path : Path) : Action Path := do
  if hasNull path then throw .nullByte
  return .ofLocation (path.normal (← get).here)

end FileTree

end JarRefinery
