import JarRefinery.Archive.Entry
import JarRefinery.Compress.Gzip
import JarRefinery.ErrorKind
import JarRefinery.FileTree
import JarRefinery.Json.Reader
import JarRefinery.Schema.Checked
import JarRefinery.Text.Encoding
import JarRefinery.Xml.Flaw

/-!
Faults: why an operation did not come to its end. Every fault has a kind, which decides who handles
it, and a message.
-/
namespace JarRefinery

inductive Fault where
  /-- A fault of this kind with a text of its own, and a stage if it names one. -/
  | given (kind : ErrorKind) (text : String) (stage : Option String)
  | system (error : SystemError)
  | nullByte
  | undecodable (error : Text.DecodeError)
  | unencodable (error : Text.EncodeError)
  | json (error : Json.ReadError)
  | schema (violations : List Schema.Violation)
  | archive (flaw : Archive.Flaw)
  | gzip (flaw : Gzip.Flaw)
  | markup (flaw : Xml.Flaw)
  /-- The final answer to a request was not the one hoped for; `body` is how it begins. -/
  | badStatus (url : String) (code : Nat) (body : String)
  /-- An answer that may be another one next time. -/
  | transientStatus (code : Nat)
  | retriesExceeded (url : String) (attempts : Nat) (last : Fault)
  /-- `outer` arose from `cause`. -/
  | because (outer cause : Fault)
deriving DecidableEq, Repr

def ErrorCode.kind : ErrorCode → ErrorKind
  | noEntry => .fileNotFoundError
  | permissionDenied => .permissionError
  | fileExists => .fileExistsError
  | notDirectory => .notADirectoryError
  | isDirectory => .isADirectoryError
  | execFormat | busy | invalidArgument | nameTooLong => .osError

def Json.ReadError.kind : Json.ReadError → ErrorKind
  | malformed _ _ _ _ => .jsonDecodeError
  | tooManyDigits _ => .valueError
  | tooDeep _ => .recursionError

def Archive.Flaw.kind : Archive.Flaw → ErrorKind
  | unsupportedVersion _ | patchedData | strongEncryption | unsupportedMethod =>
    .notImplementedError
  | encrypted _ => .runtimeError
  | undecodableName _ => .unicodeDecodeError
  | negativeOffset => .osError
  | emptyName => .indexError
  | longField => .packError
  | corruptStream => .compressionError
  | cutShort => .eofError
  | _ => .badArchive

def Gzip.Flaw.kind : Gzip.Flaw → ErrorKind
  | cutShort => .eofError
  | corruptStream => .compressionError
  | _ => .badGzipFile

namespace Fault

def kind : Fault → ErrorKind
  | given kind _ _ => kind
  | system error => error.code.kind
  | nullByte => .valueError
  | undecodable _ => .unicodeDecodeError
  | unencodable _ => .unicodeEncodeError
  | json error => error.kind
  | schema _ => .validationError
  | archive flaw => flaw.kind
  | gzip flaw => flaw.kind
  | markup _ => .parseError
  | badStatus _ _ _ => .httpStatusError
  | transientStatus _ => .transientStatus
  | retriesExceeded _ _ _ => .httpRetriesExceeded
  | because outer _ => outer.kind

def message : Fault → String
  | given kind text _ => if kind.isA .keyError then Text.quote text else text
  | system error => error.message
  | nullByte => "embedded null byte"
  | undecodable error => error.message
  | unencodable error => error.message
  | json error => error.message
  | schema _ => "<ValidationError>"
  | archive flaw => flaw.message
  | gzip flaw => flaw.message
  | markup flaw => flaw.message
  | badStatus url code body =>
    "HTTP " ++ toString code ++ " for " ++ url ++
      if body.isEmpty then "" else " (body: " ++ body ++ ")"
  | transientStatus code => "HTTP " ++ toString code
  | retriesExceeded url attempts last =>
    "GET " ++ url ++ " failed after " ++ toString attempts ++ " attempt(s): " ++ last.message
  | because outer _ => outer.message

/-- What the fault arose from. -/
def cause? : Fault → Option Fault
  | because _ cause => some cause
  | retriesExceeded _ _ last => some last
  | _ => none

/-- The stage of a run that found the fault, if it is one of the run's own kinds. -/
def stage? : Fault → Option String
  | given kind _ stage => if kind.isA .pipelineError then stage <|> kind.stage? else none
  | because outer _ => outer.stage?
  | _ => none

/-- Whether a handler of failures of kind `general` answers the fault. -/
def isA (fault : Fault) (general : ErrorKind) : Bool :=
  fault.kind.isA general

/-- Whether one of the handlers answers the fault. -/
def isAny (fault : Fault) (generals : List ErrorKind) : Bool :=
  generals.any fault.isA

/-- The violations that the fault or one of its causes tells of. -/
def violations? : Fault → Option (List Schema.Violation)
  | schema violations => some violations
  | because outer cause => outer.violations? <|> cause.violations?
  | retriesExceeded _ _ last => last.violations?
  | _ => none

/-- A fault of this kind with a text of its own. -/
def of (kind : ErrorKind) (text : String) : Fault :=
  .given kind text none

/-- A value that is not admitted. -/
def value (text : String) : Fault :=
  .of .valueError text

/-- Whether the fault is that the document asked for does not exist. -/
def isNotFound : Fault → Bool
  | badStatus _ code _ => code == 404
  | because outer _ => outer.isNotFound
  | _ => false

/-- The value of an outcome, which must be there. -/
def demand {α : Type} : Except Fault (Option α) → Except Fault α
  | .ok (some a) => .ok a
  | .ok none => .error (.of .assertionError "")
  | .error fault => .error fault

def ofFile : FileError → Fault
  | .system error => .system error
  | .nullByte => .nullByte

end Fault

end JarRefinery
