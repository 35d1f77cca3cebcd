import JarRefinery.Http.Url
import JarRefinery.World

/-!
Getting documents. A request follows redirects; answers that may be better next time, and failures
of the transport, are tried again after a wait that doubles up to four seconds.
-/
namespace JarRefinery.Http

/-- What requests say of who makes them. -/
def agent : String := "mc-decompile/0.1.0"

def invalidUrl (flaw : Url.Flaw) : Fault :=
  .of .invalidUrl flaw.message

def parseUrl (text : String) : Action Url :=
  Action.ofExcept invalidUrl (Url.parse text)

/-- Asks the network for an address and records that. -/
def ask (address : String) : Action Reply := do
  let host ← read
  let world ← get
  set { world with requests := world.requests ++ [address] }
  pure (host.network world.requests address)

/-- An answer whose redirects are followed. -/
structure Response where
  status : Nat
  body : Bytes
  fault : Option Fault

/-- The whole body, unless it breaks off. -/
def Response.read (response : Response) : Action Bytes :=
  match response.fault with
  | none => pure response.body
  | some fault => throw fault

def redirectStatuses : List Nat := [301, 302, 303, 307, 308]

def redirectLimit : Nat := 20

def invalidLocation (flaw : Url.Flaw) : Fault :=
  .of .remoteProtocolError ("Invalid URL in location header: " ++ flaw.message ++ ".")

/-- The target with a host, that of `url` if it names a scheme alone. -/
def hosted (url target : Url) : Except Url.Flaw Url :=
  if !target.scheme.isEmpty && target.host.isEmpty then
    if target.path.isEmpty || Text.beginsWith "/" target.path then
      .ok { target with host := url.host }
    else .error .relativePathAfterHost
  else .ok target

/-- The target as an absolute address. -/
def absolute (url target : Url) : Except Url.Flaw Url :=
  if target.isAbsolute then .ok target else url.join target

/-- The target with a fragment, that of `url` if it has none. -/
def fragmented (url target : Url) : Url :=
  if (url.fragment.getD "").isEmpty || !(target.fragment.getD "").isEmpty then target
  else { target with fragment := url.fragment }

/-- The address that a redirect leads to. -/
def redirectUrl (url : Url) (location : String) : Action Url := do
  let target ← Action.ofExcept invalidLocation (Url.parse location)
  let target ← Action.ofExcept invalidUrl (hosted url target)
  let target ← Action.ofExcept invalidUrl (absolute url target)
  pure (fragmented url target)

/-- What the network replies: an answer, and where it redirects to if it does. -/
def answered (url : Url) : Reply → Action (Response × Option Url)
  | .failure fault => throw fault
  | .response status location body fault => do
    Action.refuse (!url.isAbsolute)
      (.value ("unknown url type: " ++ Text.quote url.toString))
    let response : Response := ⟨status, body, fault⟩
    match redirectStatuses.contains status, location with
    | true, some location =>
      let target ← redirectUrl url location
      let _ ← response.read
      pure (response, some target)
    | _, _ => pure (response, none)

/-- Asks for an address. -/
def exchange (url : Url) : Action (Response × Option Url) := do
  answered url (← ask url.toString)

/-- Sends a request and follows redirects, `left` of them at most. -/
def send : (left : Nat) → Url → Action Response
  | 0, url => do
    match ← exchange url with
    | (response, none) => pure response
    | (_, some _) => throw (.of .tooManyRedirects "Exceeded maximum allowed redirects.")
  | left + 1, url => do
    match ← exchange url with
    | (response, none) => pure response
    | (_, some target) => send left target

/-- An address without scheme or host is taken from the top of no site. -/
def open_ (url : String) : Action Response := do
  let parsed ← parseUrl url
  send redirectLimit (if parsed.isAbsolute then parsed else parsed.fromTop)

/-- Answers with these statuses may be better next time. -/
def transientStatuses : List Nat := [408, 429, 500, 502, 503, 504]

/-- How many bytes of an error's body its fault shows. -/
def shownBytes : Nat := 200

/-- Refuses every answer but a plain success. -/
def checkStatus (url : String) (response : Response) : Action Unit :=
  if response.status = 200 then pure ()
  else if transientStatuses.contains response.status then
    throw (.transientStatus response.status)
  else do
    let body ← response.read
    let shown := Text.strip (Text.Utf8.decodeReplacing (body.take shownBytes))
    throw (.badStatus url response.status shown)

/-- One attempt to get `url` and hand the answer to `use`. -/
def attempt {α : Type} (url : String) (use : Response → Action α) : Action α := do
  let response ← open_ url
  checkStatus url response
  use response

/-- Whether another attempt may end better. -/
def isRetried (fault : Fault) : Bool :=
  fault.isAny [.transportError, .transientStatus]

/-- The wait after the `n`-th attempt, in milliseconds. -/
def waitAfter (n : Nat) : Nat :=
  min 4000 (500 * Nat.pow 2 (n - 1))

def wait (milliseconds : Nat) : Action Unit :=
  modify fun world => { world with waits := world.waits ++ [milliseconds] }

/-- Attempts from the `n`-th on, of which `left` more may follow. -/
def attemptsFrom {α : Type} (url : String) (use : Response → Action α) :
    (left n : Nat) → Action α
  | 0, n => (attempt url use).handle isRetried fun fault => throw (.retriesExceeded url n fault)
  | left + 1, n => (attempt url use).handle isRetried fun _ => do
    wait (waitAfter n)
    attemptsFrom url use left (n + 1)

/-- Gets `url` in at most `maxAttempts` attempts, and at least one. -/
def fetch {α : Type} (maxAttempts : Int) (url : String) (use : Response → Action α) : Action α :=
  attemptsFrom url use (maxAttempts - 1).toNat 1

/-- The document at `url`. -/
def getJson (maxAttempts : Int) (url : String) : Action Json :=
  fetch maxAttempts url fun response => do
    let chars ← Action.ofExcept .undecodable (Text.decodeDocument (← response.read))
    Action.ofExcept .json (Json.read chars)

def getText (maxAttempts : Int) (url : String) : Action String :=
  fetch maxAttempts url fun response => do
    return Text.Utf8.decodeReplacing (← response.read)

/-- Pieces of a body have this size if no other is asked for. -/
def defaultPiece : Int := 1024 * 128

/-- The pieces of `size` bytes that a body is cut into as it arrives. -/
def fullPieces (size : Nat) (body : Bytes) : List Bytes :=
  (List.range (body.length / size)).map fun i => Bytes.field body (i * size) size

/-- What is left over of a body then, less than a piece. -/
def lastPiece (size : Nat) (body : Bytes) : Bytes :=
  body.drop (body.length / size * size)

/-- Writes pieces to the end of a file, one after the other; how many bytes they are. -/
def writePieces (file : Path) : List Bytes → Action Nat
  | [] => pure 0
  | piece :: rest => do
    Action.onFiles (FileTree.appendFile file piece)
    return piece.length + (← writePieces file rest)

/-- Writes a body to a file as it arrives, in pieces of `piece` bytes; how many bytes it has. What
was in the file is gone, and what is left over of the body is written when it has come to its
end. -/
def writeBody (piece : Int) (file : Path) (response : Response) : Action Nat := do
  Action.onFiles (FileTree.writeFile file [])
  Action.refuse (piece ≤ 0 ∧ response.body ≠ [])
    (if piece = 0 then .value "range() arg 3 must not be zero"
      else .of .indexError "list index out of range")
  let written ← writePieces file (fullPieces piece.toNat response.body)
  let body ← response.read
  return written + (← writePieces file [lastPiece piece.toNat body])

/-- Downloads `url` to `target`, over what may be there; the number of bytes. The target changes
only once the whole body is read. -/
def downloadBy (piece maxAttempts : Int) (url : String) (target : Path) : Action Nat :=
  Action.withSibling target fun sibling =>
    Action.moving sibling target (fetch maxAttempts url (writeBody piece sibling))

def download (maxAttempts : Int) (url : String) (target : Path) : Action Nat :=
  downloadBy defaultPiece maxAttempts url target

end JarRefinery.Http
