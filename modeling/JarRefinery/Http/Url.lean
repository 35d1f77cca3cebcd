import JarRefinery.Text.Blank
import JarRefinery.Text.Quoted
import JarRefinery.Text.Split
import JarRefinery.Text.Utf8

/-!
Addresses. Reading one brings it into normal form: scheme and host in lower case, no default port,
no dot segments, and every character outside the safe ones of its part written by its bytes.
-/
namespace JarRefinery

structure Url where
  scheme : String
  userinfo : String
  host : String
  port : Option Int
  path : String
  query : Option String
  fragment : Option String
deriving DecidableEq, Repr

namespace Url

inductive Flaw where
  | tooLong
  | unprintable (c : Char) (position : Nat)
  | badIpv4 (host : String)
  | badIpv6 (host : String)
  | badPort (port : String)
  | relativePathAfterHost
  | doubleSlash
  | leadingColon
deriving DecidableEq, Repr

def Flaw.message : Flaw → String
  | tooLong => "URL too long"
  | unprintable c position =>
    "Invalid non-printable ASCII character in URL, " ++ Text.quote (String.singleton c) ++
      " at position " ++ toString position ++ "."
  | badIpv4 host => "Invalid IPv4 address: " ++ Text.quote host
  | badIpv6 host => "Invalid IPv6 address: " ++ Text.quote host
  | badPort port => "Invalid port: " ++ Text.quote port
  | relativePathAfterHost => "For absolute URLs, path must be empty or begin with '/'"
  | doubleSlash => "Relative URLs cannot have a path starting with '//'"
  | leadingColon => "Relative URLs cannot have a path starting with ':'"

def lengthLimit : Nat := 65536

def isControl (c : Char) : Bool :=
  c.toNat < 0x20 || c.toNat == 0x7f

/-- The printable characters of ASCII without the blank and those of `unsafeOnes`. -/
def printableBut (unsafeOnes : String) (c : Char) : Bool :=
  0x20 < c.toNat && c.toNat < 0x7f && !unsafeOnes.toList.contains c

def isFragmentSafe : Char → Bool := printableBut "\"<>`"
def isQuerySafe : Char → Bool := printableBut "\"#<>"
def isPathSafe : Char → Bool := printableBut "\"#<>?`\x7b\x7d"
def isUserSafe : Char → Bool := printableBut "\"#<>?`\x7b\x7d/;=@[\\]^|"

def isHostSafe (c : Char) : Bool :=
  c.isAlphanum || "-._~!$&'()*+,;=\"`\x7b\x7d%|\\".toList.contains c

def isHexDigit (c : Char) : Bool :=
  c.isDigit || ('a' ≤ c && c ≤ 'f') || ('A' ≤ c && c ≤ 'F')

def hexUpper (n : Nat) : Char :=
  if n < 10 then Char.ofNat (48 + n) else Char.ofNat (55 + n)

/-- A character written by the bytes that encode it. -/
def percentEncode (c : Char) : List Char :=
  (String.utf8EncodeChar c).flatMap fun b =>
    ['%', hexUpper (b.toNat / 16), hexUpper (b.toNat % 16)]

/-- Encodes what is not safe; what is already encoded stays. -/
def encodeChars (isSafe : Char → Bool) : List Char → List Char
  | '%' :: a :: b :: rest =>
    if isHexDigit a && isHexDigit b then '%' :: a :: b :: encodeChars isSafe rest
    else (if isSafe '%' then ['%'] else percentEncode '%') ++ encodeChars isSafe (a :: b :: rest)
  | c :: rest => (if isSafe c then [c] else percentEncode c) ++ encodeChars isSafe rest
  | [] => []

def encodePart (isSafe : Char → Bool) (text : String) : String :=
  String.ofList (encodeChars isSafe text.toList)

/-- The parts before and after the first `c`. -/
def splitAt? (c : Char) (chars : List Char) : Option (List Char × List Char) :=
  match chars.dropWhile (· != c) with
  | [] => none
  | _ :: rest => some (chars.takeWhile (· != c), rest)

/-- The parts before and after the last `c`. -/
def splitAtLast? (c : Char) (chars : List Char) : Option (List Char × List Char) :=
  (splitAt? c chars.reverse).map fun (after, before) => (before.reverse, after.reverse)

def isSchemeText : List Char → Bool
  | [] => true
  | c :: rest => c.isAlpha && rest.all fun c => c.isAlphanum || c == '+' || c == '.' || c == '-'

/-- The parts of an address as written. -/
structure Parts where
  scheme : List Char
  authority : List Char
  path : List Char
  query : Option (List Char)
  fragment : Option (List Char)

def cutOff (c : Char) (chars : List Char) : List Char × Option (List Char) :=
  match splitAt? c chars with
  | some (before, after) => (before, some after)
  | none => (chars, none)

def splitParts (chars : List Char) : Parts :=
  let (scheme, rest) := match splitAt? ':' chars with
    | some (scheme, rest) => if isSchemeText scheme then (scheme, rest) else ([], chars)
    | none => ([], chars)
  let isAuthority (c : Char) := c != '/' && c != '?' && c != '#'
  let (authority, rest) := match rest with
    | '/' :: '/' :: rest => (rest.takeWhile isAuthority, rest.dropWhile isAuthority)
    | rest => ([], rest)
  let (rest, fragment) := cutOff '#' rest
  let (path, query) := cutOff '?' rest
  ⟨scheme, authority, path, query, fragment⟩

/-- User, host and port of an authority; a host in brackets may hold colons. -/
def splitAuthority (chars : List Char) : List Char × List Char × List Char :=
  let (user, rest) := match splitAtLast? '@' chars with
    | some (user, rest) => (user, rest)
    | none => ([], chars)
  let bracketed := match rest with
    | '[' :: _ => splitAtLast? ']' rest
    | _ => none
  let (host, rest) := match bracketed with
    | some (inside, rest) => (inside ++ [']'], rest)
    | none => (rest.takeWhile (· != ':'), rest.dropWhile (· != ':'))
  (user, host, match rest with | ':' :: port => port | port => port)

/-- Whether the text is `groups` runs of digits with some one character between each two. -/
def isQuadLike (groups : Nat) : (fuel : Nat) → List Char → Bool
  | 0, _ => false
  | fuel + 1, chars =>
    match chars with
    | [] => false
    | c :: rest =>
      c.isDigit && ((groups == 1 && rest.isEmpty) || isQuadLike groups fuel rest ||
        match groups, rest with
        | groups + 2, _ :: rest => isQuadLike (groups + 1) fuel rest
        | _, _ => false)

def isOctet (part : String) : Bool :=
  let chars := part.toList
  !chars.isEmpty && chars.length ≤ 3 && chars.all Char.isDigit &&
    (chars.length == 1 || chars.head? != some '0') && part.toNat?.getD 256 < 256

def isIpv4 (host : String) : Bool :=
  let parts := Text.split '.' host
  parts.length == 4 && parts.all isOctet

def isIpv6Like (chars : List Char) : Bool :=
  chars.all (fun c => isHexDigit c || c == ':' || c == '.') && 2 ≤ chars.count ':'

def readHost (chars : List Char) : Except Flaw String :=
  let host := String.ofList chars
  if chars.isEmpty then .ok ""
  else if isQuadLike 4 chars.length chars then
    if isIpv4 host then .ok host else .error (.badIpv4 host)
  else if chars.head? == some '[' && chars.getLast? == some ']' then
    let inside := (chars.drop 1).dropLast
    if isIpv6Like inside then .ok (String.ofList inside) else .error (.badIpv6 host)
  else .ok (String.ofList (encodeChars isHostSafe (chars.map Char.toLower)))

def defaultPort? : String → Option Int
  | "ftp" => some 21
  | "http" | "ws" => some 80
  | "https" | "wss" => some 443
  | _ => none

def readPort (scheme port : String) : Except Flaw (Option Int) :=
  if port.isEmpty then .ok none
  else match (Text.strip port).toInt? with
    | none => .error (.badPort port)
    | some n => .ok (if defaultPort? scheme = some n then none else some n)

/-- A path without its dot segments. -/
def withoutDots (path : String) : String :=
  let segments := Text.split '/' path
  if segments.contains "." || segments.contains ".." then
    "/".intercalate (segments.foldl (fun output segment =>
      if segment = "." then output
      else if segment = ".." then
        if output = [] ∨ output = [""] then output else output.dropLast
      else output ++ [segment]) [])
  else path

def checkPath (path : String) (hasScheme hasAuthority : Bool) : Except Flaw Unit :=
  if hasAuthority then
    if path.isEmpty || Text.beginsWith "/" path then .ok () else .error .relativePathAfterHost
  else if hasScheme then .ok ()
  else if Text.beginsWith "//" path then .error .doubleSlash
  else if Text.beginsWith ":" path then .error .leadingColon
  else .ok ()

def ofParts (parts : Parts) : Except Flaw Url := do
  let (user, host, port) := splitAuthority parts.authority
  let written := String.ofList parts.scheme
  let scheme := String.ofList (parts.scheme.map Char.toLower)
  let userinfo := String.ofList (encodeChars isUserSafe user)
  let host ← readHost host
  let port ← readPort written (String.ofList port)
  let hasScheme := !scheme.isEmpty
  let hasAuthority := !userinfo.isEmpty || !host.isEmpty || port.isSome
  let path := String.ofList parts.path
  checkPath path hasScheme hasAuthority
  let path := if hasScheme || hasAuthority then withoutDots path else path
  pure {
    scheme, userinfo, host, port
    path := encodePart isPathSafe path
    query := parts.query.map fun chars => encodePart isQuerySafe (String.ofList chars)
    fragment := parts.fragment.map fun chars => encodePart isFragmentSafe (String.ofList chars) }

def parse (text : String) : Except Flaw Url :=
  let chars := text.toList
  if lengthLimit < chars.length then .error .tooLong
  else match chars.find? isControl with
    | some c => .error (.unprintable c (chars.takeWhile (· != c)).length)
    | none => ofParts (splitParts chars)

def authority (url : Url) : String :=
  (if url.userinfo.isEmpty then "" else url.userinfo ++ "@") ++
    (if url.host.toList.contains ':' then "[" ++ url.host ++ "]" else url.host) ++
    match url.port with
    | none => ""
    | some port => ":" ++ toString port

def tail (mark : String) : Option String → String
  | none => ""
  | some text => mark ++ text

def toString (url : Url) : String :=
  (if url.scheme.isEmpty then "" else url.scheme ++ ":") ++
    (if url.authority.isEmpty then "" else "//" ++ url.authority) ++
    url.path ++ tail "?" url.query ++ tail "#" url.fragment

def isAbsolute (url : Url) : Bool :=
  !url.scheme.isEmpty && !url.host.isEmpty

/-- An address without scheme or host, as a path from the top. -/
def fromTop (url : Url) : Url :=
  let path := (if url.path.isEmpty then "/" else url.path)
  let path := String.ofList (path.toList.dropWhile (· == '/'))
  ⟨"", "", "", none, "/" ++ path, url.query, none⟩

/-! ### References -/

/-- The address as a reference is resolved against it: the parameters of the last path segment are
kept apart. -/
structure Reference where
  scheme : String
  authority : String
  path : String
  params : String
  query : String
  fragment : String

def splitParams (path : String) : String × String :=
  let chars := path.toList
  let last := (chars.reverse.takeWhile (· != '/')).reverse
  match splitAt? ';' last with
  | none => (path, "")
  | some (before, after) =>
    (String.ofList (chars.take (chars.length - last.length) ++ before), String.ofList after)

def toReference (url : Url) : Reference :=
  let (path, params) := splitParams url.path
  ⟨url.scheme, url.authority, path, params, url.query.getD "", url.fragment.getD ""⟩

def Reference.toString (r : Reference) : String :=
  let some_ (mark text : String) := if text.isEmpty then "" else mark ++ text
  some_ "" (if r.scheme.isEmpty then "" else r.scheme ++ ":") ++ some_ "//" r.authority ++
    r.path ++ some_ ";" r.params ++ some_ "?" r.query ++ some_ "#" r.fragment

/-- The segments of a path taken as seen from the path `base`. -/
def resolveSegments (base path : String) : List String :=
  if Text.beginsWith "/" path then Text.split '/' path
  else
    let parts := Text.split '/' base
    let parts := if parts.getLast? == some "" then parts else parts.dropLast
    let segments := parts ++ Text.split '/' path
    match segments with
    | [] => []
    | first :: rest => first :: (rest.dropLast.filter (· ≠ "") ++ rest.getLast?.toList)

def resolvePath (base path : String) : String :=
  let segments := resolveSegments base path
  let output := segments.foldl (fun output segment =>
    if segment = ".." then output.dropLast
    else if segment = "." then output
    else output ++ [segment]) []
  let last := segments.getLast?
  let output := if last = some "." ∨ last = some ".." then output ++ [""] else output
  let joined := "/".intercalate output
  if joined.isEmpty then "/" else joined

/-- What a relative reference means, seen from `base`. -/
def Reference.resolve (base reference : Reference) : Reference :=
  if !reference.authority.isEmpty then { reference with scheme := base.scheme }
  else if reference.path.isEmpty && reference.params.isEmpty then
    { base with
      query := if reference.query.isEmpty then base.query else reference.query
      fragment := reference.fragment }
  else
    { reference with
      scheme := base.scheme
      authority := base.authority
      path := resolvePath base.path reference.path }

/-- The address that `reference` means on the page at `base`. -/
def join (base reference : Url) : Except Flaw Url :=
  if !reference.scheme.isEmpty ∧ reference.scheme ≠ base.scheme then .ok reference
  else parse (base.toReference.resolve reference.toReference).toString

end Url

end JarRefinery
