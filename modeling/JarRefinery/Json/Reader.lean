import JarRefinery.Json.Value
import JarRefinery.Text.Charset

/-!
Reading JSON. Beside the standard grammar, `NaN` and the two infinities are numbers. The first flaw
is reported with its place, counted in characters.
-/
namespace JarRefinery.Json

inductive Flaw where
  | value
  | propertyName
  | colon
  | comma
  | unterminatedText
  | controlCharacter
  | escape
  | unicodeEscape
  | extraData
  | byteOrderMark
deriving DecidableEq, Repr

def Flaw.message : Flaw → String
  | value => "Expecting value"
  | propertyName => "Expecting property name enclosed in double quotes"
  | colon => "Expecting ':' delimiter"
  | comma => "Expecting ',' delimiter"
  | unterminatedText => "Unterminated string starting at"
  | controlCharacter => "Invalid control character at"
  | escape => "Invalid \\escape"
  | unicodeEscape => "Invalid \\uXXXX escape"
  | extraData => "Extra data"
  | byteOrderMark => "Unexpected UTF-8 BOM (decode using utf-8-sig)"

inductive ReadError where
  | malformed (flaw : Flaw) (line column offset : Nat)
  | tooManyDigits (count : Nat)
  | tooDeep (inObject : Bool)
deriving DecidableEq, Repr

def ReadError.message : ReadError → String
  | malformed flaw line column offset =>
    flaw.message ++ ": line " ++ toString line ++ " column " ++ toString column ++
      " (char " ++ toString offset ++ ")"
  | tooManyDigits count =>
    "Exceeds the limit (4300 digits) for integer string conversion: value has " ++
      toString count ++ " digits; use sys.set_int_max_str_digits() to increase the limit"
  | tooDeep inObject =>
    "maximum recursion depth exceeded while decoding a JSON " ++
      (if inObject then "object" else "array") ++ " from a unicode string"

/-- Why reading stopped; a flaw lies where `remaining` characters are left. -/
inductive Stop where
  | flaw (flaw : Flaw) (remaining : Nat)
  | digits (count : Nat)
  | depth (inObject : Bool)

def flawAt {α : Type} (flaw : Flaw) (rest : List Char) : Except Stop α :=
  .error (.flaw flaw rest.length)

/-- Lists and objects may lie this deep in one another. -/
def depthLimit : Nat := 960

def digitLimit : Nat := 4300

def isSpace (c : Char) : Bool :=
  c == ' ' || c == '\n' || c == '\r' || c == '\t'

def skipSpace (chars : List Char) : List Char :=
  chars.dropWhile isSpace

def hexValue? (c : Char) : Option Nat :=
  if '0' ≤ c && c ≤ '9' then some (c.toNat - 48)
  else if 'a' ≤ c && c ≤ 'f' then some (c.toNat - 87)
  else if 'A' ≤ c && c ≤ 'F' then some (c.toNat - 55)
  else none

/-- The number of four hexadecimal digits, which must not be the last characters. -/
def readUnit : List Char → Option (Nat × List Char)
  | a :: b :: c :: d :: e :: rest => do
    let w ← hexValue? a
    let x ← hexValue? b
    let y ← hexValue? c
    let z ← hexValue? d
    pure (((w * 16 + x) * 16 + y) * 16 + z, e :: rest)
  | _ => none

def simpleEscape? (c : Char) : Option Char :=
  match c with
  | '\x22' => some '\x22'
  | '\\' => some '\\'
  | '/' => some '/'
  | 'b' => some '\x08'
  | 'f' => some '\x0c'
  | 'n' => some '\n'
  | 'r' => some '\r'
  | 't' => some '\t'
  | _ => none

/-- The character of an escape by number, whose digits `chars` begins with; an escaped surrogate
pair is one character. -/
def readUnicodeEscape (chars : List Char) : Except Stop (Char × List Char) :=
  match readUnit chars with
  | none => .error (.flaw .unicodeEscape (chars.length + 1))
  | some (high, rest) =>
    match Text.Charset.isHighSurrogate high, rest with
    | true, '\\' :: 'u' :: more =>
      if more.length ≤ 4 then .ok (Text.Charset.scalar high, rest)
      else match readUnit more with
        | none => .error (.flaw .unicodeEscape (more.length + 1))
        | some (low, after) =>
          if Text.Charset.isLowSurrogate low then
            .ok (Char.ofNat (0x10000 + (high - 0xd800) * 0x400 + (low - 0xdc00)), after)
          else .ok (Text.Charset.scalar high, rest)
    | _, _ => .ok (Text.Charset.scalar high, rest)

/-- The rest of a text whose opening quote was read where `opened` characters were left. -/
def readText (opened : Nat) : (fuel : Nat) → (read : List Char) → List Char →
    Except Stop (String × List Char)
  | 0, _, _ => .error (.flaw .unterminatedText opened)
  | fuel + 1, read, chars =>
    match chars with
    | [] => .error (.flaw .unterminatedText opened)
    | '\x22' :: rest => .ok (String.ofList read.reverse, rest)
    | '\\' :: 'u' :: rest => do
      let (c, rest) ← readUnicodeEscape rest
      readText opened fuel (c :: read) rest
    | '\\' :: [] => .error (.flaw .unterminatedText opened)
    | '\\' :: c :: rest =>
      match simpleEscape? c with
      | some c => readText opened fuel (c :: read) rest
      | none => .error (.flaw .escape (rest.length + 2))
    | c :: rest =>
      if c.toNat < 0x20 then .error (.flaw .controlCharacter (rest.length + 1))
      else readText opened fuel (c :: read) rest

def digitsValue (digits : List Char) : Nat :=
  digits.foldl (fun n c => n * 10 + (c.toNat - 48)) 0

/-- The exponent of a number, zero if none is written. -/
def readExponent (chars : List Char) : Option Int × List Char :=
  match chars with
  | e :: rest =>
    if e == 'e' || e == 'E' then
      let (negative, tail) := match rest with
        | '-' :: tail => (true, tail)
        | '+' :: tail => (false, tail)
        | tail => (false, tail)
      match tail.takeWhile Char.isDigit with
      | [] => (none, chars)
      | digits =>
        let n : Int := digitsValue digits
        (some (if negative then -n else n), tail.dropWhile Char.isDigit)
    else (none, chars)
  | [] => (none, chars)

/-- Whether a minus sign comes first, and what follows it. -/
def readSign (chars : List Char) : Bool × List Char :=
  match chars with
  | '-' :: body => (true, body)
  | body => (false, body)

/-- The digits before the point, of which a zero can only be the only one. -/
def wholeDigits (body : List Char) : List Char :=
  match body with
  | '0' :: _ => ['0']
  | body => body.takeWhile Char.isDigit

/-- The digits after the point, if there are any. -/
def readPlaces (chars : List Char) : Option (List Char) × List Char :=
  match chars with
  | '.' :: tail =>
    match tail.takeWhile Char.isDigit with
    | [] => (none, chars)
    | places => (some places, tail.drop places.length)
  | _ => (none, chars)

/-- A number, whose first characters `chars` holds; an integer may have so many digits. -/
def readNumber (limit : Nat) (chars : List Char) : Except Stop (Json × List Char) :=
  let (negative, body) := readSign chars
  let whole := wholeDigits body
  if whole.isEmpty then flawAt .value chars
  else
    let (places, rest) := readPlaces (body.drop whole.length)
    match places, readExponent rest with
    | none, (none, rest) =>
      if limit < whole.length then .error (.digits whole.length)
      else
        let n : Int := digitsValue whole
        .ok (.integer (if negative then -n else n), rest)
    | places, (exponent, rest) =>
      let places := places.getD []
      .ok (.number (Binary64.ofDecimal negative (digitsValue (whole ++ places))
        (exponent.getD 0 - places.length)), rest)

/-- What is left after `word`. -/
def after? (word : String) (chars : List Char) : Option (List Char) :=
  if word.toList.isPrefixOf chars then some (chars.drop word.length) else none

def words : List (String × Json) := [
  ("null", .null), ("true", .bool true), ("false", .bool false), ("NaN", .number .nan),
  ("Infinity", .number (.infinity false)), ("-Infinity", .number (.infinity true))]

def readWord? (chars : List Char) : Option (Json × List Char) :=
  words.findSome? fun (word, value) => (after? word chars).map (value, ·)

mutual

def readValue (limit : Nat) : (fuel depth : Nat) → List Char → Except Stop (Json × List Char)
  | 0, _, chars => flawAt .value chars
  | fuel + 1, depth, chars =>
    match chars with
    | '\x22' :: rest => do
      let (value, rest) ← readText chars.length chars.length [] rest
      pure (.text value, rest)
    | '[' :: rest =>
      if depth = 0 then .error (.depth false)
      else match skipSpace rest with
        | ']' :: rest => .ok (.list [], rest)
        | rest => do
          let (items, rest) ← readItems limit fuel (depth - 1) rest
          pure (.list items, rest)
    | '\x7b' :: rest =>
      if depth = 0 then .error (.depth true)
      else match skipSpace rest with
        | '\x7d' :: rest => .ok (.object [], rest)
        | rest => do
          let (fields, rest) ← readFields limit fuel (depth - 1) rest
          pure (ofFields fields, rest)
    | chars =>
      match readWord? chars with
      | some result => .ok result
      | none => readNumber limit chars

def readItems (limit : Nat) : (fuel depth : Nat) → List Char → Except Stop (List Json × List Char)
  | 0, _, chars => flawAt .value chars
  | fuel + 1, depth, chars => do
    let (item, rest) ← readValue limit fuel depth chars
    match skipSpace rest with
    | ']' :: rest => pure ([item], rest)
    | ',' :: rest => do
      let (items, rest) ← readItems limit fuel depth (skipSpace rest)
      pure (item :: items, rest)
    | rest => flawAt .comma rest

def readFields (limit : Nat) : (fuel depth : Nat) → List Char → Except Stop (Fields × List Char)
  | 0, _, chars => flawAt .value chars
  | fuel + 1, depth, chars =>
    match chars with
    | '\x22' :: rest => do
      let (key, rest) ← readText chars.length chars.length [] rest
      match skipSpace rest with
      | ':' :: rest => do
        let (value, rest) ← readValue limit fuel depth (skipSpace rest)
        match skipSpace rest with
        | '\x7d' :: rest => pure ([(key, value)], rest)
        | ',' :: rest => do
          let (fields, rest) ← readFields limit fuel depth (skipSpace rest)
          pure ((key, value) :: fields, rest)
        | rest => flawAt .comma rest
      | rest => flawAt .colon rest
    | chars => flawAt .propertyName chars

end

/-- The place of a flaw in the whole document: lines and columns count from one. -/
def place (chars : List Char) (offset : Nat) : Nat × Nat :=
  let before := chars.take offset
  let tail := before.reverse.takeWhile (· != '\n')
  (before.count '\n' + 1, tail.length + 1)

def Stop.toError (chars : List Char) : Stop → ReadError
  | .flaw found remaining =>
    let offset := chars.length - remaining
    let (line, column) := place chars offset
    .malformed found line column offset
  | .digits count => .tooManyDigits count
  | .depth inObject => .tooDeep inObject

/-- The document that `chars` is, if no integer has more than `limit` digits, and lists and objects lie
no deeper than `depth` in one another. -/
def readWithin (limit depth : Nat) (chars : List Char) : Except ReadError Json :=
  let document : Except Stop Json := do
    let (value, rest) ← readValue limit (2 * chars.length + 2) depth (skipSpace chars)
    match skipSpace rest with
    | [] => pure value
    | rest => flawAt .extraData rest
  document.mapError (Stop.toError chars)

/-- The document that `chars` is. -/
def read (chars : List Char) : Except ReadError Json :=
  readWithin digitLimit depthLimit chars

/-- The document that a text is, which must not begin with a byte order mark. -/
def readString (text : String) : Except ReadError Json :=
  match text.toList with
  | '\ufeff' :: rest =>
    .error (Stop.toError ('\ufeff' :: rest) (.flaw .byteOrderMark (rest.length + 1)))
  | chars => read chars

end JarRefinery.Json
