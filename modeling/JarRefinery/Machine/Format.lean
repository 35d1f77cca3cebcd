import JarRefinery.Bytes
import JarRefinery.Text.Utf8

/-!
Formatted output: a text with escapes and conversions, which is gone through until all arguments are
used.
-/
namespace JarRefinery.Machine.Format

def isOctal (c : Char) : Bool :=
  '0' ≤ c && c ≤ '7'

def octalValue (digits : List Char) : Nat :=
  digits.foldl (fun n c => 8 * n + (c.toNat - 48)) 0

/-- The characters after a backslash that name a byte of their own. -/
def namedBytes : List (Char × UInt8) := [('\\', 0x5c), ('a', 7), ('b', 8), ('f', 0x0c), ('n', 0x0a),
  ('r', 0x0d), ('t', 9), ('v', 0x0b)]

def hexValue (digits : List Char) : Nat :=
  digits.foldl (fun n c => 16 * n + (if c.isDigit then c.toNat - 48 else c.toLower.toNat - 87)) 0

def isHex (c : Char) : Bool :=
  c.isDigit || ('a' ≤ c.toLower && c.toLower ≤ 'f')

/-- Which numbers may follow a backslash. -/
structure Numerals where
  /-- The digits of an octal number follow a zero. -/
  zeroFirst : Bool
  hex : Bool

/-- What the characters after a backslash stand for, and what follows them. -/
def readEscape (numerals : Numerals) (chars : List Char) : Bytes × List Char :=
  match chars with
  | [] => ([0x5c], [])
  | c :: rest =>
    match namedBytes.lookup c with
    | some byte => ([byte], rest)
    | none =>
      if numerals.zeroFirst && c == '0' || !numerals.zeroFirst && isOctal c then
        let chars := if numerals.zeroFirst then rest else chars
        let digits := (chars.take 3).takeWhile isOctal
        ([UInt8.ofNat (octalValue digits)], chars.drop digits.length)
      else if numerals.hex && c == 'x' && (rest.head?.map isHex).getD false then
        let digits := (rest.take 2).takeWhile isHex
        ([UInt8.ofNat (hexValue digits)], rest.drop digits.length)
      else if c = '\x22' then ([0x22], rest)
      else (0x5c :: Text.Utf8.encode (String.singleton c), rest)

/-- A text with its escapes replaced, up to the one that ends all output. -/
def unescape (hex : Bool) : (fuel : Nat) → List Char → Bytes × Bool
  | 0, _ => ([], false)
  | _ + 1, [] => ([], false)
  | _ + 1, '\\' :: 'c' :: _ => ([], true)
  | fuel + 1, '\\' :: rest =>
    let (bytes, rest) := readEscape ⟨true, hex⟩ rest
    let (more, isOver) := unescape hex fuel rest
    (bytes ++ more, isOver)
  | fuel + 1, c :: rest =>
    let (more, isOver) := unescape hex fuel rest
    (Text.Utf8.encode (String.singleton c) ++ more, isOver)

def unescaped (hex : Bool) (text : String) : Bytes × Bool :=
  unescape hex (text.length + 1) text.toList

structure Conversion where
  flags : List Char
  width : Nat
  precision : Option Nat
  letter : Char

/-- A conversion behind its percent sign, and what follows it. -/
def readConversion? (chars : List Char) : Option (Conversion × List Char) :=
  let isFlag (c : Char) := "-+ 0#".contains c
  let flags := chars.takeWhile isFlag
  let chars := chars.drop flags.length
  let width := chars.takeWhile Char.isDigit
  let chars := chars.drop width.length
  let number (digits : List Char) := ((String.ofList digits).toNat?).getD 0
  let (precision, chars) := match chars with
    | '.' :: rest =>
      let digits := rest.takeWhile Char.isDigit
      (some (number digits), rest.drop digits.length)
    | chars => (none, chars)
  match chars with
  | letter :: rest => some (⟨flags, number width, precision, letter⟩, rest)
  | [] => none

/-- The number that an argument gives, zero if it gives none. -/
def integerOf (argument : String) : Int :=
  match argument.toInt? with
  | some n => n
  | none => match argument.toList with
    | '\x27' :: c :: _ => c.toNat
    | '\x22' :: c :: _ => c.toNat
    | '+' :: digits => ((String.ofList digits).toNat?).getD 0
    | _ => 0

def digitsOf (base : Nat) (n : Int) : String :=
  String.ofList (Nat.toDigits base (n % 0x10000000000000000).toNat)

/-- An argument as a conversion shows it, before it is padded. -/
def shown (hex : Bool) (conversion : Conversion) (argument : String) : Bytes :=
  let text (s : String) : Bytes := Text.Utf8.encode s
  let n := integerOf argument
  match conversion.letter with
  | 'd' | 'i' =>
    text ((if conversion.flags.contains '+' && 0 ≤ n then "+" else "") ++ toString n)
  | 'u' => text (digitsOf 10 n)
  | 'x' => text (digitsOf 16 n)
  | 'X' => text (String.ofList ((digitsOf 16 n).toList.map Char.toUpper))
  | 'o' => text (digitsOf 8 n)
  | 'c' => (text argument).take 1
  | 'b' => (unescaped hex argument).1
  | _ => match conversion.precision with
    | none => text argument
    | some limit => (text argument).take limit

def padded (conversion : Conversion) (bytes : Bytes) : Bytes :=
  let missing := conversion.width - bytes.length
  let isNumber := "diuxXo".contains conversion.letter
  if conversion.flags.contains '-' then bytes ++ List.replicate missing 0x20
  else if conversion.flags.contains '0' && isNumber then
    match bytes with
    | 0x2d :: digits => 0x2d :: List.replicate missing 0x30 ++ digits
    | bytes => List.replicate missing 0x30 ++ bytes
  else List.replicate missing 0x20 ++ bytes

/-- One pass through a format: what is written, and the arguments left. -/
def pass (hex : Bool) : (fuel : Nat) → List Char → List String → Bytes × List String
  | 0, _, arguments => ([], arguments)
  | _ + 1, [], arguments => ([], arguments)
  | fuel + 1, '\\' :: rest, arguments =>
    let (bytes, rest) := readEscape ⟨false, hex⟩ rest
    let (more, left) := pass hex fuel rest arguments
    (bytes ++ more, left)
  | fuel + 1, '%' :: '%' :: rest, arguments =>
    let (more, left) := pass hex fuel rest arguments
    (0x25 :: more, left)
  | fuel + 1, '%' :: rest, arguments =>
    match readConversion? rest with
    | none => ([0x25], arguments)
    | some (conversion, rest) =>
      let bytes := padded conversion (shown hex conversion (arguments.headD ""))
      let (more, left) := pass hex fuel rest arguments.tail
      (bytes ++ more, left)
  | fuel + 1, c :: rest, arguments =>
    let (more, left) := pass hex fuel rest arguments
    (Text.Utf8.encode (String.singleton c) ++ more, left)

/-- Passes through a format until no arguments are left, or a pass uses none. -/
def passes (hex : Bool) (format : List Char) : (fuel : Nat) → List String → Bytes
  | 0, _ => []
  | fuel + 1, arguments =>
    let (bytes, left) := pass hex (format.length + 1) format arguments
    if left.isEmpty || left.length = arguments.length then bytes
    else bytes ++ passes hex format fuel left

/-- The output for a format and its arguments. Bytes may be given as hexadecimal numbers if `hex`
holds. -/
def format (hex : Bool) (text : String) (arguments : List String) : Bytes :=
  passes hex text.toList (arguments.length + 1) arguments

end JarRefinery.Machine.Format
