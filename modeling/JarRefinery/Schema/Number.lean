import JarRefinery.Decimal.Binary64
import JarRefinery.Text.Lines

/-!
Numbers written as text in a document's fields: more than plain digits is accepted, but blanks only
at the ends.
-/
namespace JarRefinery.Schema

/-- The characters that may stand around a number: white space without the separators of ASCII. -/
def isPadding (c : Char) : Bool :=
  let n := c.toNat
  (0x09 ≤ n && n ≤ 0x0d) || n == 0x20 || n == 0x85 || n == 0xa0 || n == 0x1680 ||
    (0x2000 ≤ n && n ≤ 0x200a) || n == 0x2028 || n == 0x2029 || n == 0x202f || n == 0x205f ||
    n == 0x3000

def trim (text : String) : List Char :=
  let ends (chars : List Char) := (chars.dropWhile isPadding).reverse
  ends (ends text.toList)

def splitSign : List Char → Bool × List Char
  | '-' :: rest => (true, rest)
  | '+' :: rest => (false, rest)
  | chars => (false, chars)

/-- Drops zeros, and low lines after a zero, from the front; one zero stays if no digit follows. -/
def dropLeadingZeros : List Char → List Char
  | '0' :: rest =>
    match rest.dropWhile (fun c => c == '0' || c == '_') with
    | [] => if rest.getLast? == some '_' then ['_'] else ['0']
    | '.' :: tail => '0' :: '.' :: tail
    | tail => tail
  | chars => chars

/-- Drops a point with nothing but zeros after it. -/
def dropZeroFraction (chars : List Char) : List Char :=
  match chars.dropWhile (· != '.') with
  | _ :: digit :: digits =>
    if (digit :: digits).all (· == '0') then chars.takeWhile (· != '.') else chars
  | _ => chars

/-- Whether every low line stands between two other characters. -/
def separatorsInside : (previous : Char) → List Char → Bool
  | previous, [] => previous != '_'
  | previous, c :: rest => !(previous == '_' && c == '_') && separatorsInside c rest

def dropSeparators (chars : List Char) : List Char :=
  if separatorsInside '_' chars then chars.filter (· != '_') else chars

inductive IntegerText where
  | integer (n : Int)
  | tooLong
  | malformed

def digitLimit : Nat := 4300

def readInteger (text : String) : IntegerText :=
  let (negative, body) := splitSign (trim text)
  let digits := dropSeparators (dropZeroFraction (dropLeadingZeros body))
  if digits.isEmpty || !digits.all Char.isDigit then .malformed
  else if digitLimit < digits.length then .tooLong
  else
    let n : Int := digits.foldl (fun n c => n * 10 + (c.toNat - 48)) (0 : Nat)
    .integer (if negative then -n else n)

def digitsValue (digits : List Char) : Nat :=
  digits.foldl (fun n c => n * 10 + (c.toNat - 48)) 0

def lowerAscii (chars : List Char) : String :=
  String.ofList (chars.map Char.toLower)

/-- The exponent that follows the digits of a number, zero if nothing follows. -/
def readExponent? : List Char → Option Int
  | [] => some 0
  | e :: rest =>
    let (negative, digits) := splitSign rest
    if (e == 'e' || e == 'E') && !digits.isEmpty && digits.all Char.isDigit then
      some (if negative then -(digitsValue digits : Int) else digitsValue digits)
    else none

/-- A number with or without point and exponent, or the name of infinity or of no number. -/
def readPlainNumber? (chars : List Char) : Option Binary64 :=
  let (negative, body) := splitSign chars
  let word := lowerAscii body
  if word = "inf" ∨ word = "infinity" then some (.infinity negative)
  else if word = "nan" then some .nan
  else
    let whole := body.takeWhile Char.isDigit
    let (places, rest) := match body.drop whole.length with
      | '.' :: rest => (rest.takeWhile Char.isDigit, rest.dropWhile Char.isDigit)
      | rest => ([], rest)
    if whole.isEmpty && places.isEmpty then none
    else (readExponent? rest).map fun exponent =>
      .ofDecimal negative (digitsValue (whole ++ places)) (exponent - places.length)

/-- Low lines between digits are left out if the number cannot be read with them. -/
def readNumber? (text : String) : Option Binary64 :=
  let chars := trim text
  match readPlainNumber? chars with
  | some x => some x
  | none => if chars.contains '_' then readPlainNumber? (dropSeparators chars) else none

end JarRefinery.Schema
