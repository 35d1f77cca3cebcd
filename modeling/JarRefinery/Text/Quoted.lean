import JarRefinery.Bytes
import JarRefinery.Text.Printable

/-!
Quoted text, as messages show names: single quotes, or double ones around a text that holds a
single quote and no double one. A backslash and the chosen quote are escaped, and characters that
are not printable are given by number.
-/
namespace JarRefinery.Text

/-- `n` in base sixteen with `width` digits. -/
def hexOf : (width : Nat) → (n : Nat) → List Char
  | 0, _ => []
  | width + 1, n => hexOf width (n / 16) ++ [Bytes.hexDigit (n % 16)]

/-- `n` in base sixteen with as many digits as it needs, at least one. -/
def hexNatural (n : Nat) : String :=
  String.ofList (Nat.toDigits 16 n)

def escapeNumber (n : Nat) : List Char :=
  if n < 0x100 then '\\' :: 'x' :: hexOf 2 n
  else if n < 0x10000 then '\\' :: 'u' :: hexOf 4 n
  else '\\' :: 'U' :: hexOf 8 n

def escapeChar (quote c : Char) : List Char :=
  if c = quote ∨ c = '\\' then ['\\', c]
  else if c = '\n' then ['\\', 'n']
  else if c = '\r' then ['\\', 'r']
  else if c = '\t' then ['\\', 't']
  else if isPrintable c then [c]
  else escapeNumber c.toNat

def singleQuote : Char := '\x27'
def doubleQuote : Char := '\x22'

def chooseQuote (hasSingle hasDouble : Bool) : Char :=
  if hasSingle && !hasDouble then doubleQuote else singleQuote

def quoteChars (chars : List Char) : List Char :=
  let quote := chooseQuote (chars.contains singleQuote) (chars.contains doubleQuote)
  quote :: chars.flatMap (escapeChar quote) ++ [quote]

def quote (text : String) : String :=
  String.ofList (quoteChars text.toList)

/-- Bytes in quotes: ASCII as it is, every other byte by number. -/
def escapeByte (quote : Char) (b : UInt8) : List Char :=
  let c := Char.ofNat b.toNat
  if c = quote ∨ c = '\\' then ['\\', c]
  else if c = '\n' then ['\\', 'n']
  else if c = '\r' then ['\\', 'r']
  else if c = '\t' then ['\\', 't']
  else if 0x20 ≤ b && b < 0x7f then [c]
  else '\\' :: 'x' :: hexOf 2 b.toNat

def quoteBytes (bytes : Bytes) : String :=
  let quote := chooseQuote (bytes.contains 0x27) (bytes.contains 0x22)
  String.ofList ('b' :: quote :: bytes.flatMap (escapeByte quote) ++ [quote])

end JarRefinery.Text
