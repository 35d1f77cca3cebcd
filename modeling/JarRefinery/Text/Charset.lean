import JarRefinery.Text.Utf8

/-!
Character sets. A document that does not name its own is recognised by its byte order mark, or by
where its first four bytes are zero, the first character of a document being ASCII.
-/
namespace JarRefinery.Text

inductive Charset where
  | utf8
  | utf8Signed
  | utf16 (bigEndian marked : Bool)
  | utf32 (bigEndian marked : Bool)
deriving DecidableEq, Repr

namespace Charset

def detect (bytes : Bytes) : Charset :=
  match bytes with
  | 0x00 :: 0x00 :: 0xfe :: 0xff :: _ => .utf32 true true
  | 0xff :: 0xfe :: 0x00 :: 0x00 :: _ => .utf32 false true
  | 0xfe :: 0xff :: _ => .utf16 true true
  | 0xff :: 0xfe :: _ => .utf16 false true
  | 0xef :: 0xbb :: 0xbf :: _ => .utf8Signed
  | a :: b :: c :: d :: _ =>
    if a == 0 then if b == 0 then .utf32 true false else .utf16 true false
    else if b == 0 then
      if c == 0 && d == 0 then .utf32 false false else .utf16 false false
    else .utf8
  | [a, b] => if a == 0 then .utf16 true false else if b == 0 then .utf16 false false else .utf8
  | _ => .utf8

def unitName (width : String) (bigEndian : Bool) : String :=
  "utf-" ++ width ++ if bigEndian then "-be" else "-le"

/-- The number written in `bytes`. -/
def integer (bigEndian : Bool) (bytes : Bytes) : Nat :=
  if bigEndian then Bytes.bigEndian bytes else Bytes.littleEndian bytes

/-- The 16-bit units of `bytes`, and the byte left over. -/
def units16 (bigEndian : Bool) : Bytes → List Nat × Bytes
  | a :: b :: rest =>
    let (units, left) := units16 bigEndian rest
    (integer bigEndian [a, b] :: units, left)
  | left => ([], left)

def isHighSurrogate (n : Nat) : Bool := 0xd800 ≤ n && n < 0xdc00
def isLowSurrogate (n : Nat) : Bool := 0xdc00 ≤ n && n < 0xe000

/-- The character with this number; a surrogate is shown as U+FFFD. -/
def scalar (n : Nat) : Char :=
  if n.isValidChar then Char.ofNat n else replacementChar

def joinUnits : List Nat → List Char
  | high :: low :: rest =>
    if isHighSurrogate high && isLowSurrogate low then
      Char.ofNat (0x10000 + (high - 0xd800) * 0x400 + (low - 0xdc00)) :: joinUnits rest
    else scalar high :: joinUnits (low :: rest)
  | [n] => [scalar n]
  | [] => []

def decode16 (bigEndian : Bool) (offset : Nat) (bytes : Bytes) : Except DecodeError (List Char) :=
  match units16 bigEndian bytes with
  | (units, []) => .ok (joinUnits units)
  | (units, first :: _) =>
    let start := offset + 2 * units.length
    .error ⟨unitName "16" bigEndian, start, start + 1, first, "truncated data"⟩

def decode32 (bigEndian : Bool) (offset : Nat) : Bytes → Except DecodeError (List Char)
  | [] => .ok []
  | a :: b :: c :: d :: rest =>
    let n := integer bigEndian [a, b, c, d]
    if n < 0x110000 then (decode32 bigEndian (offset + 4) rest).map (scalar n :: ·)
    else .error ⟨unitName "32" bigEndian, offset, offset + 4, a,
      "code point not in range(0x110000)"⟩
  | left@(first :: _) =>
    .error ⟨unitName "32" bigEndian, offset, offset + left.length, first, "truncated data"⟩

def decode (charset : Charset) (bytes : Bytes) : Except DecodeError (List Char) :=
  match charset with
  | .utf8 => Utf8.decodeLoosely bytes
  | .utf8Signed => Utf8.decodeLoosely (bytes.drop 3)
  | .utf16 big marked => let n := if marked then 2 else 0; decode16 big n (bytes.drop n)
  | .utf32 big marked => let n := if marked then 4 else 0; decode32 big n (bytes.drop n)

/-- The 16-bit units of a character: itself, or a pair of surrogates. -/
def unitsOf (c : Char) : List Nat :=
  if c.toNat < 0x10000 then [c.toNat]
  else [0xd800 + (c.toNat - 0x10000) / 0x400, 0xdc00 + (c.toNat - 0x10000) % 0x400]

/-- A number in `width` bytes. -/
def octets (bigEndian : Bool) (width n : Nat) : Bytes :=
  if bigEndian then Bytes.ofBigEndian width n else Bytes.ofLittleEndian width n

/-- The character that marks the order of the bytes. -/
def byteOrderMark : Char := '\ufeff'

/-- The characters to write, a mark in front of them if there is one. -/
def withMark (marked : Bool) (chars : List Char) : List Char :=
  if marked then byteOrderMark :: chars else chars

def encode (charset : Charset) (chars : List Char) : Bytes :=
  match charset with
  | .utf8 => Utf8.encode (String.ofList chars)
  | .utf8Signed => Utf8.encode (String.ofList (withMark true chars))
  | .utf16 big marked => ((withMark marked chars).flatMap unitsOf).flatMap (octets big 2)
  | .utf32 big marked => (withMark marked chars).flatMap fun c => octets big 4 c.toNat

end Charset

/-- The characters of a document in whichever charset its first bytes show. -/
def decodeDocument (bytes : Bytes) : Except DecodeError (List Char) :=
  (Charset.detect bytes).decode bytes

end JarRefinery.Text
