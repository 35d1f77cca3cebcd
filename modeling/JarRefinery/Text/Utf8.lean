import JarRefinery.Bytes

/-!
UTF-8. A byte string is read as a list of items, each a character or a malformed part; a malformed
part is the longest stretch of bytes that begins like a character and cannot be completed. Reading
then either refuses the first malformed part or replaces every one.
-/
namespace JarRefinery.Text

/-- A part of a byte string that is no text: the bytes `start ≤ i < stop`, of which `first` is the
first. -/
structure DecodeError where
  charset : String
  start : Nat
  stop : Nat
  first : UInt8
  reason : String
deriving DecidableEq, Repr

def DecodeError.message (e : DecodeError) : String :=
  let place :=
    if e.stop = e.start + 1 then
      "byte 0x" ++ Bytes.hex [e.first] ++ " in position " ++ toString e.start
    else "bytes in position " ++ toString e.start ++ "-" ++ toString (e.stop - 1)
  "'" ++ e.charset ++ "' codec can't decode " ++ place ++ ": " ++ e.reason

def replacementChar : Char := Char.ofNat 0xfffd

namespace Utf8

def encode (text : String) : Bytes :=
  text.toList.flatMap String.utf8EncodeChar

inductive Item where
  | char (c : Char)
  | malformed (error : DecodeError)
deriving Repr

/-- A character of which some bytes are read: `need` more must follow, the next of them between
`low` and `high`. -/
structure Partial where
  first : UInt8
  start : Nat
  need : Nat
  low : UInt8
  high : UInt8
  code : Nat

/-- What a first byte announces. -/
def announce (position : Nat) (b : UInt8) : Option Partial :=
  let opening need low high bits : Option Partial :=
    some ⟨b, position, need, low, high, b.toNat % bits⟩
  if 0xc2 ≤ b && b ≤ 0xdf then opening 1 0x80 0xbf 32
  else if b == 0xe0 then opening 2 0xa0 0xbf 16
  else if b == 0xed then opening 2 0x80 0x9f 16
  else if 0xe1 ≤ b && b ≤ 0xef then opening 2 0x80 0xbf 16
  else if b == 0xf0 then opening 3 0x90 0xbf 8
  else if 0xf1 ≤ b && b ≤ 0xf3 then opening 3 0x80 0xbf 8
  else if b == 0xf4 then opening 3 0x80 0x8f 8
  else none

/-- The reader between two bytes; `items` holds what is read so far, latest first. -/
structure Reader where
  position : Nat := 0
  pending : Option Partial := none
  items : List Item := []

def malformedAt (start stop : Nat) (first : UInt8) (reason : String) : Item :=
  .malformed ⟨"utf-8", start, stop, first, reason⟩

/-- Reads the byte `b` as the first of a character. -/
def Reader.open (r : Reader) (b : UInt8) : Reader :=
  if b < 0x80 then ⟨r.position + 1, none, .char (Char.ofNat b.toNat) :: r.items⟩
  else match announce r.position b with
    | some p => ⟨r.position + 1, some p, r.items⟩
    | none =>
      ⟨r.position + 1, none,
        malformedAt r.position (r.position + 1) b "invalid start byte" :: r.items⟩

def Reader.read (r : Reader) (b : UInt8) : Reader :=
  match r.pending with
  | none => r.open b
  | some p =>
    if p.low ≤ b && b ≤ p.high then
      let code := p.code * 64 + b.toNat % 64
      if p.need ≤ 1 then ⟨r.position + 1, none, .char (Char.ofNat code) :: r.items⟩
      else ⟨r.position + 1, some ⟨p.first, p.start, p.need - 1, 0x80, 0xbf, code⟩, r.items⟩
    else
      Reader.open ⟨r.position, none,
        malformedAt p.start r.position p.first "invalid continuation byte" :: r.items⟩ b

/-- What is read once the bytes have ended, first item first. -/
def Reader.finish (r : Reader) : List Item :=
  match r.pending with
  | none => r.items.reverse
  | some p =>
    (malformedAt p.start r.position p.first "unexpected end of data" :: r.items).reverse

def items (bytes : Bytes) : List Item :=
  (bytes.foldl Reader.read {}).finish

/-- The characters of a list of items, or its first malformed part. -/
def strict : List Item → Except DecodeError (List Char) :=
  fun items => items.foldr (fun item rest => match item with
    | .char c => rest.map (c :: ·)
    | .malformed e => .error e) (.ok [])

def decode (bytes : Bytes) : Except DecodeError (List Char) :=
  strict (items bytes)

/-- The text of the bytes with U+FFFD in place of every malformed part. -/
def decodeReplacing (bytes : Bytes) : String :=
  String.ofList ((items bytes).map fun
    | .char c => c
    | .malformed _ => replacementChar)

/-- Reads the three bytes of an encoded surrogate as one character. Surrogates are no characters,
so U+FFFD stands for each. -/
def joinSurrogates : List Item → List Item
  | .malformed a :: .malformed b :: .malformed c :: rest =>
    if a.first == 0xed && 0xa0 ≤ b.first && b.first ≤ 0xbf && 0x80 ≤ c.first && c.first ≤ 0xbf then
      .char replacementChar :: joinSurrogates rest
    else .malformed a :: joinSurrogates (.malformed b :: .malformed c :: rest)
  | item :: rest => item :: joinSurrogates rest
  | [] => []

/-- The text of the bytes, where surrogates count as characters. -/
def decodeLoosely (bytes : Bytes) : Except DecodeError (List Char) :=
  strict (joinSurrogates (items bytes))

end Utf8

end JarRefinery.Text
