import JarRefinery.Text.Charset
import JarRefinery.Text.CodePage
import JarRefinery.Text.Quoted
import JarRefinery.Text.Split

/-!
The encodings that text files can be written in. All but those of Unicode have one byte for every
character, and lack most characters.
-/
namespace JarRefinery.Text

inductive Encoding where
  | unicode (charset : Charset)
  | ascii
  | latin1
  | codePage (page : CodePage)
deriving DecidableEq, Repr

namespace Encoding

/-- A name as it is looked up: in lower case, with one hyphen for whatever stands between letters,
digits and points. -/
def plainName (name : String) : String :=
  let chars := name.toList.map fun c => if c.isAlphanum || c == '.' then c.toLower else ' '
  "-".intercalate ((split ' ' (String.ofList chars)).filter (· ≠ ""))

/-- The encodings and their names. Without an order of bytes in its name, an encoding of wide units
is marked and has the least significant byte first. -/
def names : List (Encoding × List String) := [
  (.unicode .utf8, ["utf-8", "utf8", "u8", "utf", "utf8-ucs2", "utf8-ucs4", "cp65001"]),
  (.unicode .utf8Signed, ["utf-8-sig"]),
  (.unicode (.utf16 false true), ["utf-16", "utf16", "u16"]),
  (.unicode (.utf16 false false), ["utf-16-le", "utf-16le", "unicodelittleunmarked"]),
  (.unicode (.utf16 true false), ["utf-16-be", "utf-16be", "unicodebigunmarked"]),
  (.unicode (.utf32 false true), ["utf-32", "utf32", "u32"]),
  (.unicode (.utf32 false false), ["utf-32-le", "utf-32le"]),
  (.unicode (.utf32 true false), ["utf-32-be", "utf-32be"]),
  (.ascii, ["ascii", "us-ascii", "us", "646", "iso646-us", "ansi-x3.4-1968", "ansi-x3-4-1968",
    "ansi-x3.4-1986", "cp367", "csascii", "ibm367", "iso-646.irv-1991", "iso-ir-6"]),
  (.latin1, ["latin-1", "latin1", "latin", "l1", "iso-8859-1", "iso8859-1", "iso8859", "8859",
    "cp819", "csisolatin1", "ibm819", "iso-8859-1-1987", "iso-ir-100"]),
  (.codePage CodePage.page437, ["cp437", "437", "ibm437", "cspc8codepage437"]),
  (.codePage CodePage.page1252, ["cp1252", "1252", "windows-1252"]),
  (.codePage CodePage.latin9, ["iso8859-15", "iso-8859-15", "latin9", "l9"])]

def ofName? (name : String) : Option Encoding :=
  (names.find? fun entry => entry.2.contains (plainName name)).map (·.1)

end Encoding

/-- The characters `start ≤ i < stop` of a text are none of the encoding's. -/
structure EncodeError where
  encoding : String
  start : Nat
  stop : Nat
  first : Char
  reason : String
deriving DecidableEq, Repr

def EncodeError.message (e : EncodeError) : String :=
  let place :=
    if e.stop = e.start + 1 then
      "character '" ++ String.ofList (escapeNumber e.first.toNat) ++ "' in position " ++
        toString e.start
    else "characters in position " ++ toString e.start ++ "-" ++ toString (e.stop - 1)
  "'" ++ e.encoding ++ "' codec can't encode " ++ place ++ ": " ++ e.reason

namespace Encoding

/-- One byte for every character; an error tells of the first ones that have none. -/
def encodeNarrow (name reason : String) (byte? : Char → Option UInt8) (chars : List Char) :
    Except EncodeError Bytes :=
  let fitting := chars.takeWhile fun c => (byte? c).isSome
  match chars.drop fitting.length with
  | [] => .ok (chars.filterMap byte?)
  | first :: rest =>
    let run := 1 + (rest.takeWhile fun c => (byte? c).isNone).length
    .error ⟨name, fitting.length, fitting.length + run, first, reason⟩

/-- Characters with a number below `limit`, which is their byte. -/
def encodeBelow (name : String) (limit : Nat) : List Char → Except EncodeError Bytes :=
  encodeNarrow name ("ordinal not in range(" ++ toString limit ++ ")") fun c =>
    if c.toNat < limit then some (UInt8.ofNat c.toNat) else none

def encode (encoding : Encoding) (text : String) : Except EncodeError Bytes :=
  match encoding with
  | unicode charset => .ok (charset.encode text.toList)
  | ascii => encodeBelow "ascii" 128 text.toList
  | latin1 => encodeBelow "latin-1" 256 text.toList
  | codePage page => encodeNarrow "charmap" "character maps to <undefined>" page.byte? text.toList

end Encoding

end JarRefinery.Text
