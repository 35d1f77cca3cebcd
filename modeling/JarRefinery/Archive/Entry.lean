import JarRefinery.Archive.Name
import JarRefinery.Text.Quoted
import JarRefinery.Text.Split

/-!
The entries of an archive as its central directory lists them, and what can be wrong with an
archive.
-/
namespace JarRefinery.Archive

/-- What is wrong with an archive. -/
inductive Flaw where
  | notArchive
  | badDirectoryOffset
  | truncatedDirectory
  | badDirectorySignature
  | corruptExtra (tag size : Nat)
  | missingWideField (field : String)
  | truncatedHeader
  | badHeaderSignature
  | nameMismatch (listed : String) (header : Bytes)
  | overlap (name : String)
  | badChecksum (name : String)
  | unsupportedVersion (version : Nat)
  | patchedData
  | strongEncryption
  | unsupportedMethod
  | encrypted (description : String)
  | undecodableName (error : Text.DecodeError)
  | negativeOffset
  | emptyName
  | longField
  | corruptStream
  | cutShort
deriving DecidableEq, Repr

def Flaw.message : Flaw → String
  | notArchive => "File is not a zip file"
  | badDirectoryOffset => "Bad offset for central directory"
  | truncatedDirectory => "Truncated central directory"
  | badDirectorySignature => "Bad magic number for central directory"
  | corruptExtra tag size =>
    "Corrupt extra field " ++ String.ofList (Text.hexOf 4 tag) ++ " (size=" ++ toString size ++ ")"
  | missingWideField field => "Corrupt zip64 extra field. " ++ field ++ " not found."
  | truncatedHeader => "Truncated file header"
  | badHeaderSignature => "Bad magic number for file header"
  | nameMismatch listed header =>
    "File name in directory " ++ Text.quote listed ++ " and header " ++ Text.quoteBytes header ++
      " differ."
  | overlap name => "Overlapped entries: " ++ Text.quote name ++ " (possible zip bomb)"
  | badChecksum name => "Bad CRC-32 for file " ++ Text.quote name
  | unsupportedVersion version =>
    "zip file version " ++ toString (version / 10) ++ "." ++ toString (version % 10)
  | patchedData => "compressed patched data (flag bit 5)"
  | strongEncryption => "strong encryption (flag bit 6)"
  | unsupportedMethod => "That compression method is not supported"
  | encrypted description =>
    "File " ++ description ++ " is encrypted, password required for extraction"
  | undecodableName error => error.message
  | negativeOffset => "[Errno 22] Invalid argument"
  | emptyName => "string index out of range"
  | longField => "ushort format requires 0 <= number <= 65535"
  | corruptStream => "<error>"
  | cutShort => ""

/-- An entry of the central directory. `listedName` is its name as listed, `name` that name up to a
zero character; `offset` is where its local header begins and `limit` where the next part of the
archive does. -/
structure Entry where
  listedName : String
  made : Nat
  system : Nat
  need : Nat
  reserved : Nat
  flags : Nat
  method : Nat
  time : Nat
  date : Nat
  crc : Nat
  packedSize : Nat
  size : Nat
  internalAttributes : Nat
  externalAttributes : Nat
  extra : Bytes
  comment : Bytes
  offset : Int
  limit : Int
deriving DecidableEq, Repr

namespace Entry

def name (entry : Entry) : String :=
  cutName entry.listedName

def isDirectory (entry : Entry) : Bool :=
  Text.endsWith "/" entry.name

/-- Year, month, day, hour, minute and second, the last one even. -/
def moment (entry : Entry) : List Nat :=
  [1980 + entry.date / 512, entry.date / 32 % 16, entry.date % 32, entry.time / 2048,
    entry.time / 32 % 64, entry.time % 32 * 2]

end Entry

def storedMethod : Nat := 0
def deflatedMethod : Nat := 8

def isSupported (method : Nat) : Bool :=
  method == storedMethod || method == deflatedMethod

def methodName (method : Nat) : String :=
  match method with
  | 0 => "store"
  | 1 => "shrink"
  | 2 | 3 | 4 | 5 => "reduce"
  | 6 | 10 => "implode"
  | 7 => "tokenize"
  | 8 => "deflate"
  | 9 => "deflate64"
  | 12 => "bzip2"
  | 14 => "lzma"
  | 18 => "terse"
  | 19 => "lz77"
  | 97 => "wavpack"
  | 98 => "ppmd"
  | n => toString n

/-- Three letters for three permission bits; `special` takes the place of the last one. -/
def permissionLetters (bits : Nat) (special : Bool) (both alone : Char) : List Char :=
  let run := bits % 2 = 1
  [if 4 ≤ bits % 8 then 'r' else '-', if 2 ≤ bits % 4 then 'w' else '-',
    if special then (if run then both else alone) else if run then 'x' else '-']

/-- The kind of a file and its permissions, in ten letters. -/
def modeLetters (mode : Nat) : String :=
  let kind := match mode / 0o10000 with
    | 1 => 'p'
    | 2 => 'c'
    | 4 => 'd'
    | 6 => 'b'
    | 8 => '-'
    | 10 => 'l'
    | 12 => 's'
    | _ => '?'
  String.ofList (kind :: permissionLetters (mode / 64) (mode / 0o4000 % 2 = 1) 's' 'S' ++
    permissionLetters (mode / 8) (mode / 0o2000 % 2 = 1) 's' 'S' ++
    permissionLetters mode (mode / 0o1000 % 2 = 1) 't' 'T')

/-- An entry as messages show it: what differs from a plain stored file is named. -/
def Entry.description (entry : Entry) : String :=
  let mode := entry.externalAttributes / 0x10000
  let attributes := entry.externalAttributes % 0x10000
  let isPlain := entry.method == storedMethod
  let directory := entry.isDirectory
  let part (shown : Bool) (text : String) := if shown then text else ""
  "<ZipInfo filename=" ++ Text.quote entry.name ++
    part (!isPlain) (" compress_type=" ++ methodName entry.method) ++
    part (mode != 0) (" filemode='" ++ modeLetters mode ++ "'") ++
    part (attributes != 0) (" external_attr=0x" ++ Text.hexNatural attributes) ++
    part (!directory || entry.size != 0) (" file_size=" ++ toString entry.size) ++
    part ((!directory || entry.packedSize != 0) && (!isPlain || entry.size != entry.packedSize))
      (" compress_size=" ++ toString entry.packedSize) ++ ">"

end JarRefinery.Archive
