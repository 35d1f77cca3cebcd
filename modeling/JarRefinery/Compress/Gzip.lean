import JarRefinery.Checksum.Crc32
import JarRefinery.Compress.Inflate
import JarRefinery.Text.Quoted

/-!
Gzip files: compressed members one after another, each with a header in front and the checksum and
length of its contents behind it. Zeros may stand between members and after the last one.
-/
namespace JarRefinery.Gzip

inductive Flaw where
  | notGzip (start : Bytes)
  | unknownMethod
  | cutShort
  | badChecksum (stored actual : Nat)
  | badLength
  | corruptStream
deriving DecidableEq, Repr

def Flaw.message : Flaw → String
  | notGzip start => "Not a gzipped file (" ++ Text.quoteBytes start ++ ")"
  | unknownMethod => "Unknown compression method"
  | cutShort => "Compressed file ended before the end-of-stream marker was reached"
  | badChecksum stored actual =>
    "CRC check failed 0x" ++ Text.hexNatural stored ++ " != 0x" ++ Text.hexNatural actual
  | badLength => "Incorrect length of data produced"
  | corruptStream => "<error>"

/-- What follows the first `count` bytes, which must be there. -/
def skip (count : Nat) (bytes : Bytes) : Except Flaw Bytes :=
  if bytes.length < count then .error .cutShort else .ok (bytes.drop count)

/-- What follows a text that ends in a zero byte. -/
def skipText (bytes : Bytes) : Bytes :=
  (bytes.dropWhile (· != 0)).drop 1

def hasBit (flags : UInt8) (bit : UInt8) : Bool :=
  flags &&& bit != 0

/-- What follows a member's header. -/
def readHeader (bytes : Bytes) : Except Flaw Bytes := do
  if bytes.take 2 != [0x1f, 0x8b] then throw (.notGzip (bytes.take 2))
  let _ ← skip 10 bytes
  if bytes.getD 2 0 != 8 then throw .unknownMethod
  let flags := bytes.getD 3 0
  let rest := bytes.drop 10
  let rest ← if hasBit flags 4 then do
      let after ← skip 2 rest
      skip (Bytes.number rest 0 2) after
    else pure rest
  let rest := if hasBit flags 8 then skipText rest else rest
  let rest := if hasBit flags 16 then skipText rest else rest
  if hasBit flags 2 then skip 2 rest else pure rest

/-- The contents of the member that `bytes` begins with, and what follows it. -/
def readMember (bytes : Bytes) : Except Flaw (Bytes × Bytes) := do
  match Compress.inflate (← readHeader bytes) with
  | .unfinished _ => throw .cutShort
  | .invalid _ => throw .corruptStream
  | .finished data rest =>
    let content := data.toList
    let after ← skip 8 rest
    let stored := Bytes.number rest 0 4
    let actual := Crc32.ofBytes content
    if stored ≠ actual then throw (.badChecksum stored actual)
    if Bytes.number rest 4 4 ≠ content.length % 0x100000000 then throw .badLength
    pure (content, after.dropWhile (· == 0))

/-- The contents of all members. A member takes at least one byte, so `fuel` need not exceed their
number. -/
def readMembers : (fuel : Nat) → Bytes → Except Flaw Bytes
  | 0, _ => .ok []
  | _ + 1, [] => .ok []
  | fuel + 1, bytes => do
    let (content, rest) ← readMember bytes
    return content ++ (← readMembers fuel rest)

def decompress (bytes : Bytes) : Except Flaw Bytes :=
  readMembers bytes.length bytes

end JarRefinery.Gzip
