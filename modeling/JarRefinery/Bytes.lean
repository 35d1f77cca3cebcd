/-!
Byte strings: the contents of files, archives and message bodies, with the fixed-width integers
stored in them.
-/
namespace JarRefinery

abbrev Bytes := List UInt8

namespace Bytes

/-- The integer whose least significant byte comes first. -/
def littleEndian (bytes : Bytes) : Nat :=
  bytes.foldr (fun b n => b.toNat + 256 * n) 0

def ofLittleEndian : (width : Nat) → (n : Nat) → Bytes
  | 0, _ => []
  | width + 1, n => UInt8.ofNat n :: ofLittleEndian width (n / 256)

/-- The integer whose most significant byte comes first. -/
def bigEndian (bytes : Bytes) : Nat :=
  bytes.foldl (fun n b => 256 * n + b.toNat) 0

def ofBigEndian (width n : Nat) : Bytes :=
  (ofLittleEndian width n).reverse

/-- The field of `width` bytes at `offset`, shorter where the bytes end. -/
def field (bytes : Bytes) (offset width : Nat) : Bytes :=
  (bytes.drop offset).take width

/-- The number stored at `offset` in `width` bytes, least significant first. -/
def number (bytes : Bytes) (offset width : Nat) : Nat :=
  (bytes.field offset width).littleEndian

def hexDigit (n : Nat) : Char :=
  if n < 10 then Char.ofNat (48 + n) else Char.ofNat (87 + n)

/-- Two digits of base sixteen for every byte. -/
def hex (bytes : Bytes) : String :=
  String.ofList (bytes.flatMap fun b => [hexDigit (b.toNat / 16), hexDigit (b.toNat % 16)])

end Bytes

end JarRefinery
