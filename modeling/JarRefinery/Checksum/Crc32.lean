import JarRefinery.Bytes

/-!
The cyclic redundancy check of 32 bits, least significant bit first, with the polynomial
`0xedb88320`.
-/
namespace JarRefinery.Crc32

def shift (crc : UInt32) : UInt32 :=
  if crc &&& 1 = 1 then (crc >>> 1) ^^^ 0xedb88320 else crc >>> 1

/-- The register after one more byte. -/
def step (crc : UInt32) (b : UInt8) : UInt32 :=
  shift (shift (shift (shift (shift (shift (shift (shift (crc ^^^ b.toUInt32))))))))

def ofBytes (bytes : Bytes) : Nat :=
  (bytes.foldl step 0xffffffff ^^^ 0xffffffff).toNat

end JarRefinery.Crc32
