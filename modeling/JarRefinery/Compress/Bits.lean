import JarRefinery.Bytes

/-!
A stream of bits over a list of bytes, the least significant bit of every byte first.
-/
namespace JarRefinery.Compress

/-- The bits not yet read: `count` of them in `held`, then those of `rest`. -/
structure Bits where
  held : Nat
  count : Nat
  rest : Bytes

namespace Bits

def ofBytes (bytes : Bytes) : Bits :=
  ⟨0, 0, bytes⟩

/-- Number of bits left. -/
def length (bits : Bits) : Nat :=
  bits.count + 8 * bits.rest.length

/-- The next bit. -/
def next? (bits : Bits) : Option (Nat × Bits) :=
  match bits.count with
  | count + 1 => some (bits.held % 2, ⟨bits.held / 2, count, bits.rest⟩)
  | 0 =>
    match bits.rest with
    | [] => none
    | b :: rest => some (b.toNat % 2, ⟨b.toNat / 2, 7, rest⟩)

/-- The number in the next `width` bits, least significant first. -/
def take? : (width : Nat) → Bits → Option (Nat × Bits)
  | 0, bits => some (0, bits)
  | width + 1, bits =>
    match bits.next? with
    | none => none
    | some (bit, bits) =>
      match take? width bits with
      | none => none
      | some (n, bits) => some (bit + 2 * n, bits)

/-- The bytes after the one that is partly read. -/
def alignedRest (bits : Bits) : Bytes :=
  bits.rest

end Bits

end JarRefinery.Compress
