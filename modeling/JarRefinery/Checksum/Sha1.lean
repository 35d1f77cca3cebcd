import JarRefinery.Checksum.BlockHash

/-!
The hash SHA-1.
-/
namespace JarRefinery.Sha1

structure Registers where
  a : UInt32
  b : UInt32
  c : UInt32
  d : UInt32
  e : UInt32

def initial : Registers :=
  ⟨0x67452301, 0xefcdab89, 0x98badcfe, 0x10325476, 0xc3d2e1f0⟩

def nextWord (words : Array UInt32) : UInt32 :=
  rotateLeft (wordBack words 3 ^^^ wordBack words 8 ^^^ wordBack words 14 ^^^ wordBack words 16) 1

/-- The mixing function and the constant of a round. -/
def mix (round : Nat) (b c d : UInt32) : UInt32 × UInt32 :=
  if round < 20 then ((b &&& c) ||| ((~~~ b) &&& d), 0x5a827999)
  else if round < 40 then (b ^^^ c ^^^ d, 0x6ed9eba1)
  else if round < 60 then ((b &&& c) ||| (b &&& d) ||| (c &&& d), 0x8f1bbcdc)
  else (b ^^^ c ^^^ d, 0xca62c1d6)

def step (r : Registers) (round : Nat) (word : UInt32) : Registers :=
  let (f, k) := mix round r.b r.c r.d
  ⟨rotateLeft r.a 5 + f + r.e + k + word, r.a, rotateLeft r.b 30, r.c, r.d⟩

def compress (chain : Registers) (block : Bytes) : Registers :=
  let words := extendWords nextWord 64 (blockWords block)
  let last := (List.range 80).foldl (fun r i => step r i (words.getD i 0)) chain
  ⟨chain.a + last.a, chain.b + last.b, chain.c + last.c, chain.d + last.d, chain.e + last.e⟩

def hash : BlockHash Registers where
  initial := initial
  compress := compress
  output r := [r.a, r.b, r.c, r.d, r.e].flatMap wordBytes

end JarRefinery.Sha1
