import JarRefinery.Bytes

/-!
Hashes that take their input in blocks of 64 bytes and close it with a one bit, zeros, and its
length in bits. The input may arrive in any pieces: the digest depends on the bytes alone.
-/
namespace JarRefinery

structure BlockHash (Chain : Type) where
  initial : Chain
  compress : Chain → Bytes → Chain
  output : Chain → Bytes

namespace BlockHash

variable {Chain : Type}

/-- A hash part way through its input; `pending` holds the bytes of the unfinished block, latest
first. -/
structure Progress (Chain : Type) where
  chain : Chain
  pending : Bytes
  length : Nat

def start (hash : BlockHash Chain) : Progress Chain :=
  ⟨hash.initial, [], 0⟩

def absorb (hash : BlockHash Chain) (progress : Progress Chain) (b : UInt8) : Progress Chain :=
  let pending := b :: progress.pending
  let length := progress.length + 1
  if length % 64 = 0 then ⟨hash.compress progress.chain pending.reverse, [], length⟩
  else ⟨progress.chain, pending, length⟩

/-- Takes in one more piece of the input. -/
def update (hash : BlockHash Chain) (progress : Progress Chain) (piece : Bytes) : Progress Chain :=
  piece.foldl hash.absorb progress

/-- The bytes that close an input of `length` bytes. -/
def padding (length : Nat) : Bytes :=
  0x80 :: List.replicate ((119 - length % 64) % 64) 0 ++ Bytes.ofBigEndian 8 (8 * length)

def finish (hash : BlockHash Chain) (progress : Progress Chain) : Bytes :=
  hash.output (hash.update progress (padding progress.length)).chain

def digest (hash : BlockHash Chain) (bytes : Bytes) : Bytes :=
  hash.finish (hash.update hash.start bytes)

end BlockHash

/-- The big-endian words of a block, and the words that `next` adds to them. -/
def blockWords (block : Bytes) : Array UInt32 :=
  let rec go : Bytes → Array UInt32 → Array UInt32
    | a :: b :: c :: d :: rest, words =>
      go rest (words.push (UInt32.ofNat (Bytes.bigEndian [a, b, c, d])))
    | _, words => words
  go block #[]

def extendWords (next : Array UInt32 → UInt32) : (count : Nat) → Array UInt32 → Array UInt32
  | 0, words => words
  | count + 1, words => extendWords next count (words.push (next words))

/-- The word `back` places before the end. -/
def wordBack (words : Array UInt32) (back : Nat) : UInt32 :=
  words.getD (words.size - back) 0

def wordBytes (word : UInt32) : Bytes :=
  Bytes.ofBigEndian 4 word.toNat

def rotateLeft (word count : UInt32) : UInt32 :=
  (word <<< count) ||| (word >>> (32 - count))

def rotateRight (word count : UInt32) : UInt32 :=
  (word >>> count) ||| (word <<< (32 - count))

end JarRefinery
