import JarRefinery.Compress.Bits

/-!
Canonical prefix codes, given by the length of the code word of every symbol. Code words of one
length are consecutive, in the order of their symbols, and follow those of the shorter lengths.
-/
namespace JarRefinery.Compress

/-- Why a compressed stream could not be read on. -/
inductive Stop where
  | ended
  | invalid
deriving DecidableEq, Repr

/-- Reading from a stream of bits. -/
abbrev Reading := StateT Bits (Except Stop)

/-- The number in the next `width` bits. -/
def readNumber (width : Nat) : Reading Nat := fun bits =>
  match bits.take? width with
  | some result => .ok result
  | none => .error .ended

/-- The symbols with a code word of each length, shortest first; a symbol of length zero has no
code word. -/
structure Huffman where
  levels : List (Array Nat)

namespace Huffman

def maximumLength : Nat := 15

/-- The symbols whose code word has this length, in rising order. -/
def level (lengths : List Nat) (length : Nat) : Array Nat :=
  (lengths.zipIdx.foldl (fun found entry =>
    if entry.1 = length then found.push entry.2 else found) #[])

def ofLengths (lengths : List Nat) : Huffman :=
  let longest := lengths.foldl max 0
  ⟨(List.range longest).map fun i => level lengths (i + 1)⟩

/-- How many code words of the greatest length are left free, or nothing if the lengths ask for more
than there are. -/
def unused (levels : List (Array Nat)) : Option Nat :=
  levels.foldl (fun left symbols => left.bind fun left =>
    if 2 * left < symbols.size then none else some (2 * left - symbols.size)) (some 1)

/-- Whether every code word is taken. -/
def isComplete (code : Huffman) : Bool :=
  unused code.levels == some 0

/-- Whether the code may be used although words are free: it has no symbol, or only words of one
bit. -/
def isAdmissible (code : Huffman) : Bool :=
  match unused code.levels with
  | none => false
  | some free => free == 0 || code.levels.length ≤ 1

/-- Reads one symbol: `code` is the word read so far, less the first word of its length. -/
def readFrom : (levels : List (Array Nat)) → (code : Nat) → Reading Nat
  | [], _ => throw .invalid
  | symbols :: rest, code => do
    let code := 2 * code + (← readNumber 1)
    match symbols[code]? with
    | some symbol => pure symbol
    | none => readFrom rest (code - symbols.size)

/-- Reads one symbol; a code without symbols is found out at its first bit. -/
def readSymbol (code : Huffman) : Reading Nat := do
  match code.levels with
  | [] =>
    let _ ← readNumber 1
    throw .invalid
  | levels => readFrom levels 0

end Huffman

end JarRefinery.Compress
