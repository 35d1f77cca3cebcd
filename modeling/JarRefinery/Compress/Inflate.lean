import JarRefinery.Compress.Huffman

/-!
Reading deflated data: blocks that are stored as they are or written in prefix codes, the codes
fixed or given by the block itself.
-/
namespace JarRefinery.Compress

/-- What a stream turned out to hold: `data` is what could be read of it. -/
inductive Inflated where
  | finished (data : Array UInt8) (rest : Bytes)
  | unfinished (data : Array UInt8)
  | invalid (data : Array UInt8)

namespace Inflate

abbrev Output := Array UInt8

/-- What is read so far, and how the stream goes on. -/
abbrev Progress (α : Type) := Output × Except Stop α

/-- For every length symbol the shortest length and the number of extra bits. -/
def lengthTable : Array (Nat × Nat) := #[
  (3, 0), (4, 0), (5, 0), (6, 0), (7, 0), (8, 0), (9, 0), (10, 0), (11, 1), (13, 1), (15, 1),
  (17, 1), (19, 2), (23, 2), (27, 2), (31, 2), (35, 3), (43, 3), (51, 3), (59, 3), (67, 4),
  (83, 4), (99, 4), (115, 4), (131, 5), (163, 5), (195, 5), (227, 5), (258, 0)]

/-- For every distance symbol the shortest distance and the number of extra bits. -/
def distanceTable : Array (Nat × Nat) := #[
  (1, 0), (2, 0), (3, 0), (4, 0), (5, 1), (7, 1), (9, 2), (13, 2), (17, 3), (25, 3), (33, 4),
  (49, 4), (65, 5), (97, 5), (129, 6), (193, 6), (257, 7), (385, 7), (513, 8), (769, 8),
  (1025, 9), (1537, 9), (2049, 10), (3073, 10), (4097, 11), (6145, 11), (8193, 12), (12289, 12),
  (16385, 13), (24577, 13)]

/-- The value of a symbol: its least value plus the number in its extra bits. -/
def readValue (table : Array (Nat × Nat)) (symbol : Nat) : Reading Nat := do
  match table[symbol]? with
  | none => throw .invalid
  | some (least, extra) => pure (least + (← readNumber extra))

/-- Repeats the bytes that stand `distance` back, `length` of them. -/
def copy (distance : Nat) : (length : Nat) → Output → Output
  | 0, output => output
  | length + 1, output =>
    copy distance length (output.push (output.getD (output.size - distance) 0))

/-- The length and distance of a repetition whose length symbol is read. -/
def readRepetition (distances : Huffman) (symbol : Nat) : Reading (Nat × Nat) := do
  let length ← readValue lengthTable (symbol - 257)
  let distance ← readValue distanceTable (← distances.readSymbol)
  pure (length, distance)

/-- The literals and repetitions of a block, to its end symbol. Every symbol takes a bit or more, so
`fuel` need not exceed the bits left. -/
def readSymbols (literals distances : Huffman) :
    (fuel : Nat) → Bits → Output → Progress Bits
  | 0, _, output => (output, .error .ended)
  | fuel + 1, bits, output =>
    match literals.readSymbol bits with
    | .error stop => (output, .error stop)
    | .ok (symbol, bits) =>
      if symbol < 256 then
        readSymbols literals distances fuel bits (output.push (UInt8.ofNat symbol))
      else if symbol = 256 then (output, .ok bits)
      else match readRepetition distances symbol bits with
        | .error stop => (output, .error stop)
        | .ok ((length, distance), bits) =>
          if output.size < distance then (output, .error .invalid)
          else readSymbols literals distances fuel bits (copy distance length output)

def fixedLiterals : Huffman :=
  .ofLengths (List.replicate 144 8 ++ List.replicate 112 9 ++ List.replicate 24 7 ++
    List.replicate 8 8)

def fixedDistances : Huffman :=
  .ofLengths (List.replicate 32 5)

/-- The order in which a block gives the lengths of the code for code lengths. -/
def lengthOrder : List Nat :=
  [16, 17, 18, 0, 8, 7, 9, 6, 10, 5, 11, 4, 12, 3, 13, 2, 14, 1, 15]

def readLengths : (count : Nat) → Reading (List Nat)
  | 0 => pure []
  | count + 1 => do
    let length ← readNumber 3
    pure (length :: (← readLengths count))

/-- `total` code lengths, in runs; `read` holds those read so far, latest first. -/
def readRuns (code : Huffman) (total : Nat) : (fuel : Nat) → (read : List Nat) → Reading (List Nat)
  | 0, _ => throw .invalid
  | fuel + 1, read => do
    if total ≤ read.length then return read.reverse
    let symbol ← code.readSymbol
    if symbol < 16 then readRuns code total fuel (symbol :: read)
    else
      let (value, least, extra) :=
        if symbol = 16 then (read.head?, 3, 2)
        else if symbol = 17 then (some 0, 3, 3)
        else (some 0, 11, 7)
      let count := least + (← readNumber extra)
      match value with
      | none => throw .invalid
      | some value =>
        if total < read.length + count then throw .invalid
        readRuns code total fuel (List.replicate count value ++ read)

/-- The two codes that a block gives. A code for code lengths without symbols stands for lengths of
zero, one bit each, and so for no usable codes. -/
def readCodes : Reading (Huffman × Huffman) := do
  let literalCount := (← readNumber 5) + 257
  let distanceCount := (← readNumber 5) + 1
  let lengthCount := (← readNumber 4) + 4
  if 286 < literalCount ∨ 30 < distanceCount then throw .invalid
  let named := lengthOrder.zip (← readLengths lengthCount)
  let lengthCode :=
    Huffman.ofLengths ((List.range 19).map fun symbol => (named.lookup symbol).getD 0)
  let total := literalCount + distanceCount
  if lengthCode.levels.isEmpty then
    let _ ← readNumber total
    throw .invalid
  if !lengthCode.isComplete then throw .invalid
  let lengths ← readRuns lengthCode total (total + 1) []
  if lengths.getD 256 0 = 0 then throw .invalid
  let literals := Huffman.ofLengths (lengths.take literalCount)
  let distances := Huffman.ofLengths (lengths.drop literalCount)
  if !literals.isAdmissible || !distances.isAdmissible then throw .invalid
  pure (literals, distances)

/-- A stored block: its length, the complement of that, and its bytes. -/
def readStored (bits : Bits) (output : Output) : Progress Bits :=
  match bits.alignedRest with
  | a :: b :: c :: d :: rest =>
    let length := Bytes.littleEndian [a, b]
    if length + Bytes.littleEndian [c, d] = 0xffff then
      let data := rest.take length
      let output := data.foldl Array.push output
      if data.length < length then (output, .error .ended)
      else (output, .ok (.ofBytes (rest.drop length)))
    else (output, .error .invalid)
  | _ => (output, .error .ended)

def readBlock (kind : Nat) (bits : Bits) (output : Output) : Progress Bits :=
  if kind = 0 then readStored bits output
  else if kind = 1 then readSymbols fixedLiterals fixedDistances (bits.length + 1) bits output
  else if kind = 2 then
    match readCodes bits with
    | .error stop => (output, .error stop)
    | .ok ((literals, distances), bits) =>
      readSymbols literals distances (bits.length + 1) bits output
  else (output, .error .invalid)

def readHeader : Reading (Bool × Nat) := do
  let last ← readNumber 1
  pure (last = 1, ← readNumber 2)

/-- The blocks up to the last one. Every block takes three bits or more. -/
def readBlocks : (fuel : Nat) → Bits → Output → Progress Bytes
  | 0, _, output => (output, .error .ended)
  | fuel + 1, bits, output =>
    match readHeader bits with
    | .error stop => (output, .error stop)
    | .ok ((last, kind), bits) =>
      match readBlock kind bits output with
      | (output, .error stop) => (output, .error stop)
      | (output, .ok bits) =>
        if last then (output, .ok bits.alignedRest) else readBlocks fuel bits output

end Inflate

def inflate (bytes : Bytes) : Inflated :=
  let bits := Bits.ofBytes bytes
  match Inflate.readBlocks (bits.length + 1) bits #[] with
  | (data, .ok rest) => .finished data rest
  | (data, .error .ended) => .unfinished data
  | (data, .error .invalid) => .invalid data

end JarRefinery.Compress
