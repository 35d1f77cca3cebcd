import JarRefinery.Archive.Entry

/-!
Reading the central directory of an archive. The record at the end of the archive says where the
directory is; bytes in front of the archive shift every offset in it.
-/
namespace JarRefinery.Archive

def endSize : Nat := 22
def wideEndSize : Nat := 56
def wideLocatorSize : Nat := 20
def directorySize : Nat := 46

def endSignature : Bytes := [0x50, 0x4b, 5, 6]
def wideEndSignature : Bytes := [0x50, 0x4b, 6, 6]
def wideLocatorSignature : Bytes := [0x50, 0x4b, 6, 7]
def directorySignature : Bytes := [0x50, 0x4b, 1, 2]

/-- Where the central directory lies, as its record says; `start` is its true beginning. -/
structure EndRecord where
  start : Int
  size : Nat
  shift : Int

/-- The last place at which `signature` stands, counted from `position`. -/
def lastPlace? (signature : Bytes) (position : Nat) (found : Option Nat) : Bytes → Option Nat
  | [] => found
  | b :: rest =>
    lastPlace? signature (position + 1)
      (if signature.isPrefixOf (b :: rest) then some position else found) rest

/-- Where the end record is: the last 22 bytes if they are one without a comment, else the last
place of its signature, as far back as a comment can reach. -/
def endPlace? (archive : Bytes) (length : Nat) : Option Nat :=
  if length < endSize then none
  else
    let tail := archive.drop (length - endSize)
    if endSignature.isPrefixOf tail && tail.drop (endSize - 2) == [0, 0] then
      some (length - endSize)
    else
      let first := length - 65536 - endSize
      match lastPlace? endSignature first none (archive.drop first) with
      | none => none
      | some place => if length < place + endSize then none else some place

/-- The record of wide offsets in front of the end record, if there is one: size and offset of the
directory. An archive too short for a record that is announced is none. -/
def wideEnd? (archive : Bytes) (place : Nat) : Except Flaw (Option (Nat × Nat)) :=
  if place < wideLocatorSize then .ok none
  else
    let locator := Bytes.field archive (place - wideLocatorSize) wideLocatorSize
    if !wideLocatorSignature.isPrefixOf locator then .ok none
    else if place < wideLocatorSize + wideEndSize then .error .notArchive
    else
      let record := Bytes.field archive (place - wideLocatorSize - wideEndSize) wideEndSize
      if wideEndSignature.isPrefixOf record then
        .ok (some (Bytes.number record 40 8, Bytes.number record 48 8))
      else .ok none

def readEnd (archive : Bytes) : Except Flaw EndRecord := do
  let length := archive.length
  match endPlace? archive length with
  | none => throw .notArchive
  | some place =>
    let record := Bytes.field archive place endSize
    let (size, offset, extent) ← match ← wideEnd? archive place with
      | none => pure (Bytes.number record 12 4, Bytes.number record 16 4, 0)
      | some (size, offset) => pure (size, offset, wideEndSize + wideLocatorSize)
    let shift : Int := place - size - offset - extent
    let start := offset + shift
    if start < 0 then throw .badDirectoryOffset
    pure ⟨start, size, shift⟩

def wideLimit : Nat := 0xffffffff

/-- Takes the eight bytes that hold a field too large for four. -/
def widen (field : String) (data : Bytes) : Except Flaw (Nat × Bytes) :=
  if data.length < 8 then .error (.missingWideField field)
  else .ok (Bytes.number data 0 8, data.drop 8)

/-- Replaces the sizes and the offset that the wide record of an extra field holds. -/
def Entry.widened (entry : Entry) (data : Bytes) : Except Flaw Entry := do
  let (size, data) ←
    if entry.size = wideLimit ∨ entry.size = 0xffffffffffffffff then widen "File size" data
    else pure (entry.size, data)
  let (packedSize, data) ←
    if entry.packedSize = wideLimit then widen "Compress size" data
    else pure (entry.packedSize, data)
  let offset ←
    if entry.offset = wideLimit then (widen "Header offset" data).map fun wide => (wide.1 : Int)
    else pure entry.offset
  pure { entry with size, packedSize, offset }

/-- Reads the records of an extra field. Each has a tag and a length, and less than four bytes may
be left over. -/
def Entry.readExtra (entry : Entry) : (fuel : Nat) → Bytes → Except Flaw Entry
  | 0, _ => .ok entry
  | fuel + 1, extra =>
    if extra.length < 4 then .ok entry
    else do
      let tag := Bytes.number extra 0 2
      let size := Bytes.number extra 2 2
      if extra.length < size + 4 then throw (.corruptExtra tag size)
      let entry ← if tag = 1 then entry.widened (Bytes.field extra 4 size) else pure entry
      Entry.readExtra entry fuel (extra.drop (size + 4))

/-- The highest version of the format that is understood. -/
def newestVersion : Nat := 63

/-- Reads the entry that `bytes` begins with, and how many bytes it announces. -/
def readEntry (shift : Int) (bytes : Bytes) : Except Flaw (Entry × Nat) := do
  let fixed := bytes.take directorySize
  if fixed.length < directorySize then throw .truncatedDirectory
  if !directorySignature.isPrefixOf fixed then throw .badDirectorySignature
  let nameLength := Bytes.number fixed 28 2
  let extraLength := Bytes.number fixed 30 2
  let commentLength := Bytes.number fixed 32 2
  let rest := bytes.drop directorySize
  let flags := Bytes.number fixed 8 2
  let listedName ← match decodeName flags (rest.take nameLength) with
    | .ok name => pure name
    | .error e => throw (.undecodableName e)
  let rest := rest.drop nameLength
  let need := Bytes.number fixed 6 1
  if newestVersion < need then throw (.unsupportedVersion need)
  let entry : Entry := {
    listedName, need, flags
    made := Bytes.number fixed 4 1
    system := Bytes.number fixed 5 1
    reserved := Bytes.number fixed 7 1
    method := Bytes.number fixed 10 2
    time := Bytes.number fixed 12 2
    date := Bytes.number fixed 14 2
    crc := Bytes.number fixed 16 4
    packedSize := Bytes.number fixed 20 4
    size := Bytes.number fixed 24 4
    internalAttributes := Bytes.number fixed 36 2
    externalAttributes := Bytes.number fixed 38 4
    extra := rest.take extraLength
    comment := (rest.drop extraLength).take commentLength
    offset := Bytes.number fixed 42 4
    limit := 0 }
  let entry ← entry.readExtra entry.extra.length entry.extra
  pure ({ entry with offset := entry.offset + shift },
    directorySize + nameLength + extraLength + commentLength)

/-- Reads entries while fewer bytes are read than the directory has. -/
def readEntries (shift : Int) (size : Nat) : (fuel read : Nat) → Bytes → Except Flaw (List Entry)
  | 0, _, _ => .ok []
  | fuel + 1, read, bytes =>
    if size ≤ read then .ok []
    else do
      let (entry, length) ← readEntry shift bytes
      let rest ← readEntries shift size fuel (read + length) (bytes.drop length)
      pure (entry :: rest)

/-- The least of the offsets above `offset`, and `bound` if there is none. -/
def nextOffset (offset bound : Int) (offsets : List Int) : Int :=
  match (offsets.filter (offset < ·)).min? with
  | some next => next
  | none => bound

/-- Gives every entry the place up to which its data may reach: where the next one begins, or the
directory. Of entries with one offset only the first has room. -/
def setLimits (start : Int) (offsets : List Int) : (before : List Int) → List Entry → List Entry
  | _, [] => []
  | before, entry :: rest =>
    let limit :=
      if before.contains entry.offset then entry.offset
      else nextOffset entry.offset start offsets
    { entry with limit } :: setLimits start offsets (entry.offset :: before) rest

/-- The entries of an archive, in the order of its central directory. -/
def readDirectory (archive : Bytes) : Except Flaw (List Entry) := do
  let record ← readEnd archive
  let bytes := (archive.drop record.start.toNat).take record.size
  let entries ← readEntries record.shift record.size (bytes.length + 1) 0 bytes
  pure (setLimits record.start (entries.map (·.offset)) [] entries)

/-- The last entry with this name. -/
def find? (entries : List Entry) (name : String) : Option Entry :=
  entries.reverse.find? (·.name = name)

end JarRefinery.Archive
