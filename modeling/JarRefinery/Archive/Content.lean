import JarRefinery.Archive.Directory
import JarRefinery.Checksum.Crc32
import JarRefinery.Compress.Inflate

/-!
The contents of archive entries. The local header in front of the data repeats the name; the data
must end before the next part of the archive begins, and the contents must have the checksum that
the directory lists.
-/
namespace JarRefinery.Archive

def headerSize : Nat := 30
def headerSignature : Bytes := [0x50, 0x4b, 3, 4]

/-- The bytes of the archive from the data of an entry on, once its local header is found right. -/
def openEntry (archive : Bytes) (entry : Entry) : Except Flaw Bytes := do
  if entry.offset < 0 then throw .negativeOffset
  let bytes := archive.drop entry.offset.toNat
  let header := bytes.take headerSize
  if header.length < headerSize then throw .truncatedHeader
  if !headerSignature.isPrefixOf header then throw .badHeaderSignature
  let rest := bytes.drop headerSize
  let name := rest.take (Bytes.number header 26 2)
  let extra := (rest.drop name.length).take (Bytes.number header 28 2)
  if hasFlag entry.flags 0x20 then throw .patchedData
  if hasFlag entry.flags 0x40 then throw .strongEncryption
  match decodeName (Bytes.number header 6 2) name with
  | .error e => throw (.undecodableName e)
  | .ok headerName =>
    if headerName ≠ entry.listedName then throw (.nameMismatch entry.listedName name)
  let start := headerSize + name.length + extra.length
  if entry.limit < entry.offset + start + entry.packedSize then throw (.overlap entry.listedName)
  if hasFlag entry.flags 1 then throw (.encrypted entry.description)
  if !isSupported entry.method then throw .unsupportedMethod
  pure (bytes.drop start)

/-- How much is inflated at most to get `size` bytes, `window` bytes at a time. -/
def inflatedReach (window size : Nat) : Nat :=
  max 1 ((size + window - 1) / window) * window

/-- The contents of an entry before their checksum is looked at: at most as many bytes as the
directory lists. -/
def unpack (window : Nat) (entry : Entry) (available : Bytes) : Except Flaw Bytes :=
  let packed := available.take entry.packedSize
  let isShort := packed.length < entry.packedSize
  if entry.method = storedMethod then
    if isShort ∧ packed.length < max 1 entry.size then .error .cutShort
    else .ok (packed.take entry.size)
  else match Compress.inflate packed with
    | .finished data _ => .ok (data.toList.take entry.size)
    | .unfinished data =>
      if isShort ∧ data.size < max 1 entry.size then .error .cutShort
      else .ok (data.toList.take entry.size)
    | .invalid data =>
      if data.size ≤ inflatedReach window entry.size then .error .corruptStream
      else .ok (data.toList.take entry.size)

/-- The contents of an entry, read `window` bytes at a time. -/
def readContent (window : Nat) (archive : Bytes) (entry : Entry) : Except Flaw Bytes := do
  let content ← unpack window entry (← openEntry archive entry)
  if Crc32.ofBytes content ≠ entry.crc then throw (.badChecksum entry.name)
  pure content

/-- All entries of an archive in the order of its directory, each with its contents. -/
def readAll (window : Nat) (archive : Bytes) : Except Flaw (List (Entry × Bytes)) := do
  (← readDirectory archive).mapM fun entry => return (entry, ← readContent window archive entry)

end JarRefinery.Archive
