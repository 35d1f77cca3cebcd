import JarRefinery.Archive.Content
import JarRefinery.Archive.Directory
import JarRefinery.Compress.Deflate

/-!
Writing archives. An entry keeps its method, date, versions, extra field, comment and attributes;
sizes and checksum are those of what is written. There are no data descriptors and no archive
comment.
-/
namespace JarRefinery.Archive

/-- An entry and its contents, to be written. -/
structure Member where
  entry : Entry
  content : Bytes

namespace Member

/-- From this declared size on, a local header has room for wide sizes. -/
def wideHeaderSize : Nat := 2045222521

/-- The largest size of four bytes that is written as it is. -/
def narrowLimit : Nat := 0x7fffffff

def wideVersion : Nat := 45

/-- Attributes of a file that has none: its owner may read and write it. -/
def defaultAttributes : Nat := 0o600 * 0x10000

def packed (member : Member) : Bytes :=
  if member.entry.method = deflatedMethod then Compress.deflate member.content else member.content

/-- The entry as the new directory lists it, its local header at `offset`. -/
def listed (member : Member) (offset : Nat) : Entry :=
  let entry := member.entry
  let least := if narrowLimit < entry.size then wideVersion else 0
  { entry with
    listedName := entry.name
    made := max least entry.made
    need := max least entry.need
    flags := nameFlags entry.name
    crc := Crc32.ofBytes member.content
    packedSize := member.packed.length
    size := member.content.length
    externalAttributes :=
      if entry.externalAttributes = 0 then defaultAttributes else entry.externalAttributes
    offset := offset }

/-- The extra field of the local header. -/
def headerExtra (member : Member) : Bytes :=
  let wide :=
    if wideHeaderSize ≤ member.entry.size then
      Bytes.ofLittleEndian 2 1 ++ Bytes.ofLittleEndian 2 16 ++
        Bytes.ofLittleEndian 8 member.content.length ++
        Bytes.ofLittleEndian 8 member.packed.length
    else []
  member.entry.extra ++ wide

/-- The largest length that a header can tell. -/
def lengthLimit : Nat := 0xffff

/-- Refuses an entry whose name or extra field is too long for its header. -/
def checkHeader (entry : Entry) : Except Flaw Unit :=
  if lengthLimit < (Text.Utf8.encode entry.name).length ∨
      lengthLimit < (headerExtra ⟨entry, []⟩).length then
    .error .longField
  else .ok ()

/-- The fields that local header and directory share, from the version on. -/
def sharedFields (entry : Entry) (nameLength extraLength : Nat) : Bytes :=
  Bytes.ofLittleEndian 1 entry.need ++ Bytes.ofLittleEndian 1 entry.reserved ++
    Bytes.ofLittleEndian 2 entry.flags ++ Bytes.ofLittleEndian 2 entry.method ++
    Bytes.ofLittleEndian 2 entry.time ++ Bytes.ofLittleEndian 2 entry.date ++
    Bytes.ofLittleEndian 4 entry.crc ++ Bytes.ofLittleEndian 4 entry.packedSize ++
    Bytes.ofLittleEndian 4 entry.size ++ Bytes.ofLittleEndian 2 nameLength ++
    Bytes.ofLittleEndian 2 extraLength

/-- The local header and the data. -/
def localBytes (member : Member) : Bytes :=
  let entry := member.listed 0
  let name := Text.Utf8.encode entry.listedName
  let extra := member.headerExtra
  headerSignature ++ sharedFields entry name.length extra.length ++ name ++ extra ++ member.packed

end Member

/-- The record of an entry in the central directory. -/
def Entry.directoryBytes (entry : Entry) : Bytes :=
  let name := Text.Utf8.encode entry.listedName
  directorySignature ++ Bytes.ofLittleEndian 1 entry.made ++ Bytes.ofLittleEndian 1 entry.system ++
    Member.sharedFields entry name.length entry.extra.length ++
    Bytes.ofLittleEndian 2 entry.comment.length ++ Bytes.ofLittleEndian 2 0 ++
    Bytes.ofLittleEndian 2 entry.internalAttributes ++
    Bytes.ofLittleEndian 4 entry.externalAttributes ++ Bytes.ofLittleEndian 4 entry.offset.toNat ++
    name ++ entry.extra ++ entry.comment

/-- The entries that a directory lists for members written from `offset` on. -/
def listMembers : (offset : Nat) → List Member → List Entry
  | _, [] => []
  | offset, member :: rest =>
    member.listed offset :: listMembers (offset + member.localBytes.length) rest

def endBytes (count size offset : Nat) : Bytes :=
  endSignature ++ Bytes.ofLittleEndian 4 0 ++ Bytes.ofLittleEndian 2 count ++
    Bytes.ofLittleEndian 2 count ++ Bytes.ofLittleEndian 4 size ++ Bytes.ofLittleEndian 4 offset ++
    Bytes.ofLittleEndian 2 0

/-- The archive of these members. -/
def write (members : List Member) : Bytes :=
  let data := members.flatMap Member.localBytes
  let entries := listMembers 0 members
  let directory := entries.flatMap Entry.directoryBytes
  data ++ directory ++ endBytes entries.length directory.length data.length

end JarRefinery.Archive
