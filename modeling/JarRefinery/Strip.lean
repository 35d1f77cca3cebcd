import JarRefinery.Archive.Writer
import JarRefinery.Artifact
import JarRefinery.Text.UpperCase
import JarRefinery.World

/-!
Stripping: a jar without its reserved entries, which hold signatures and other facts about the jar
that no longer hold once it is changed. All other entries keep their order, contents and attributes.
-/
namespace JarRefinery.Strip

def reservedDirectory : String := "META-INF/"

/-- Whether an entry of this name is reserved; case does not matter. -/
def isReserved (name : String) : Bool :=
  Text.beginsWith reservedDirectory (Text.upperCase name)

/-- Contents are read in windows of this size. -/
def window : Nat := 1024 * 1024

/-- The entry as it is written again. A directory has no contents. The header is written before the
contents are read. -/
def member (archive : Bytes) (entry : Archive.Entry) : Except Archive.Flaw Archive.Member := do
  if entry.name.isEmpty then throw .emptyName
  if entry.isDirectory then
    if !Archive.isSupported entry.method then throw .unsupportedMethod
    let written := { entry with size := 0 }
    Archive.Member.checkHeader written
    pure ⟨written, []⟩
  else
    let _ ← Archive.openEntry archive entry
    Archive.Member.checkHeader entry
    pure ⟨entry, ← Archive.readContent window archive entry⟩

/-- A stripped archive and how many entries were kept and dropped. -/
structure Stripped where
  archive : Bytes
  kept : Nat
  dropped : Nat
deriving DecidableEq, Repr

/-- Strips an archive. -/
def stripBytes (archive : Bytes) : Except Archive.Flaw Stripped := do
  let entries ← Archive.readDirectory archive
  let kept := entries.filter (!isReserved ·.name)
  let members ← kept.mapM (member archive)
  pure ⟨Archive.write members, kept.length, entries.length - kept.length⟩

/-- Faults of the archive or the system. -/
def isStripFault (fault : Fault) : Bool :=
  fault.isAny [.badArchive, .largeArchive, .osError, .runtimeError]

def fill (source file : Path) : Action (Nat × Nat) := do
  let archive ← Action.onFiles (FileTree.readFile source)
  let stripped ← Action.ofExcept .archive (stripBytes archive)
  Action.onFiles (FileTree.writeFile file stripped.archive)
  pure (stripped.kept, stripped.dropped)

/-- Strips the archive at `source` into another one at `target`: how many entries were kept and
dropped. -/
def strip (source target : Path) : Action (Nat × Nat) := do
  let from_ ← Action.onFiles (FileTree.resolve source)
  let to_ ← Action.onFiles (FileTree.resolve target)
  Action.refuse (from_ = to_)
    (.of .sanitizeError ("Refusing to strip " ++ source.toString ++ " in place"))
  Action.withSibling target fun sibling =>
    Action.explain isStripFault
      (fun fault => .of .sanitizeError
        ("Failed to strip " ++ source.toString ++ ": " ++ fault.message))
      (Action.moving sibling target (fill source sibling))

/-- The stripped artifact, with the numbers of entries kept and dropped. -/
def artifact (payload : Artifact) (target : Path) : Action (Artifact × Nat × Nat) := do
  let counts ← strip payload.path target
  pure (payload.derive "stripped" target none, counts)

end JarRefinery.Strip
