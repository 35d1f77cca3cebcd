import JarRefinery.Archive.Content
import JarRefinery.Archive.Directory
import JarRefinery.World

/-!
Mapping documents inside containers: as an entry of an archive, or compressed. They are written out
beside their target and moved there once they are complete.
-/
namespace JarRefinery.Mapping

/-- Entries are read in windows of this size. -/
def window : Nat := 64 * 1024

/-- The contents of the entry `name`, which the container must have. -/
def entryContent (container : Path) (name : String) (archive : Bytes) : Except Fault Bytes := do
  let entries ← (Archive.readDirectory archive).mapError .archive
  match Archive.find? entries name with
  | some entry => (Archive.readContent window archive entry).mapError .archive
  | none => throw (.because
      (.of .mappingExtractionError (container.name ++ " has no " ++ name))
      (.of .keyError ("There is no item named " ++ Text.quote name ++ " in the archive")))

def fillFromEntry (container : Path) (name : String) (file : Path) : Action Unit := do
  let archive ← Action.onFiles (FileTree.readFile container)
  let content ← Action.ofResult (entryContent container name archive)
  Action.onFiles (FileTree.writeFile file content)

/-- Writes an entry of the archive at `container` to `target`. -/
def extractEntry (container : Path) (name : String) (target : Path) : Action Path :=
  Action.withSibling target fun sibling =>
    Action.explain (·.isAny [.badArchive, .osError])
      (fun fault => .of .mappingExtractionError
        ("Cannot read " ++ container.toString ++ ": " ++ fault.message))
      (Action.moving sibling target do
        fillFromEntry container name sibling
        pure target)

def fillFromCompressed (source file : Path) : Action Unit := do
  let compressed ← Action.onFiles (FileTree.readFile source)
  let content ← Action.ofExcept .gzip (Gzip.decompress compressed)
  Action.onFiles (FileTree.writeFile file content)

/-- Writes what the file at `source` decompresses to, to `target`. -/
def gunzip (source target : Path) : Action Path :=
  Action.withSibling target fun sibling =>
    Action.explain (·.isAny [.osError, .eofError])
      (fun fault => .of .mappingExtractionError
        ("Cannot decompress " ++ source.toString ++ ": " ++ fault.message))
      (Action.moving sibling target do
        fillFromCompressed source sibling
        pure target)

end JarRefinery.Mapping
