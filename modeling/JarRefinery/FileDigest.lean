import JarRefinery.Checksum.Sha1
import JarRefinery.Checksum.Sha256
import JarRefinery.World

/-!
Digests of files. A file is read in pieces; its digest does not depend on their size.
-/
namespace JarRefinery

structure FileDigest where
  sha256 : String
  sha1 : String
  bytes : Nat
deriving DecidableEq, Repr

namespace FileDigest

/-- The pieces of `size` bytes that are read one after the other, the last one as long as it may
be. -/
def pieces (size : Nat) (bytes : Bytes) : List Bytes :=
  if size = 0 ∨ bytes = [] then []
  else bytes.take size :: pieces size (bytes.drop size)
termination_by bytes.length
decreasing_by
  rename_i h
  have : bytes.length ≠ 0 := fun h' => h (.inr (List.eq_nil_of_length_eq_zero h'))
  rw [List.length_drop]
  omega

/-- Pieces of size minus one are the whole rest, and no other negative size is admitted. -/
def piecesOf (size : Int) (bytes : Bytes) : Except Fault (List Bytes) :=
  if size = -1 then .ok (if bytes = [] then [] else [bytes])
  else if size < 0 then .error (.value "read length must be non-negative or -1")
  else .ok (pieces size.toNat bytes)

/-- A digest part way through a file. -/
structure Progress where
  long : BlockHash.Progress Sha256.Registers
  short : BlockHash.Progress Sha1.Registers
  bytes : Nat

def Progress.start : Progress :=
  ⟨Sha256.hash.start, Sha1.hash.start, 0⟩

def Progress.update (progress : Progress) (piece : Bytes) : Progress :=
  ⟨Sha256.hash.update progress.long piece, Sha1.hash.update progress.short piece,
    progress.bytes + piece.length⟩

def Progress.finish (progress : Progress) : FileDigest :=
  ⟨Bytes.hex (Sha256.hash.finish progress.long), Bytes.hex (Sha1.hash.finish progress.short),
    progress.bytes⟩

def ofPieces (pieces : List Bytes) : FileDigest :=
  (pieces.foldl Progress.update .start).finish

def defaultPiece : Int := 1024 * 1024

/-- The digest of the file at `path`, read `piece` bytes at a time. -/
def ofFileBy (piece : Int) (path : Path) : Action FileDigest := do
  let contents ← Action.onFiles (FileTree.readFile path)
  let pieces ← Action.ofResult (piecesOf piece contents)
  pure (ofPieces pieces)

def ofFile (path : Path) : Action FileDigest :=
  ofFileBy defaultPiece path

end FileDigest

end JarRefinery
