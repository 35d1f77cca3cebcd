import JarRefinery.Proofs.Archive.Fields
import JarRefinery.Proofs.Digests
import JarRefinery.Proofs.Pieces

/-!
# Digests of whole files

A hash that takes its input byte by byte comes to the same as one that pads the whole input, cuts it
into blocks and compresses them one after the other. A file that is read in pieces therefore has the
digest of its whole contents, and the reading comes to its end, whatever size the pieces have.
-/

namespace JarRefinery

namespace BlockHash

variable {Chain : Type} (hash : BlockHash Chain)

/-! ### Blocks -/

/-- The blocks of an input that is padded to whole blocks. -/
def blocks (bytes : Bytes) : List Bytes :=
  Http.fullPieces 64 (bytes ++ padding bytes.length)

/-- The hash of an input that is there at once: all of its blocks are compressed in their order. -/
def ofWhole (bytes : Bytes) : Bytes :=
  hash.output ((blocks bytes).foldl hash.compress hash.initial)

/-- The padding fills the last block. -/
theorem add_length_padding (length : Nat) : (length + (padding length).length) % 64 = 0 := by
  have hlength : (padding length).length = (119 - length % 64) % 64 + 9 := by
    simp [padding, Bytes.ofBigEndian]
  omega

theorem flatten_blocks (bytes : Bytes) :
    (blocks bytes).flatten = bytes ++ padding bytes.length := by
  have hwhole := add_length_padding bytes.length
  rw [blocks, Http.flatten_fullPieces, List.take_of_length_le]
  rw [List.length_append]
  omega

theorem length_of_mem_blocks {bytes block : Bytes} (hblock : block ∈ blocks bytes) :
    block.length = 64 := by
  obtain ⟨i, hi, rfl⟩ := List.mem_map.mp hblock
  have hlt := List.mem_range.mp hi
  have hle : (i + 1) * 64 ≤ (bytes ++ padding bytes.length).length :=
    (Nat.mul_le_mul_right 64 hlt).trans (Nat.div_mul_le_self _ _)
  rw [Bytes.field, List.length_take, List.length_drop]
  omega

/-! ### Taking in an input byte by byte -/

/-- Bytes that do not fill the block are kept for later. -/
theorem update_pending (chain : Chain) {pending piece : Bytes} {length : Nat}
    (hpending : length % 64 = pending.length) (hshort : pending.length + piece.length < 64) :
    hash.update ⟨chain, pending, length⟩ piece =
      ⟨chain, piece.reverse ++ pending, length + piece.length⟩ := by
  induction piece generalizing pending length with
  | nil => rfl
  | cons b rest ih =>
    rw [List.length_cons] at hshort
    have hopen : ¬(length + 1) % 64 = 0 := by omega
    have habsorb : hash.absorb ⟨chain, pending, length⟩ b = ⟨chain, b :: pending, length + 1⟩ := by
      simp [absorb, hopen]
    have hrest := @ih (b :: pending) (length + 1)
      (by rw [List.length_cons]; omega) (by rw [List.length_cons]; omega)
    change hash.update (hash.absorb ⟨chain, pending, length⟩ b) rest = _
    rw [habsorb, hrest]
    simp [Nat.add_assoc, Nat.add_comm 1]

/-- **Step.** A block that begins where the one before ended is compressed. -/
theorem update_block (chain : Chain) {block : Bytes} {length : Nat} (hstart : length % 64 = 0)
    (hblock : block.length = 64) :
    hash.update ⟨chain, [], length⟩ block = ⟨hash.compress chain block, [], length + 64⟩ := by
  obtain ⟨front, last, rfl⟩ : ∃ front last, block = front ++ [last] :=
    ⟨_, _, (List.dropLast_append_getLast (List.ne_nil_of_length_pos (by omega))).symm⟩
  have hfront : front.length = 63 := by simpa using hblock
  have hfull : (length + 63 + 1) % 64 = 0 := by omega
  rw [update_append, update_pending hash chain (by simpa using hstart) (by simp [hfront])]
  simp [update, absorb, hfront, hfull]

/-- **Run.** Blocks are compressed one after the other. -/
theorem update_blocks (chain : Chain) {blocks : List Bytes} {length : Nat} (hstart : length % 64 = 0)
    (hblocks : ∀ block ∈ blocks, block.length = 64) :
    hash.update ⟨chain, [], length⟩ blocks.flatten =
      ⟨blocks.foldl hash.compress chain, [], length + 64 * blocks.length⟩ := by
  induction blocks generalizing chain length with
  | nil => rfl
  | cons block rest ih =>
    obtain ⟨hblock, hrest⟩ := List.forall_mem_cons.mp hblocks
    rw [List.flatten_cons, update_append, update_block hash chain hstart hblock,
      ih _ (by omega) hrest]
    simp only [List.foldl_cons, List.length_cons, Progress.mk.injEq, true_and]
    omega

theorem length_update (progress : Progress Chain) (piece : Bytes) :
    (hash.update progress piece).length = progress.length + piece.length := by
  induction piece generalizing progress with
  | nil => rfl
  | cons b rest ih =>
    have habsorb : (hash.absorb progress b).length = progress.length + 1 := by
      unfold absorb
      dsimp only
      split <;> rfl
    change (hash.update (hash.absorb progress b) rest).length = _
    rw [ih, habsorb, List.length_cons]
    omega

/-- Byte by byte an input has the same hash as at once. -/
theorem digest_eq_ofWhole (bytes : Bytes) : hash.digest bytes = hash.ofWhole bytes := by
  have hlength : (hash.update hash.start bytes).length = bytes.length := by
    rw [length_update]
    exact Nat.zero_add _
  unfold digest finish
  rw [hlength, ← update_append, ← flatten_blocks, start,
    update_blocks hash _ (Nat.zero_mod 64) fun _ => length_of_mem_blocks]
  rfl

end BlockHash

namespace FileDigest

/-! ### Reading in pieces -/

/-- The digest of contents that are there at once. -/
def ofWhole (contents : Bytes) : FileDigest :=
  ⟨Bytes.hex (Sha256.hash.ofWhole contents), Bytes.hex (Sha1.hash.ofWhole contents), contents.length⟩

theorem sha1_ofPieces (pieces : List Bytes) :
    (ofPieces pieces).sha1 = Bytes.hex (Sha1.hash.digest pieces.flatten) := by
  rw [ofPieces_eq_flatten]
  rfl

theorem ofPieces_eq_ofWhole (pieces : List Bytes) : ofPieces pieces = ofWhole pieces.flatten := by
  have hfields : ofPieces pieces =
      ⟨(ofPieces pieces).sha256, (ofPieces pieces).sha1, (ofPieces pieces).bytes⟩ := rfl
  rw [hfields, sha256_ofPieces, sha1_ofPieces, bytes_ofPieces, BlockHash.digest_eq_ofWhole,
    BlockHash.digest_eq_ofWhole]
  rfl

/-- Pieces of some bytes, or of all that is left. -/
def IsPieceSize (size : Int) : Prop :=
  1 ≤ size ∨ size = -1

theorem flatten_piecesOf {size : Int} (hsize : IsPieceSize size) (contents : Bytes) :
    ∃ pieces, piecesOf size contents = .ok pieces ∧ pieces.flatten = contents := by
  unfold piecesOf
  by_cases hall : size = -1
  · refine ⟨_, if_pos hall, ?_⟩
    split <;> simp_all
  · have hpositive : 1 ≤ size := hsize.resolve_right hall
    refine ⟨_, by rw [if_neg hall, if_neg (by omega)], flatten_pieces (by omega) contents⟩

/-- What is read next of the rest of a file, and what is left then. -/
def nextPiece (size : Int) (rest : Bytes) : Bytes × Bytes :=
  if size = -1 then (rest, []) else (rest.take size.toNat, rest.drop size.toNat)

theorem nextPiece_append {size : Int} (rest : Bytes) :
    (nextPiece size rest).1 ++ (nextPiece size rest).2 = rest := by
  unfold nextPiece
  split
  · exact List.append_nil rest
  · exact List.take_append_drop _ rest

theorem nextPiece_nonempty {size : Int} (hsize : IsPieceSize size) {rest : Bytes} (hrest : rest ≠ []) :
    (nextPiece size rest).1 ≠ [] := by
  unfold nextPiece
  split
  · exact hrest
  · rename_i hall
    have hpositive : 1 ≤ size := hsize.resolve_right hall
    simp only [ne_eq, List.take_eq_nil_iff, not_or]
    exact ⟨by omega, hrest⟩

/-- Reads piece after piece until one is empty, in so many rounds at most. -/
def reading (size : Int) : (rounds : Nat) → Progress → (rest : Bytes) → Option FileDigest
  | 0, _, _ => none
  | rounds + 1, progress, rest =>
    match nextPiece size rest with
    | ([], _) => some progress.finish
    | (piece, left) => reading size rounds (progress.update piece) left

theorem Progress.update_append (progress : Progress) (front back : Bytes) :
    progress.update (front ++ back) = (progress.update front).update back := by
  simp [Progress.update, BlockHash.update_append, Nat.add_assoc]

/-- The reading comes to its end after fewer pieces than there are bytes, and one that is empty. -/
theorem reading_eq_some {size : Int} (hsize : IsPieceSize size) {rounds : Nat} {rest : Bytes}
    (hrounds : rest.length < rounds) (progress : Progress) :
    reading size rounds progress rest = some (progress.update rest).finish := by
  induction rounds generalizing progress rest with
  | zero => omega
  | succ rounds ih =>
    have hparts := @nextPiece_append size rest
    unfold reading
    rcases hnext : nextPiece size rest with ⟨_ | ⟨b, piece⟩, left⟩ <;> rw [hnext] at hparts
    · have hempty : rest = [] := by
        by_contra hrest
        exact nextPiece_nonempty hsize hrest (congrArg Prod.fst hnext)
      subst hempty
      rfl
    · have hlength := congrArg List.length hparts
      simp only [List.length_append, List.length_cons] at hlength
      change reading size rounds (progress.update (b :: piece)) left = _
      rw [ih (by omega), ← Progress.update_append]
      exact congrArg (fun read => some (progress.update read).finish) hparts

variable {host : Host} {world : World} {path : Path} {contents : Bytes}

theorem eval_ofFileBy (hholds : world.files.Holds path contents) {size : Int}
    (hsize : IsPieceSize size) :
    (ofFileBy size path).eval host world = (.ok (ofWhole contents), world) := by
  obtain ⟨pieces, hpieces, hflatten⟩ := flatten_piecesOf hsize contents
  unfold ofFileBy
  rw [Action.eval_bind, Action.eval_onFiles, hholds.eval_readFile]
  simp only [Except.mapError, Action.eval_bind, Action.eval_ofResult, hpieces, Action.eval_pure,
    ofPieces_eq_ofWhole, hflatten]

/-- Fourteen runs of four letters, which leave no room for their length in one block. -/
def letters : Bytes :=
  (List.range 14).flatMap fun i => (List.range 4).map fun j => UInt8.ofNat (97 + i + j)

def lettered : FileTree :=
  ⟨[(["work"], .directory), (["work", "f"], .file letters 0o644)], ["work"]⟩

end FileDigest

end JarRefinery
