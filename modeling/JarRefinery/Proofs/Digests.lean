import JarRefinery.FileDigest
import JarRefinery.Proofs.Files.Operations

/-!
# Digests

The digest of a file is that of the bytes it holds, however they were cut into pieces.
-/

namespace JarRefinery

theorem BlockHash.update_append {Chain : Type} (hash : BlockHash Chain)
    (progress : BlockHash.Progress Chain) (front back : Bytes) :
    hash.update progress (front ++ back) = hash.update (hash.update progress front) back :=
  List.foldl_append

namespace FileDigest

theorem foldl_update (pieces : List Bytes) (progress : Progress) :
    pieces.foldl Progress.update progress = progress.update pieces.flatten := by
  induction pieces generalizing progress with
  | nil => rfl
  | cons piece rest ih =>
    rw [List.foldl_cons, ih, List.flatten_cons]
    simp [Progress.update, BlockHash.update_append, Nat.add_assoc]

/-- **Pieces.** A digest depends on the bytes alone. -/
theorem ofPieces_eq_flatten (pieces : List Bytes) : ofPieces pieces = ofPieces [pieces.flatten] := by
  rw [ofPieces, foldl_update]
  rfl

theorem flatten_pieces {size : Nat} (hsize : size ≠ 0) (bytes : Bytes) :
    (pieces size bytes).flatten = bytes := by
  induction bytes using pieces.induct size with
  | case1 bytes hends =>
    rw [pieces, if_pos hends]
    exact (hends.resolve_left hsize).symm
  | case2 bytes hgoes ih =>
    rw [pieces, if_neg hgoes, List.flatten_cons, ih, List.take_append_drop]

theorem sha256_ofPieces (pieces : List Bytes) :
    (ofPieces pieces).sha256 = Bytes.hex (Sha256.hash.digest pieces.flatten) := by
  rw [ofPieces_eq_flatten]
  rfl

theorem bytes_ofPieces (pieces : List Bytes) : (ofPieces pieces).bytes = pieces.flatten.length := by
  rw [ofPieces_eq_flatten]
  exact Nat.zero_add _

/-- What was taken the digest of is the file that the path leads to. -/
theorem of_eval_ofFile_ok {host : Host} {path : Path} {world after : World} {digest : FileDigest}
    (heval : (ofFile path).eval host world = (.ok digest, after)) :
    after = world ∧ ∃ contents mode,
      world.files.node? (path.normal world.files.here) = some (.file contents mode) ∧
      digest.bytes = contents.length ∧ digest.sha256 = Bytes.hex (Sha256.hash.digest contents) := by
  unfold ofFile ofFileBy at heval
  obtain ⟨contents, read, hread, heval⟩ := Action.of_eval_bind_ok heval
  obtain ⟨found, cut, hcut, hpure⟩ := Action.of_eval_bind_ok heval
  obtain ⟨files, hreadFile, rfl⟩ := Action.of_eval_onFiles_ok hread
  obtain rfl : files = world.files := by
    rw [← FileTree.eval_readFile_snd world.files path, hreadFile]
  obtain ⟨-, mode, hnode⟩ := FileTree.readFile_ok _ _ hreadFile
  rw [Action.eval_ofResult] at hcut
  obtain ⟨hpieces, rfl⟩ := Prod.mk.inj hcut
  obtain ⟨hdigest, rfl⟩ := Prod.mk.inj hpure
  obtain rfl := Except.ok.inj hdigest
  have hwhole : found.flatten = contents := by
    obtain rfl := Except.ok.inj (show Except.ok _ = _ from hpieces)
    exact flatten_pieces (by decide) contents
  exact ⟨rfl, contents, mode, hnode, by rw [bytes_ofPieces, hwhole], by rw [sha256_ofPieces, hwhole]⟩

end FileDigest

end JarRefinery
