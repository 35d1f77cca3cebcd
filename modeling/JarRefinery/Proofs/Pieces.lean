import JarRefinery.Http.Client
import JarRefinery.Proofs.Files.Operations

/-!
# Bodies written in pieces

A body is cut into pieces of one size and a rest, which make it up again. Written one after the other
they are in the file in the end, over what was in it before; of a body that breaks off only whole
pieces are.
-/

namespace JarRefinery

open Action (eval_bind eval_bind_ok eval_onFiles)

namespace Http

/-! ### Cutting a body -/

section Cutting

variable (size : Nat) (body : Bytes)

theorem flatten_fullPieces :
    (fullPieces size body).flatten = body.take (body.length / size * size) := by
  have hfront : ∀ count, count * size ≤ body.length →
      ((List.range count).map fun i => body.field (i * size) size).flatten =
        body.take (count * size) := by
    intro count
    induction count with
    | zero => simp
    | succ count ih =>
      intro hle
      rw [Nat.succ_mul] at hle
      rw [List.range_succ, List.map_append, List.flatten_append, ih (by omega), Nat.succ_mul,
        List.take_add]
      simp [Bytes.field]
  exact hfront _ (Nat.div_mul_le_self _ _)

/-- Nothing is lost between the pieces, and nothing is twice in them. -/
theorem fullPieces_append_lastPiece :
    (fullPieces size body).flatten ++ lastPiece size body = body := by
  rw [flatten_fullPieces]
  exact List.take_append_drop _ _

end Cutting

/-! ### Writing the pieces -/

section Writing

variable {host : Host} {world : World} {tree : FileTree} {file : Path}
  (hreach : tree.Reachable file) (hwrite : tree.Writable (file.normal tree.here))

include hreach hwrite

/-- Pieces follow what the file held. -/
theorem eval_writePieces (before : Bytes) (mode : Nat) (pieces : List Bytes) :
    (writePieces file pieces).eval host
        { world with files := tree.put (file.normal tree.here) (.file before mode) } =
      (.ok pieces.flatten.length,
        { world with
          files := tree.put (file.normal tree.here) (.file (before ++ pieces.flatten) mode) }) := by
  have hroot : file.normal tree.here ≠ [] := fun heq => hwrite.1 (by rw [heq, FileTree.node?_root])
  induction pieces generalizing before with
  | nil => simp [writePieces]
  | cons piece rest ih =>
    have hput : Change { written := {file.normal tree.here} } tree
        (tree.put (file.normal tree.here) (.file before mode)) := .putFile hwrite.1
    have hnode : (tree.put (file.normal tree.here) (.file before mode)).node?
        (file.normal (tree.put (file.normal tree.here) (.file before mode)).here) =
          some (.file before mode) := by
      simp [FileTree.node?_put, hroot]
    unfold writePieces
    rw [eval_bind, eval_onFiles, (hput.reachable hreach).eval_appendFile hnode]
    simp only [Except.mapError, FileTree.here_put, FileTree.put_put]
    rw [eval_bind_ok (ih _)]
    simp

/-- What is in the file when the body has come, or has broken off. -/
def arrived (size : Nat) (response : Response) : Bytes :=
  match response.fault with
  | none => response.body
  | some _ => response.body.take (response.body.length / size * size)

/-- How much a body is, unless it breaks off. -/
def measured (response : Response) : Except Fault Nat :=
  match response.fault with
  | none => .ok response.body.length
  | some fault => .error fault

/-- A body that begins in an empty file is written with the mode that the file has then. -/
theorem eval_writeBody_emptied (host : Host) {piece : Int} {response : Response}
    (hpiece : piece ≤ 0 → response.body = []) {mode : Nat}
    (hempty : (FileTree.writeFile file []).eval tree =
      (.ok (), tree.put (file.normal tree.here) (.file [] mode)))
    {world : World} (hworld : world.files = tree) :
    (writeBody piece file response).eval host world =
      (measured response,
        { world with
          files := tree.put (file.normal tree.here) (.file (arrived piece.toNat response) mode) }) := by
  have hrefuse : decide (piece ≤ 0 ∧ response.body ≠ []) = false := by simpa using hpiece
  unfold writeBody
  rw [eval_bind, eval_onFiles, hworld, hempty]
  simp only [Except.mapError]
  rw [hrefuse, eval_bind_ok (show Action.eval (Action.refuse false _) host _ = _ from rfl),
    eval_bind_ok (eval_writePieces hreach hwrite [] mode _)]
  rcases hfault : response.fault with _ | fault
  · have hread : ∀ world, response.read.eval host world = (.ok response.body, world) := by
      simp [Response.read, hfault]
    have hwhole := fullPieces_append_lastPiece piece.toNat response.body
    have hlength := congrArg List.length hwhole
    rw [List.length_append, List.length_flatten] at hlength
    rw [eval_bind_ok (hread _), eval_bind_ok (eval_writePieces hreach hwrite _ mode _)]
    simp [measured, arrived, hfault, hwhole, hlength]
  · have hread : ∀ world, response.read.eval host world = (.error fault, world) := by
      simp [Response.read, hfault]
    rw [Action.eval_bind_error (hread _), List.nil_append, flatten_fullPieces]
    simp [measured, arrived, hfault]

/-- A file that a body is written to holds what came of that body and nothing else. -/
theorem eval_writeBody (host : Host) {piece : Int} {response : Response}
    (hpiece : piece ≤ 0 → response.body = []) :
    ∃ mode, ∀ world, world.files = tree → (writeBody piece file response).eval host world =
      (measured response,
        { world with
          files := tree.put (file.normal tree.here)
            (.file (arrived piece.toNat response) mode) }) := by
  rcases FileTree.writeFile_cases tree file [] with ⟨-, -, mode, hempty⟩ | ⟨hnot, -⟩
  · exact ⟨mode, fun _ => eval_writeBody_emptied hreach hwrite host hpiece hempty⟩
  · exact absurd ⟨hreach, hwrite⟩ hnot

end Writing

end Http

end JarRefinery
