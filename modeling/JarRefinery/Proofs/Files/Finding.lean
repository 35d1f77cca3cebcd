import JarRefinery.Proofs.Files.Operations

/-!
# Whether a path leads to a node

Only a path that is too long, as a whole or in a name that it comes to, cannot be asked about. Any
other leads to the node at its place, or nowhere.
-/

namespace JarRefinery.FileTree

open FileTree.Action (eval eval_bind eval_bind_ok eval_bind_error)

variable (tree : FileTree) (path : Path)

/-- The system does not take the path, for the length of it or of a name in it. -/
def TooLong : Prop :=
  hasNull path = false ∧ tree.locate path = .error .nameTooLong

instance : Decidable (tree.TooLong path) :=
  inferInstanceAs (Decidable (_ ∧ _))

theorem follow_error {location : Location} {parts : List String} {code : ErrorCode}
    (herror : tree.follow location parts = .error code) :
    code = .noEntry ∨ code = .notDirectory ∨ code = .nameTooLong := by
  induction parts generalizing location with
  | nil => cases herror
  | cons part rest ih =>
    unfold follow at herror
    split at herror
    · exact .inl (Except.error.inj herror).symm
    · exact .inr (.inl (Except.error.inj herror).symm)
    · split_ifs at herror
      · exact ih herror
      · exact .inr (.inr (Except.error.inj herror).symm)
      · exact ih herror

theorem locate_error {code : ErrorCode} (herror : tree.locate path = .error code) :
    code = .noEntry ∨ code = .notDirectory ∨ code = .nameTooLong := by
  unfold locate at herror
  split at herror
  · exact .inr (.inr (Except.error.inj herror).symm)
  · exact tree.follow_error herror

section Stat

variable {tree path}

theorem Reachable.eval_stat (hreach : tree.Reachable path) {node : Node}
    (hnode : tree.node? (path.normal tree.here) = some node) :
    eval (stat path) tree = (.ok node, tree) := by
  unfold stat
  rw [eval_bind_ok hreach.eval_locating, eval_bind_ok (Action.eval_get tree), hnode]
  rfl

theorem Reachable.eval_stat_none (hreach : tree.Reachable path)
    (hnone : tree.node? (path.normal tree.here) = none) :
    eval (stat path) tree = (.error (.system ⟨.noEntry, some path.toString, none⟩), tree) := by
  unfold stat
  rw [eval_bind_ok hreach.eval_locating, eval_bind_ok (Action.eval_get tree), hnone]
  rfl

theorem eval_find?_of_stat {node : Node} (hstat : eval (stat path) tree = (.ok node, tree)) :
    eval (find? path) tree = (.ok (some node), tree) := by
  have hrun : (stat path).run tree = (.ok node, tree) := hstat
  unfold find?
  rw [eval_bind_ok (Action.eval_get tree), hrun]
  rfl

theorem eval_find?_of_stat_null (hstat : eval (stat path) tree = (.error .nullByte, tree)) :
    eval (find? path) tree = (.ok none, tree) := by
  have hrun : (stat path).run tree = (.error .nullByte, tree) := hstat
  unfold find?
  rw [eval_bind_ok (Action.eval_get tree), hrun]
  rfl

theorem eval_find?_of_stat_error {error : SystemError}
    (hstat : eval (stat path) tree = (.error (.system error), tree)) :
    eval (find? path) tree = (if error.code = .noEntry ∨ error.code = .notDirectory then .ok none
      else .error (.system error), tree) := by
  have hrun : (stat path).run tree = (.error (.system error), tree) := hstat
  unfold find?
  rw [eval_bind_ok (Action.eval_get tree), hrun]
  dsimp only
  split_ifs <;> rfl

end Stat

theorem find?_cases :
    (tree.Reachable path ∧ ¬tree.TooLong path ∧
      eval (find? path) tree = (.ok (tree.node? (path.normal tree.here)), tree)) ∨
    (¬tree.Reachable path ∧ ¬tree.TooLong path ∧ eval (find? path) tree = (.ok none, tree)) ∨
    (¬tree.Reachable path ∧ tree.TooLong path ∧ eval (find? path) tree =
      (.error (.system ⟨.nameTooLong, some path.toString, none⟩), tree)) := by
  by_cases hreach : tree.Reachable path
  · refine .inl ⟨hreach, fun hlong => ?_, ?_⟩
    · cases hreach.locate.symm.trans hlong.2
    · rcases hnode : tree.node? (path.normal tree.here) with _ | node
      · exact eval_find?_of_stat_error (hreach.eval_stat_none hnode)
      · exact eval_find?_of_stat (hreach.eval_stat hnode)
  have hfailed : ∀ error, eval (locating path) tree = (.error error, tree) →
      eval (stat path) tree = (.error error, tree) := fun error herror => eval_bind_error herror
  have hlocating := eval_locating_eq tree path
  by_cases hnull : hasNull path = true
  · rw [if_pos hnull] at hlocating
    refine .inr (.inl ⟨hreach, fun hlong => by simp [hlong.1] at hnull, ?_⟩)
    exact eval_find?_of_stat_null (hfailed _ hlocating)
  rw [if_neg hnull] at hlocating
  rw [Bool.not_eq_true] at hnull
  rcases hlocate : tree.locate path with code | location
  swap
  · exact absurd (Reachable.of_locate hnull hlocate).1 hreach
  rw [hlocate] at hlocating
  have hfound := eval_find?_of_stat_error (hfailed _ hlocating)
  unfold TooLong
  rcases tree.locate_error path hlocate with rfl | rfl | rfl
  · exact .inr (.inl ⟨hreach, by simp [hlocate], hfound⟩)
  · exact .inr (.inl ⟨hreach, by simp [hlocate], hfound⟩)
  · exact .inr (.inr ⟨hreach, ⟨hnull, hlocate⟩, hfound⟩)

/-- A path is told to exist exactly if it leads to a node, or it cannot be asked about. -/
theorem doesExist_cases :
    (¬tree.TooLong path ∧ ∃ found, eval (doesExist path) tree = (.ok found, tree) ∧
      (found = true ↔ tree.Reachable path ∧ tree.node? (path.normal tree.here) ≠ none)) ∨
    (tree.TooLong path ∧ eval (doesExist path) tree =
      (.error (.system ⟨.nameTooLong, some path.toString, none⟩), tree)) := by
  unfold doesExist
  rcases tree.find?_cases path with ⟨hreach, hshort, hfind⟩ | ⟨hnot, hshort, hfind⟩ | ⟨-, hlong, hfind⟩
  · refine .inl ⟨hshort, _, eval_bind_ok hfind, ?_⟩
    simp [hreach, Option.isSome_iff_ne_none]
  · exact .inl ⟨hshort, _, eval_bind_ok hfind, by simp [hnot]⟩
  · exact .inr ⟨hlong, eval_bind_error hfind⟩

/-- A path is told to lead to a directory exactly if it does, or it cannot be asked about. -/
theorem isDirectory_cases :
    (¬tree.TooLong path ∧ ∃ found, eval (isDirectory path) tree = (.ok found, tree) ∧
      (found = true ↔ tree.HasDirectory path)) ∨
    (tree.TooLong path ∧ eval (isDirectory path) tree =
      (.error (.system ⟨.nameTooLong, some path.toString, none⟩), tree)) := by
  unfold isDirectory
  rcases tree.find?_cases path with ⟨hreach, hshort, hfind⟩ | ⟨hnot, hshort, hfind⟩ | ⟨-, hlong, hfind⟩
  · refine .inl ⟨hshort, _, eval_bind_ok hfind, ?_⟩
    rw [beq_iff_eq]
    exact ⟨fun hnode => ⟨hreach, hnode⟩, fun hdirectory => hdirectory.node⟩
  · refine .inl ⟨hshort, _, eval_bind_ok hfind, ?_⟩
    simpa using fun hdirectory : tree.HasDirectory path => hnot hdirectory.reachable
  · exact .inr ⟨hlong, eval_bind_error hfind⟩

end JarRefinery.FileTree
