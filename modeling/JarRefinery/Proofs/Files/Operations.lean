import JarRefinery.Proofs.Files.Change

/-!
# What operations do to a tree

Reading leaves the tree. An operation on one file either fails and leaves the tree, or its path leads
somewhere and the one node there is put or erased. Making directories changes nothing but places that
the path passes.
-/

namespace JarRefinery.FileTree

open FileTree.Action (eval eval_bind eval_bind_ok eval_bind_error)

variable (tree : FileTree) (path : Path)

/-! ### Reading -/

theorem eval_locating_snd : (eval (locating path) tree).2 = tree := by
  rcases eval_locating tree path with ⟨-, heval⟩ | ⟨-, error, heval⟩ <;> rw [heval]

/-- The node at a path is found if the path leads there. -/
theorem stat_cases :
    (∃ node, tree.Reachable path ∧ tree.node? (path.normal tree.here) = some node ∧
      eval (stat path) tree = (.ok node, tree)) ∨
      ((tree.Reachable path → tree.node? (path.normal tree.here) = none) ∧
        ∃ error, eval (stat path) tree = (.error error, tree)) := by
  unfold stat
  rcases eval_locating tree path with ⟨hreach, heval⟩ | ⟨hnot, error, heval⟩
  · rw [eval_bind_ok heval, Action.eval_bind_ok (Action.eval_get tree)]
    cases hnode : tree.node? (path.normal tree.here) with
    | none => exact .inr ⟨fun _ => rfl, _, rfl⟩
    | some node => exact .inl ⟨node, hreach, rfl, rfl⟩
  · exact .inr ⟨fun hreach => absurd hreach hnot, error, eval_bind_error heval⟩

theorem eval_find?_snd : (eval (find? path) tree).2 = tree := by
  unfold find?
  rw [eval_bind_ok (Action.eval_get tree)]
  rcases (stat path).run tree with ⟨(error | _) | node, after⟩
  · by_cases hcode : error.code = .noEntry ∨ error.code = .notDirectory <;> simp [hcode]
  · rfl
  · rfl

/-- A path that is found to lead to a node does. -/
theorem find?_some {node : Node} {after : FileTree}
    (heval : eval (find? path) tree = (.ok (some node), after)) :
    tree.Reachable path ∧ tree.node? (path.normal tree.here) = some node := by
  unfold find? at heval
  rw [eval_bind_ok (Action.eval_get tree)] at heval
  rcases stat_cases tree path with ⟨found, hreach, hnode, hstat⟩ | ⟨-, error, hstat⟩
  · have hrun : (stat path).run tree = (.ok found, tree) := hstat
    simp only [hrun, Action.eval_pure, Prod.mk.injEq, Except.ok.injEq, Option.some.injEq] at heval
    exact ⟨hreach, heval.1 ▸ hnode⟩
  · have hrun : (stat path).run tree = (.error error, tree) := hstat
    rcases error with error | _
    · simp only [hrun] at heval
      split at heval <;> simp at heval
    · simp [hrun] at heval

theorem eval_doesExist_snd : (eval (doesExist path) tree).2 = tree := by
  unfold doesExist
  have hfind := eval_find?_snd tree path
  rw [eval_bind]
  rcases heval : eval (find? path) tree with ⟨error | found, after⟩ <;> rw [heval] at hfind <;>
    exact hfind

theorem eval_isDirectory_snd : (eval (isDirectory path) tree).2 = tree := by
  unfold isDirectory
  have hfind := eval_find?_snd tree path
  rw [eval_bind]
  rcases heval : eval (find? path) tree with ⟨error | found, after⟩ <;> rw [heval] at hfind <;>
    exact hfind

theorem eval_isFile_snd : (eval (isFile path) tree).2 = tree := by
  unfold isFile
  have hfind := eval_find?_snd tree path
  rw [eval_bind]
  rcases heval : eval (find? path) tree with ⟨error | found, after⟩ <;> rw [heval] at hfind
  · exact hfind
  · rcases found with _ | ⟨_ | ⟨contents, mode⟩⟩ <;> exact hfind

theorem isDirectory_true {after : FileTree}
    (heval : eval (isDirectory path) tree = (.ok true, after)) :
    tree.Reachable path ∧ tree.node? (path.normal tree.here) = some .directory := by
  unfold isDirectory at heval
  rw [eval_bind] at heval
  rcases hfind : eval (find? path) tree with ⟨error | found, middle⟩
  · simp [hfind] at heval
  · simp only [hfind, Action.eval_pure, Prod.mk.injEq, Except.ok.injEq, beq_iff_eq] at heval
    exact find?_some tree path (heval.1 ▸ hfind)

theorem eval_readFile_snd : (eval (readFile path) tree).2 = tree := by
  unfold readFile
  rcases stat_cases tree path with ⟨node, -, -, heval⟩ | ⟨-, error, heval⟩
  · rw [eval_bind_ok heval]
    cases node <;> rfl
  · rw [eval_bind_error heval]

/-- What is read is what the file there holds. -/
theorem readFile_ok {contents : Bytes} {after : FileTree}
    (heval : eval (readFile path) tree = (.ok contents, after)) :
    tree.Reachable path ∧
      ∃ mode, tree.node? (path.normal tree.here) = some (.file contents mode) := by
  unfold readFile at heval
  rcases stat_cases tree path with ⟨node, hreach, hnode, hstat⟩ | ⟨-, error, hstat⟩
  · rw [eval_bind_ok hstat] at heval
    cases node with
    | directory => cases heval
    | file found mode =>
      obtain ⟨⟨⟩, -⟩ := Prod.ext_iff.mp heval
      exact ⟨hreach, mode, hnode⟩
  · rw [eval_bind_error hstat] at heval
    cases heval

variable {tree path} in
theorem Reachable.eval_readFile (hreach : tree.Reachable path) {contents : Bytes} {mode : Nat}
    (hnode : tree.node? (path.normal tree.here) = some (.file contents mode)) :
    eval (readFile path) tree = (.ok contents, tree) := by
  unfold readFile
  rcases stat_cases tree path with ⟨node, -, hfound, hstat⟩ | ⟨hnone, -⟩
  · obtain rfl : node = .file contents mode := Option.some.inj (hfound.symm.trans hnode)
    rw [eval_bind_ok hstat]
    rfl
  · simp [hnone hreach] at hnode

/-- Reading the file at `path` gives `contents`. -/
def Holds (contents : Bytes) : Prop :=
  (eval (readFile path) tree).1 = .ok contents

instance (contents : Bytes) : Decidable (tree.Holds path contents) :=
  inferInstanceAs (Decidable (_ = _))

section Holds

variable {tree path} {contents : Bytes}

theorem holds_iff :
    tree.Holds path contents ↔
      tree.Reachable path ∧ ∃ mode, tree.node? (path.normal tree.here) = some (.file contents mode) := by
  constructor
  · intro hholds
    exact readFile_ok tree path (Prod.ext hholds rfl)
  · rintro ⟨hreach, mode, hnode⟩
    exact congrArg Prod.fst (hreach.eval_readFile hnode)

theorem Holds.eval_readFile (hholds : tree.Holds path contents) :
    eval (readFile path) tree = (.ok contents, tree) :=
  Prod.ext hholds (eval_readFile_snd tree path)

theorem Holds.unique {others : Bytes} (hholds : tree.Holds path contents)
    (hothers : tree.Holds path others) : contents = others :=
  Except.ok.inj (hholds.symm.trans hothers)

/-- A file that was neither written nor removed is read as before. -/
theorem Holds.change {footprint : Footprint} {after : FileTree}
    (hchange : Change footprint tree after) (hwritten : path.normal tree.here ∉ footprint.written)
    (hremoved : path.normal tree.here ∉ footprint.removed) (hholds : tree.Holds path contents) :
    after.Holds path contents := by
  obtain ⟨hreach, mode, hnode⟩ := holds_iff.mp hholds
  refine holds_iff.mpr ⟨hchange.reachable hreach, mode, ?_⟩
  rw [hchange.here]
  exact hchange.node?_file hwritten hremoved hnode

end Holds

/-- A path is told to lead to a file exactly if one can be read there. -/
theorem isFile_cases :
    ((∃ contents, tree.Holds path contents) ∧ eval (isFile path) tree = (.ok true, tree)) ∨
      ((∀ contents, ¬tree.Holds path contents) ∧
        (eval (isFile path) tree = (.ok false, tree) ∨
          ∃ error, eval (isFile path) tree = (.error error, tree))) := by
  have hsame := eval_find?_snd tree path
  unfold isFile
  rw [eval_bind]
  rcases stat_cases tree path with ⟨node, hreach, hnode, hstat⟩ | ⟨hnone, error, hstat⟩
  · have hfind : eval (find? path) tree = (.ok (some node), tree) := by
      have hrun : (stat path).run tree = (.ok node, tree) := hstat
      unfold find?
      rw [eval_bind_ok (Action.eval_get tree)]
      simp [hrun]
    rw [hfind]
    cases node with
    | directory =>
      refine .inr ⟨fun contents hholds => ?_, .inl rfl⟩
      obtain ⟨-, mode, hfile⟩ := holds_iff.mp hholds
      simp [hnode] at hfile
    | file contents mode => exact .inl ⟨⟨contents, holds_iff.mpr ⟨hreach, mode, hnode⟩⟩, rfl⟩
  · have hnot : ∀ contents, ¬tree.Holds path contents := by
      intro contents hholds
      obtain ⟨hreach, mode, hfile⟩ := holds_iff.mp hholds
      simp [hnone hreach] at hfile
    refine .inr ⟨hnot, ?_⟩
    rcases hfind : eval (find? path) tree with ⟨error | _ | node, after⟩ <;> rw [hfind] at hsame <;>
      obtain rfl : after = tree := hsame
    · exact .inr ⟨error, rfl⟩
    · exact .inl rfl
    · obtain ⟨hreach, hnode⟩ := find?_some _ path hfind
      simp [hnone hreach] at hnode

theorem eval_resolve_snd : (eval (resolve path) tree).2 = tree := by
  unfold resolve
  cases hasNull path <;> simp

variable {path} in
theorem eval_resolve (hnull : hasNull path = false) :
    eval (resolve path) tree = (.ok (.ofLocation (path.normal tree.here)), tree) := by
  simp only [resolve, hnull, Bool.false_eq_true, if_false, eval_bind, Action.eval_get,
    Action.eval_pure]

variable {path} in
theorem eval_resolve_null (hnull : hasNull path = true) :
    eval (resolve path) tree = (.error .nullByte, tree) := by
  simp only [resolve, hnull, if_true, eval_bind, Action.eval_throw]

theorem resolve_ok {found : Path} {after : FileTree}
    (heval : eval (resolve path) tree = (.ok found, after)) :
    found = .ofLocation (path.normal tree.here) := by
  unfold resolve at heval
  cases hnull : hasNull path with
  | true => simp [hnull] at heval
  | false =>
    simp only [hnull, Bool.false_eq_true, if_false, eval_bind, Action.eval_get, Action.eval_pure,
      Prod.mk.injEq, Except.ok.injEq] at heval
    exact heval.1.symm

/-! ### Writing -/

/-- Where a file may be written: no directory is there, and there is one above. -/
def Writable (location : Location) : Prop :=
  tree.node? location ≠ some .directory ∧
    (tree.node? location = none → tree.node? location.dropLast = some .directory)

/-- What a file held and its mode, or that there is none. -/
def opened : Option Node → Bytes × Option Nat
  | some (.file contents mode) => (contents, some mode)
  | _ => ([], none)

theorem opening_cases :
    (tree.Reachable path ∧ tree.Writable (path.normal tree.here) ∧
      eval (opening path) tree =
        (.ok (path.normal tree.here, opened (tree.node? (path.normal tree.here))), tree)) ∨
      (¬(tree.Reachable path ∧ tree.Writable (path.normal tree.here)) ∧
        ∃ error, eval (opening path) tree = (.error error, tree)) := by
  unfold opening Writable
  rcases eval_locating tree path with ⟨hreach, heval⟩ | ⟨hnot, error, heval⟩
  · rw [eval_bind_ok heval, Action.eval_bind_ok (Action.eval_get tree)]
    rcases hnode : tree.node? (path.normal tree.here) with _ | ⟨_ | ⟨contents, mode⟩⟩
    · by_cases hparent : tree.isDirectoryAt (path.normal tree.here).dropLast = true
      · refine .inl ⟨hreach, ⟨by simp, fun _ => isDirectoryAt_iff.mp hparent⟩, ?_⟩
        simp [hparent, opened]
      · refine .inr ⟨fun hwrite => hparent (isDirectoryAt_iff.mpr (hwrite.2.2 rfl)), ?_⟩
        simp [hparent, fail]
    · exact .inr ⟨fun hwrite => hwrite.2.1 rfl, _, rfl⟩
    · exact .inl ⟨hreach, ⟨by simp, by simp⟩, rfl⟩
  · exact .inr ⟨fun hwrite => hnot hwrite.1, error, eval_bind_error heval⟩

theorem writeFile_cases (contents : Bytes) :
    (tree.Reachable path ∧ tree.Writable (path.normal tree.here) ∧
      ∃ mode, eval (writeFile path contents) tree =
        (.ok (), tree.put (path.normal tree.here) (.file contents mode))) ∨
      (¬(tree.Reachable path ∧ tree.Writable (path.normal tree.here)) ∧
        ∃ error, eval (writeFile path contents) tree = (.error error, tree)) := by
  unfold writeFile
  rcases opening_cases tree path with ⟨hreach, hwrite, heval⟩ | ⟨hnot, error, heval⟩
  · exact .inl ⟨hreach, hwrite, _, eval_bind_ok heval⟩
  · exact .inr ⟨hnot, error, eval_bind_error heval⟩

variable {tree path} in
theorem of_eval_writeFile_ok {contents : Bytes} {value : Unit} {after : FileTree}
    (heval : eval (writeFile path contents) tree = (.ok value, after)) :
    ∃ mode, after.node? (path.normal tree.here) = some (.file contents mode) ∧
      after.here = tree.here := by
  rcases writeFile_cases tree path contents with ⟨-, hwrite, mode, hput⟩ | ⟨-, error, herror⟩
  · obtain rfl : tree.put (path.normal tree.here) (.file contents mode) = after :=
      congrArg Prod.snd (hput.symm.trans heval)
    have hroot : path.normal tree.here ≠ [] := fun heq => hwrite.1 (by rw [heq, node?_root])
    exact ⟨mode, by simp [node?_put, hroot], rfl⟩
  · cases herror.symm.trans heval

theorem appendFile_cases (contents : Bytes) :
    (tree.Reachable path ∧ tree.Writable (path.normal tree.here) ∧
      ∃ whole mode, eval (appendFile path contents) tree =
        (.ok (), tree.put (path.normal tree.here) (.file whole mode))) ∨
      (¬(tree.Reachable path ∧ tree.Writable (path.normal tree.here)) ∧
        ∃ error, eval (appendFile path contents) tree = (.error error, tree)) := by
  unfold appendFile
  rcases opening_cases tree path with ⟨hreach, hwrite, heval⟩ | ⟨hnot, error, heval⟩
  · exact .inl ⟨hreach, hwrite, _, _, eval_bind_ok heval⟩
  · exact .inr ⟨hnot, error, eval_bind_error heval⟩

section Opened

variable {tree path} (hreach : tree.Reachable path) {before : Bytes} {mode : Nat}
  (hnode : tree.node? (path.normal tree.here) = some (.file before mode))

include hreach hnode

theorem Reachable.eval_opening :
    eval (opening path) tree = (.ok (path.normal tree.here, before, some mode), tree) := by
  unfold opening
  rw [eval_bind_ok hreach.eval_locating, Action.eval_bind_ok (Action.eval_get tree), hnode]
  rfl

/-- A file that is there is written over and keeps its mode. -/
theorem Reachable.eval_writeFile (contents : Bytes) :
    eval (writeFile path contents) tree =
      (.ok (), tree.put (path.normal tree.here) (.file contents mode)) := by
  unfold writeFile
  rw [eval_bind_ok (hreach.eval_opening hnode)]
  rfl

/-- A file that is there goes on with what is appended. -/
theorem Reachable.eval_appendFile (contents : Bytes) :
    eval (appendFile path contents) tree =
      (.ok (), tree.put (path.normal tree.here) (.file (before ++ contents) mode)) := by
  unfold appendFile
  rw [eval_bind_ok (hreach.eval_opening hnode)]
  rfl

/-- A file that is there gets another mode and keeps what it holds. -/
theorem Reachable.eval_setMode (other : Nat) :
    eval (setMode path other) tree =
      (.ok (), tree.put (path.normal tree.here) (.file before other)) := by
  unfold setMode
  rw [eval_bind_ok hreach.eval_locating, Action.eval_bind_ok (Action.eval_get tree), hnode]
  rfl

end Opened

variable {tree path} in
/-- A file that is not there is made with what is appended to it. -/
theorem Reachable.eval_appendFile_new (hreach : tree.Reachable path)
    (hnone : tree.node? (path.normal tree.here) = none)
    (hdirectory : tree.node? (path.normal tree.here).dropLast = some .directory)
    (contents : Bytes) : eval (appendFile path contents) tree =
      (.ok (), tree.put (path.normal tree.here) (.file contents defaultMode)) := by
  have hopening : eval (opening path) tree = (.ok (path.normal tree.here, [], none), tree) := by
    unfold opening
    rw [eval_bind_ok hreach.eval_locating, Action.eval_bind_ok (Action.eval_get tree), hnone]
    simp [isDirectoryAt, hdirectory]
  unfold appendFile
  rw [eval_bind_ok hopening]
  rfl

theorem setMode_cases (mode : Nat) :
    (∃ result, eval (setMode path mode) tree = (result, tree)) ∨
      ∃ contents before, tree.node? (path.normal tree.here) = some (.file contents before) ∧
        eval (setMode path mode) tree =
          (.ok (), tree.put (path.normal tree.here) (.file contents mode)) := by
  unfold setMode
  rcases eval_locating tree path with ⟨hreach, heval⟩ | ⟨hnot, error, heval⟩
  · rw [eval_bind_ok heval, Action.eval_bind_ok (Action.eval_get tree)]
    rcases hnode : tree.node? (path.normal tree.here) with _ | ⟨_ | ⟨contents, before⟩⟩
    · exact .inl ⟨_, rfl⟩
    · exact .inl ⟨_, rfl⟩
    · exact .inr ⟨contents, before, rfl, rfl⟩
  · exact .inl ⟨_, eval_bind_error heval⟩

theorem unlink_cases :
    (tree.Reachable path ∧ (∃ contents mode,
        tree.node? (path.normal tree.here) = some (.file contents mode)) ∧
      eval (unlink path) tree = (.ok (), tree.erase (path.normal tree.here))) ∨
      (¬(tree.Reachable path ∧ ∃ contents mode,
          tree.node? (path.normal tree.here) = some (.file contents mode)) ∧
        ∃ error, eval (unlink path) tree = (.error error, tree)) := by
  unfold unlink
  rcases eval_locating tree path with ⟨hreach, heval⟩ | ⟨hnot, error, heval⟩
  · rw [eval_bind_ok heval, Action.eval_bind_ok (Action.eval_get tree)]
    rcases hnode : tree.node? (path.normal tree.here) with _ | ⟨_ | ⟨contents, mode⟩⟩
    · exact .inr ⟨by simp, _, rfl⟩
    · exact .inr ⟨by simp, _, rfl⟩
    · exact .inl ⟨hreach, ⟨contents, mode, rfl⟩, rfl⟩
  · exact .inr ⟨fun hfile => hnot hfile.1, error, eval_bind_error heval⟩

/-- Discarding a file erases it, if the path leads to one. -/
theorem discard_cases :
    (tree.Reachable path ∧ (∃ contents mode,
        tree.node? (path.normal tree.here) = some (.file contents mode)) ∧
      (eval (discard path) tree).2 = tree.erase (path.normal tree.here)) ∨
      (¬(tree.Reachable path ∧ ∃ contents mode,
          tree.node? (path.normal tree.here) = some (.file contents mode)) ∧
        (eval (discard path) tree).2 = tree) := by
  unfold discard
  rw [Action.eval_tryCatch]
  rcases unlink_cases tree path with ⟨hreach, hfile, heval⟩ | ⟨hnot, error, heval⟩
  · exact .inl ⟨hreach, hfile, by rw [heval]⟩
  · exact .inr ⟨hnot, by rw [heval]; rfl⟩

/-- Nothing can be read where a file was discarded. -/
theorem not_holds_discard (contents : Bytes) : ¬(eval (discard path) tree).2.Holds path contents := by
  intro hholds
  obtain ⟨hreach, mode, hnode⟩ := holds_iff.mp hholds
  rcases discard_cases tree path with ⟨-, -, heval⟩ | ⟨hnot, heval⟩ <;> rw [heval] at hreach hnode
  · rw [here_erase, node?_erase] at hnode
    split at hnode <;> simp at hnode
  · exact hnot ⟨hreach, contents, mode, hnode⟩

/-- A file is moved to a place where a file may be, named by more than double dots. -/
theorem rename_cases (target : Path) :
    (∃ contents mode, tree.Reachable path ∧ tree.Reachable target ∧
      endsInDots target = false ∧
      tree.node? (path.normal tree.here) = some (.file contents mode) ∧
      tree.Writable (target.normal tree.here) ∧
      eval (rename path target) tree =
        (.ok (), (tree.erase (path.normal tree.here)).put (target.normal tree.here)
          (.file contents mode))) ∨
      ∃ error, eval (rename path target) tree = (.error error, tree) := by
  unfold rename
  by_cases hnull : (hasNull path || hasNull target) = true
  · exact .inr ⟨.nullByte, by simp [hnull]⟩
  simp only [Bool.or_eq_true, not_or, Bool.not_eq_true] at hnull
  rcases hpath : tree.locate path with code | source
  · exact .inr ⟨_, by simp [hnull, eval_bind, hpath]; rfl⟩
  rcases htarget : tree.locate target with code | place
  · exact .inr ⟨_, by simp [hnull, eval_bind, hpath, htarget]; rfl⟩
  obtain ⟨hreach, rfl⟩ := Reachable.of_locate hnull.1 hpath
  obtain ⟨htargetReach, rfl⟩ := Reachable.of_locate hnull.2 htarget
  by_cases hdots : endsInDots target = true
  · exact .inr ⟨_, by simp [hnull, eval_bind, hpath, htarget, hdots]; rfl⟩
  rw [Bool.not_eq_true] at hdots
  rcases hnode : tree.node? (path.normal tree.here) with _ | ⟨_ | ⟨contents, mode⟩⟩
  · exact .inr ⟨_, by simp [hnull, eval_bind, hpath, htarget, hdots, hnode]; rfl⟩
  · exact .inr ⟨_, by simp [hnull, eval_bind, hpath, htarget, hdots, hnode]; rfl⟩
  rcases hplace : tree.node? (target.normal tree.here) with _ | ⟨_ | ⟨contents', mode'⟩⟩
  · by_cases hparent : tree.isDirectoryAt (target.normal tree.here).dropLast = true
    · refine .inl ⟨contents, mode, hreach, htargetReach, hdots, rfl, ⟨by simp [hplace], ?_⟩, ?_⟩
      · exact fun _ => isDirectoryAt_iff.mp hparent
      · simp [hnull, eval_bind, hpath, htarget, hdots, hnode, hplace, hparent]
    · exact .inr ⟨_, by
        simp [hnull, eval_bind, hpath, htarget, hdots, hnode, hplace, hparent]; rfl⟩
  · exact .inr ⟨_, by simp [hnull, eval_bind, hpath, htarget, hdots, hnode, hplace]; rfl⟩
  · refine .inl ⟨contents, mode, hreach, htargetReach, hdots, rfl, ⟨by simp [hplace], ?_⟩, ?_⟩
    · simp [hplace]
    · simp [hnull, eval_bind, hpath, htarget, hdots, hnode, hplace]

variable {tree path} in
/-- A file is moved to a place where a file may be. -/
theorem Reachable.eval_rename {target : Path} (hreach : tree.Reachable path)
    (htarget : tree.Reachable target) (hdots : endsInDots target = false) {contents : Bytes}
    {mode : Nat} (hnode : tree.node? (path.normal tree.here) = some (.file contents mode))
    (hwrite : tree.Writable (target.normal tree.here)) :
    eval (rename path target) tree =
      (.ok (), (tree.erase (path.normal tree.here)).put (target.normal tree.here)
        (.file contents mode)) := by
  unfold rename
  rcases hplace : tree.node? (target.normal tree.here) with _ | ⟨_ | ⟨contents', mode'⟩⟩
  · have hparent := isDirectoryAt_iff.mpr (hwrite.2 hplace)
    simp [hreach.noNull, htarget.noNull, eval_bind, hreach.locate, htarget.locate, hdots, hnode,
      hplace, hparent]
  · exact absurd hplace hwrite.1
  · simp [hreach.noNull, htarget.noNull, eval_bind, hreach.locate, htarget.locate, hdots, hnode,
      hplace]

theorem writeFile_change (contents : Bytes) :
    Change { written := {path.normal tree.here} } tree (eval (writeFile path contents) tree).2 := by
  rcases writeFile_cases tree path contents with ⟨-, hwrite, mode, heval⟩ | ⟨-, error, heval⟩
  · rw [heval]
    exact Change.putFile hwrite.1
  · rw [heval]
    exact Change.refl _ _

theorem appendFile_change (contents : Bytes) :
    Change { written := {path.normal tree.here} } tree
      (eval (appendFile path contents) tree).2 := by
  rcases appendFile_cases tree path contents with ⟨-, hwrite, whole, mode, heval⟩ | ⟨-, error, heval⟩
  · rw [heval]
    exact Change.putFile hwrite.1
  · rw [heval]
    exact Change.refl _ _

theorem setMode_change (mode : Nat) :
    Change { written := {path.normal tree.here} } tree (eval (setMode path mode) tree).2 := by
  rcases setMode_cases tree path mode with ⟨result, heval⟩ | ⟨contents, before, hnode, heval⟩
  · rw [heval]
    exact Change.refl _ _
  · rw [heval]
    exact Change.putFile (by simp [hnode])

theorem discard_change :
    Change { removed := {path.normal tree.here} } tree (eval (discard path) tree).2 := by
  rcases discard_cases tree path with ⟨-, ⟨contents, mode, hnode⟩, heval⟩ | ⟨-, heval⟩
  · rw [heval]
    exact Change.erase (by simp [hnode])
  · rw [heval]
    exact Change.refl _ _

theorem rename_change (target : Path) :
    Change { written := {target.normal tree.here}, removed := {path.normal tree.here} } tree
      (eval (rename path target) tree).2 := by
  rcases rename_cases tree path target with
    ⟨contents, mode, -, -, -, hnode, hwrite, heval⟩ | ⟨error, heval⟩
  · rw [heval]
    have herase := Change.erase (show tree.node? (path.normal tree.here) ≠ some .directory by
      simp [hnode])
    have htarget : (tree.erase (path.normal tree.here)).node? (target.normal tree.here) ≠
        some .directory := by
      rw [node?_erase]
      split
      · rename_i hroot
        simp [hroot, Writable] at hwrite
      · split
        · simp
        · exact hwrite.1
    refine (herase.mono ?_).trans ((Change.putFile htarget).mono ?_)
    · exact ⟨Set.empty_subset _, Set.empty_subset _, subset_rfl⟩
    · exact ⟨Set.empty_subset _, subset_rfl, Set.empty_subset _⟩
  · rw [heval]
    exact Change.refl _ _

variable {tree path} in
/-- A target that something was moved to can be asked for. -/
theorem Reachable.of_rename {target : Path} {after : FileTree}
    (heval : eval (rename path target) tree = (.ok (), after)) : after.Reachable target := by
  have hchange := rename_change tree path target
  rw [heval] at hchange
  rcases rename_cases tree path target with ⟨-, -, -, htarget, -⟩ | ⟨error, hfailed⟩
  · exact hchange.reachable htarget
  · simp [heval] at hfailed

/-! ### Directories -/

theorem makeDirectory_cases :
    (tree.Reachable path ∧ tree.node? (path.normal tree.here) = none ∧
      eval (makeDirectory path) tree =
        (.ok (), tree.put (path.normal tree.here) .directory)) ∨
      ∃ error, eval (makeDirectory path) tree = (.error error, tree) := by
  unfold makeDirectory
  rcases eval_locating tree path with ⟨hreach, heval⟩ | ⟨hnot, error, heval⟩
  · rw [eval_bind_ok heval, Action.eval_bind_ok (Action.eval_get tree)]
    cases hnode : tree.node? (path.normal tree.here) with
    | none =>
      by_cases hparent : tree.isDirectoryAt (path.normal tree.here).dropLast = true
      · exact .inl ⟨hreach, rfl, by simp [hparent]⟩
      · exact .inr ⟨_, by simp [hparent]; rfl⟩
    | some node => exact .inr ⟨_, rfl⟩
  · exact .inr ⟨error, eval_bind_error heval⟩

/-- Where a directory was asked for there is one in the end. -/
structure HasDirectory : Prop where
  reachable : tree.Reachable path
  node : tree.node? (path.normal tree.here) = some .directory

variable {tree path}

theorem HasDirectory.mono {footprint : Footprint} {after : FileTree}
    (hdirectory : tree.HasDirectory path) (hchange : Change footprint tree after) :
    after.HasDirectory path :=
  ⟨hchange.reachable hdirectory.reachable, by
    rw [hchange.here]; exact hchange.directory _ hdirectory.node⟩

/-- Only the directories that a path passes need to stay. -/
theorem HasDirectory.of_trail {after : FileTree} (hdirectory : tree.HasDirectory path)
    (hhere : after.here = tree.here)
    (hkept : ∀ location ∈ path.trail tree.here, tree.node? location = some .directory →
      after.node? location = some .directory) :
    after.HasDirectory path := by
  refine ⟨⟨hdirectory.reachable.noNull, hdirectory.reachable.length, ?_⟩, ?_⟩
  · rw [hhere]
    exact hdirectory.reachable.passable.mono_trail fun front back hparts =>
      hkept _ ⟨front, back, hparts, rfl⟩
  · rw [hhere]
    exact hkept _ (path.normal_mem_trail tree.here) hdirectory.node

/-- All that a path passes are directories if it leads to one. -/
theorem HasDirectory.node_of_mem_trail (hdirectory : tree.HasDirectory path) {location : Location}
    (hlocation : location ∈ path.trail tree.here) : tree.node? location = some .directory := by
  obtain ⟨front, back, hparts, rfl⟩ := hlocation
  have hpassable := hdirectory.reachable.passable
  cases back with
  | nil =>
    rw [List.append_nil] at hparts
    exact hparts ▸ hdirectory.node
  | cons part rest =>
    rw [hparts] at hpassable
    exact (Passable.append.mp hpassable).2.1

section Change

variable {written removed : Set Location} {after : FileTree} {location : Location}
  (hdirectory : tree.HasDirectory path)
  (hchange : Change { made := path.trail tree.here, written, removed } tree after)

include hdirectory hchange

/-- Where a directory is, making it makes no other. -/
theorem HasDirectory.notMade (hnode : after.node? location = some .directory) :
    tree.node? location = some .directory := by
  by_cases hmem : location ∈ path.trail tree.here
  · exact hdirectory.node_of_mem_trail hmem
  · exact hchange.notMade location hmem hnode

theorem HasDirectory.node?_eq (hwritten : location ∉ written) (hremoved : location ∉ removed) :
    after.node? location = tree.node? location := by
  rcases hchange.same_or_made hwritten hremoved with hsame | ⟨hmade, hnone, -⟩
  · exact hsame
  · simp [hdirectory.node_of_mem_trail hmade] at hnone

end Change

variable (tree path)

theorem ensureDirectory_spec :
    Change { made := {path.normal tree.here} } tree (eval (ensureDirectory path) tree).2 ∧
      ((eval (ensureDirectory path) tree).1 = .ok () →
        (eval (ensureDirectory path) tree).2.HasDirectory path) := by
  unfold ensureDirectory
  rw [Action.eval_bind_ok (Action.eval_get tree)]
  rcases makeDirectory_cases tree path with ⟨hreach, hnone, heval⟩ | ⟨error, heval⟩
  · have hrun : (makeDirectory path).run tree =
        (.ok (), tree.put (path.normal tree.here) .directory) := heval
    have hchange := Change.putDirectory hnone
    simp only [hrun, Action.eval_set]
    refine ⟨hchange, fun _ => ⟨hchange.reachable hreach, ?_⟩⟩
    rw [here_put, node?_put]
    split <;> simp
  · have hrun : (makeDirectory path).run tree = (.error error, tree) := heval
    rcases error with error | _
    · simp only [hrun]
      by_cases hcode : error.code = .noEntry
      · simp [hcode, Change.refl]
      · have hsame := eval_isDirectory_snd tree path
        rw [if_neg hcode, eval_bind]
        rcases hfind : eval (isDirectory path) tree with ⟨error | found, after⟩
        · rw [hfind] at hsame
          simp only at hsame ⊢
          exact ⟨hsame ▸ Change.refl _ _, by simp⟩
        · rw [hfind] at hsame
          simp only at hsame
          subst hsame
          cases found with
          | false => exact ⟨Change.refl _ _, by simp⟩
          | true =>
            obtain ⟨hreach, hnode⟩ := isDirectory_true _ path hfind
            exact ⟨Change.refl _ _, fun _ => ⟨hreach, hnode⟩⟩
    · simp [hrun, Change.refl]

theorem made_normal_le (here : Location) (path : Path) :
    ({ made := {path.normal here} } : Footprint) ≤ { made := path.trail here } :=
  ⟨Set.singleton_subset_iff.mpr (path.normal_mem_trail here), subset_rfl, subset_rfl⟩

theorem made_trail_parent_le (here : Location) (path : Path) :
    ({ made := path.parent.trail here } : Footprint) ≤ { made := path.trail here } :=
  ⟨path.trail_parent_subset here, subset_rfl, subset_rfl⟩

theorem ensureChain_spec (depth : Nat) :
    Change { made := path.trail tree.here } tree (eval (ensureChain depth path) tree).2 ∧
      ((eval (ensureChain depth path) tree).1 = .ok () →
        (eval (ensureChain depth path) tree).2.HasDirectory path) := by
  induction depth generalizing tree path with
  | zero =>
    obtain ⟨hchange, hmade⟩ := ensureDirectory_spec tree path
    exact ⟨hchange.mono (made_normal_le _ _), hmade⟩
  | succ depth ih =>
    unfold ensureChain
    rw [Action.eval_bind_ok (Action.eval_get tree)]
    obtain ⟨hchange, hmade⟩ := ensureDirectory_spec tree path
    rcases heval : eval (ensureDirectory path) tree with ⟨error | value, after⟩
    · have hrun : (ensureDirectory path).run tree = (.error error, after) := heval
      rcases error with error | _
      · simp only [hrun]
        by_cases hcode : error.code = .noEntry
        · rw [if_pos hcode, eval_bind]
          have habove := (ih tree path.parent).1.mono (made_trail_parent_le tree.here path)
          rcases hchain : eval (ensureChain depth path.parent) tree with ⟨error | value, middle⟩
          · rw [hchain] at habove
            exact ⟨habove, by simp⟩
          · rw [hchain] at habove
            obtain ⟨hlast, hmade⟩ := ensureDirectory_spec middle path
            have hlast := hlast.mono (made_normal_le _ _)
            rw [habove.here] at hlast
            exact ⟨habove.trans hlast, hmade⟩
        · simp [hcode, Change.refl]
      · simp [hrun, Change.refl]
    · have hrun : (ensureDirectory path).run tree = (.ok value, after) := heval
      rw [heval] at hchange hmade
      simp only [hrun, Action.eval_set]
      exact ⟨hchange.mono (made_normal_le _ _), fun _ => hmade rfl⟩

section

variable {tree path} (hdirectory : tree.HasDirectory path)

include hdirectory

theorem HasDirectory.eval_isDirectory : eval (isDirectory path) tree = (.ok true, tree) := by
  have hstat : (stat path).run tree = (.ok .directory, tree) := by
    change eval (stat path) tree = _
    unfold stat
    rw [eval_bind_ok hdirectory.reachable.eval_locating,
      Action.eval_bind_ok (Action.eval_get tree), hdirectory.node]
    rfl
  unfold isDirectory find?
  rw [eval_bind, Action.eval_bind_ok (Action.eval_get tree)]
  simp [hstat]

theorem HasDirectory.eval_ensureDirectory :
    eval (ensureDirectory path) tree = (.ok (), tree) := by
  have hmake : (makeDirectory path).run tree =
      (.error (.system ⟨.fileExists, some path.toString, none⟩), tree) := by
    change eval (makeDirectory path) tree = _
    unfold makeDirectory
    rw [eval_bind_ok hdirectory.reachable.eval_locating,
      Action.eval_bind_ok (Action.eval_get tree), hdirectory.node]
    rfl
  unfold ensureDirectory
  rw [Action.eval_bind_ok (Action.eval_get tree)]
  simp only [hmake, reduceCtorEq, if_false]
  rw [eval_bind_ok hdirectory.eval_isDirectory]
  rfl

/-- Where a directory is there is nothing to make. -/
theorem HasDirectory.eval_ensureDirectories :
    eval (ensureDirectories path) tree = (.ok (), tree) := by
  unfold ensureDirectories
  cases path.parts.length with
  | zero => exact hdirectory.eval_ensureDirectory
  | succ depth =>
    have hrun : (ensureDirectory path).run tree = (.ok (), tree) := hdirectory.eval_ensureDirectory
    unfold ensureChain
    rw [Action.eval_bind_ok (Action.eval_get tree)]
    simp only [hrun, Action.eval_set]

end

/-- Making directories changes only places that the path passes. -/
theorem ensureDirectories_spec :
    Change { made := path.trail tree.here } tree (eval (ensureDirectories path) tree).2 ∧
      ((eval (ensureDirectories path) tree).1 = .ok () →
        (eval (ensureDirectories path) tree).2.HasDirectory path) :=
  ensureChain_spec tree path path.parts.length

end JarRefinery.FileTree
