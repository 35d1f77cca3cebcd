import JarRefinery.Proofs.Files.Hidden

/-!
# Changes that are not seen

Where all that a path passes is gone or a directory, what an operation does with the path is not seen:
directories are never changed.
-/

namespace JarRefinery

namespace FileTree

open FileTree.Action (eval eval_bind eval_bind_ok eval_bind_error)

/-- The tree changed, but what is seen of it did not, and directories stayed. -/
structure Unseen (view : View) (before after : FileTree) : Prop where
  shown : view.shown after = view.shown before
  here : after.here = before.here
  directory : ∀ location, before.node? location = some .directory →
    after.node? location = some .directory
  dotless : before.Dotless → after.Dotless

namespace Unseen

variable {view : View} {before middle after tree : FileTree} {location : Location}

theorem refl (tree : FileTree) : Unseen view tree tree :=
  ⟨rfl, rfl, fun _ hnode => hnode, id⟩

theorem trans (hfirst : Unseen view before middle) (hsecond : Unseen view middle after) :
    Unseen view before after where
  shown := hsecond.shown.trans hfirst.shown
  here := hsecond.here.trans hfirst.here
  directory := fun location hnode => hsecond.directory location (hfirst.directory location hnode)
  dotless := fun hdotless => hsecond.dotless (hfirst.dotless hdotless)

theorem put (hgone : location ∈ view.gone) (hnode : tree.node? location ≠ some .directory)
    (hdots : ".." ∉ location) (node : Node) : Unseen view tree (tree.put location node) where
  shown := by
    unfold View.shown
    rw [without_put_of_mem _ _ hgone]
  here := rfl
  directory := by
    intro place hplace
    have hother : place ≠ location := fun heq => hnode (heq ▸ hplace)
    rw [node?_put, if_neg hother, hplace]
    split <;> rfl
  dotless := fun hdotless => hdotless.put hdots node

theorem erase (hgone : location ∈ view.gone) (hnode : tree.node? location ≠ some .directory) :
    Unseen view tree (tree.erase location) where
  shown := by
    unfold View.shown
    rw [without_erase_of_mem _ hgone]
  here := rfl
  directory := by
    intro place hplace
    have hother : place ≠ location := fun heq => hnode (heq ▸ hplace)
    rw [node?_erase, if_neg hother, hplace]
    split <;> rfl
  dotless := fun hdotless => hdotless.erase location

/-- What a hidden file holds is not seen. -/
theorem put_hidden (hseen : location ∉ view.gone) (hhidden : location ∈ view.hidden)
    {contents : Bytes} {mode : Nat} (hnode : tree.node? location = some (.file contents mode))
    (others : Bytes) : Unseen view tree (tree.put location (.file others mode)) where
  shown := by
    have hroot : location ≠ [] := by
      rintro rfl
      simp at hnode
    have hsame : ∀ (nodes : List (Location × Node)) (node : Node), nodes.lookup location = some node →
        setNode location node nodes = nodes := by
      intro nodes node hlookup
      induction nodes with
      | nil => simp at hlookup
      | cons entry rest ih =>
        rw [lookup_cons] at hlookup
        by_cases hplace : location = entry.1
        · rw [if_pos hplace] at hlookup
          rw [setNode, if_pos hplace.symm, hplace, ← Option.some.inj hlookup]
        · rw [if_neg hplace] at hlookup
          rw [setNode, if_neg (Ne.symm hplace), ih hlookup]
    have hveiled : ((tree.without view.gone).veiled view.hidden).node? location =
        some (veil view.hidden location (.file others mode)) := by
      rw [node?_veiled, node?_without _ hseen, hnode]
      simp [veil, hhidden, Node.blank]
    rw [node?, if_neg hroot] at hveiled
    unfold View.shown
    rw [without_put _ _ hseen, veiled_put]
    simp only [FileTree.put, hsame _ _ hveiled]
  here := rfl
  directory := by
    intro place hplace
    have hother : place ≠ location := by
      rintro rfl
      simp [hnode] at hplace
    rw [node?_put, if_neg hother, hplace]
    split <;> rfl
  dotless := fun hdotless => hdotless.put (hdotless location (by simp [hnode])) _

end Unseen

/-- All that the path passes is gone or a directory. -/
def Covered (view : View) (tree : FileTree) (path : Path) : Prop :=
  ∀ location ∈ path.trail view.here, location ∈ view.gone ∨ tree.node? location = some .directory

section Operations

variable {view : View} {tree after : FileTree} {path target : Path}

theorem Covered.later (hcovered : Covered view tree path) (hunseen : Unseen view tree after) :
    Covered view after path :=
  fun location hlocation => (hcovered location hlocation).imp_right (hunseen.directory location)

theorem Covered.parent (hcovered : Covered view tree path) : Covered view tree path.parent :=
  fun location hlocation => hcovered location (path.trail_parent_subset _ hlocation)

variable (hhere : tree.here = view.here)

include hhere

/-- Where no directory is, what is there is gone. -/
theorem Covered.normal (hcovered : Covered view tree path)
    (hnode : tree.node? (path.normal tree.here) ≠ some .directory) :
    path.normal tree.here ∈ view.gone ∧ ".." ∉ path.normal tree.here := by
  rw [hhere] at hnode ⊢
  have hgone := (hcovered _ (path.normal_mem_trail _)).resolve_right hnode
  exact ⟨hgone, Path.dots_notMem_normal (view.rooted ⟨_, hgone⟩) path⟩

theorem writeFile_unseen (hcovered : Covered view tree path) (contents : Bytes) :
    Unseen view tree (eval (writeFile path contents) tree).2 := by
  rcases writeFile_cases tree path contents with ⟨-, hwrite, mode, heval⟩ | ⟨-, error, heval⟩ <;>
    rw [heval]
  · obtain ⟨hgone, hdots⟩ := hcovered.normal hhere hwrite.1
    exact .put hgone hwrite.1 hdots _
  · exact .refl tree

theorem appendFile_unseen (hcovered : Covered view tree path) (contents : Bytes) :
    Unseen view tree (eval (appendFile path contents) tree).2 := by
  rcases appendFile_cases tree path contents with ⟨-, hwrite, whole, mode, heval⟩ | ⟨-, error, heval⟩ <;>
    rw [heval]
  · obtain ⟨hgone, hdots⟩ := hcovered.normal hhere hwrite.1
    exact .put hgone hwrite.1 hdots _
  · exact .refl tree

theorem discard_unseen (hcovered : Covered view tree path) :
    Unseen view tree (eval (discard path) tree).2 := by
  rcases discard_cases tree path with ⟨-, ⟨contents, mode, hnode⟩, heval⟩ | ⟨-, heval⟩ <;> rw [heval]
  · have hfile : tree.node? (path.normal tree.here) ≠ some .directory := by simp [hnode]
    exact .erase (hcovered.normal hhere hfile).1 hfile
  · exact .refl tree

theorem rename_unseen (hcovered : Covered view tree path) (htarget : Covered view tree target) :
    Unseen view tree (eval (rename path target) tree).2 := by
  rcases rename_cases tree path target with
    ⟨contents, mode, -, -, -, hnode, hwrite, heval⟩ | ⟨error, heval⟩ <;> rw [heval]
  · have hfile : tree.node? (path.normal tree.here) ≠ some .directory := by simp [hnode]
    obtain ⟨hgone, hdots⟩ := htarget.normal hhere hwrite.1
    have herased := Unseen.erase (hcovered.normal hhere hfile).1 hfile
    refine herased.trans (.put hgone (fun hdirectory => ?_) hdots _)
    rw [node?_erase] at hdirectory
    split at hdirectory
    · exact hwrite.1 (by rw [‹target.normal tree.here = []›, node?_root])
    split at hdirectory
    · cases hdirectory
    · exact hwrite.1 hdirectory
  · exact .refl tree

theorem makeDirectory_unseen (hcovered : Covered view tree path) :
    Unseen view tree (eval (makeDirectory path) tree).2 := by
  rcases makeDirectory_cases tree path with ⟨-, hnone, heval⟩ | ⟨error, heval⟩ <;> rw [heval]
  · have hfree : tree.node? (path.normal tree.here) ≠ some .directory := by simp [hnone]
    obtain ⟨hgone, hdots⟩ := hcovered.normal hhere hfree
    exact .put hgone hfree hdots _
  · exact .refl tree

theorem ensureDirectory_unseen (hcovered : Covered view tree path) :
    Unseen view tree (eval (ensureDirectory path) tree).2 := by
  have hmade := makeDirectory_unseen hhere hcovered
  unfold ensureDirectory
  rw [eval_bind_ok (Action.eval_get tree)]
  rcases heval : (makeDirectory path).run tree with ⟨(error | _) | value, made⟩
  · dsimp only
    split
    · exact .refl tree
    · rw [eval_bind]
      have hsame := eval_isDirectory_snd tree path
      rcases hfound : eval (isDirectory path) tree with ⟨error | found, after⟩ <;>
        (rw [hfound] at hsame; obtain rfl : after = tree := hsame)
      · exact .refl _
      · cases found <;> exact .refl _
  · exact .refl tree
  · have hafter : (eval (makeDirectory path) tree).2 = made := congrArg Prod.snd heval
    rwa [hafter] at hmade

theorem ensureChain_unseen (depth : Nat) (hcovered : Covered view tree path) :
    Unseen view tree (eval (ensureChain depth path) tree).2 := by
  induction depth generalizing path with
  | zero => exact ensureDirectory_unseen hhere hcovered
  | succ depth ih =>
    have hmade := ensureDirectory_unseen hhere hcovered
    unfold ensureChain
    rw [eval_bind_ok (Action.eval_get tree)]
    rcases heval : (ensureDirectory path).run tree with ⟨(error | _) | value, made⟩
    · dsimp only
      split
      · have habove := ih hcovered.parent
        rw [eval_bind]
        rcases hchain : eval (ensureChain depth path.parent) tree with ⟨error | value, middle⟩ <;>
          rw [hchain] at habove
        · exact habove
        · exact habove.trans (ensureDirectory_unseen (habove.here.trans hhere)
            (hcovered.later habove))
      · exact .refl tree
    · exact .refl tree
    · have hafter : (eval (ensureDirectory path) tree).2 = made := congrArg Prod.snd heval
      rwa [hafter] at hmade

theorem ensureDirectories_unseen (hcovered : Covered view tree path) :
    Unseen view tree (eval (ensureDirectories path) tree).2 :=
  ensureChain_unseen hhere _ hcovered

/-- A temporary file is not seen where all of its kind are gone that are not directories. -/
theorem newSibling_unseen (hcovered : Covered view tree target.parent)
    (hbeside : ∀ n, target.parent.normal view.here ++ [siblingName target.name n] ∈ view.gone ∨
      tree.node? (target.parent.normal view.here ++ [siblingName target.name n]) = some .directory) :
    Unseen view tree (eval (newSibling target) tree).2 := by
  have hmade := ensureDirectories_unseen hhere hcovered
  unfold newSibling
  rcases heval : eval (ensureDirectories target.parent) tree with ⟨error | value, made⟩ <;>
    rw [heval] at hmade
  · rwa [eval_bind_error heval]
  change Unseen view tree made at hmade
  rw [eval_bind_ok heval, eval_bind_ok (Action.eval_get made)]
  dsimp only
  rcases hfound : made.unusedSibling? (target.parent.normal made.here) target.name siblingTries 0 with
    _ | name
  · exact hmade
  obtain ⟨n, -, rfl, hfree⟩ := unusedSibling?_some hfound
  dsimp only
  have hbeside := (hbeside n).imp_right (hmade.directory _)
  rw [← hhere, ← hmade.here] at hbeside
  have hgone := hbeside.resolve_right (by simp [hfree])
  have hrooted : ".." ∉ made.here := by
    rw [hmade.here, hhere]
    exact view.rooted ⟨_, hgone⟩
  have hdots : ".." ∉ target.parent.normal made.here ++ [siblingName target.name n] :=
    dots_notMem_sibling (Path.dots_notMem_normal hrooted _) _ _
  rcases opening_cases made (.ofLocation (target.parent.normal made.here ++
    [siblingName target.name n])) with ⟨-, hwrite, hopen⟩ | ⟨-, error, hopen⟩
  · rw [Path.normal_ofLocation hdots] at hopen hwrite
    rw [eval_bind_ok hopen]
    exact hmade.trans (.put hgone hwrite.1 hdots _)
  · rwa [eval_bind_error hopen]

end Operations

end FileTree

end JarRefinery
