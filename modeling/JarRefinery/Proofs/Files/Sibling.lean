import JarRefinery.Proofs.Files.Operations

/-!
# Files beside their target

The temporary file of a target stands in the directory of the target, under a name that nothing in
it has and that the target does not have either.
-/

namespace JarRefinery

/-- A path that ends in a name leads to something of that name, where the path above it leads. -/
theorem Path.normal_eq_append {path : Path} (hdots : FileTree.endsInDots path = false)
    (here : Location) : path.normal here = path.parent.normal here ++ [path.name] := by
  simp only [FileTree.endsInDots, Bool.or_eq_false_iff, decide_eq_false_iff_not,
    beq_eq_false_iff_ne, ne_eq] at hdots
  obtain ⟨hnonempty, hlast⟩ := hdots
  have hparts := List.dropLast_append_getLast hnonempty
  have hname : path.name = path.parts.getLast hnonempty := by
    rw [Path.name, List.getLastD_eq_getLast?, List.getLast?_eq_some_getLast hnonempty]
    rfl
  have hproper : path.name ≠ ".." := by
    intro heq
    rw [List.getLast?_eq_some_getLast hnonempty, ← hname, heq] at hlast
    exact hlast rfl
  rw [Path.normal_eq, ← hparts, Path.walk_append, ← hname]
  exact Path.walk_eq_append (by simpa using fun heq => hproper heq.symm) _

theorem Path.dropLast_normal {path : Path} (hdots : FileTree.endsInDots path = false)
    (here : Location) : (path.normal here).dropLast = path.parent.normal here := by
  rw [Path.normal_eq_append hdots, List.dropLast_concat]

namespace FileTree

open FileTree.Action (eval eval_bind eval_bind_ok eval_bind_error)

theorem siblingName_ne_self (name : String) (n : Nat) : siblingName name n ≠ name := by
  intro heq
  have hlength := congrArg String.length heq
  simp only [siblingName, String.length_append] at hlength
  have hdot : ".".length = 1 := rfl
  omega

theorem siblingName_ne_dots (name : String) (n : Nat) : siblingName name n ≠ ".." := by
  intro heq
  have hlength := congrArg String.length heq
  simp only [siblingName, String.length_append] at hlength
  have hdot : ".".length = 1 := rfl
  have hend : ".tmp".length = 4 := rfl
  have hdots : "..".length = 2 := rfl
  omega

theorem dots_notMem_sibling {directory : Location} (hdots : ".." ∉ directory) (name : String)
    (n : Nat) : ".." ∉ directory ++ [siblingName name n] := by
  rw [List.mem_append, List.mem_singleton, not_or]
  exact ⟨hdots, (siblingName_ne_dots name n).symm⟩

theorem unusedSibling?_some {tree : FileTree} {directory : Location} {name found : String}
    {tries n : Nat} (hfound : tree.unusedSibling? directory name tries n = some found) :
    ∃ m < n + tries, found = siblingName name m ∧ tree.node? (directory ++ [found]) = none := by
  induction tries generalizing n with
  | zero => simp [unusedSibling?] at hfound
  | succ tries ih =>
    unfold unusedSibling? at hfound
    by_cases hfree : (tree.node? (directory ++ [siblingName name n])).isNone = true
    · simp only [hfree, if_true, Option.some.injEq] at hfound
      exact ⟨n, by omega, hfound.symm, by rw [← hfound]; exact Option.isNone_iff_eq_none.mp hfree⟩
    · simp only [hfree] at hfound
      obtain ⟨m, hm, hname, hnone⟩ := ih hfound
      exact ⟨m, by omega, hname, hnone⟩

/-- A place for a temporary file of `target`, in the tree `ready` where the directories above it
have been made. -/
structure Beside (target : Path) (before ready : FileTree) (sibling : Path) (place : Location) :
    Prop where
  made : Change { made := target.parent.trail before.here } before ready
  eq_place : ∃ n, place = target.parent.normal before.here ++ [siblingName target.name n]
  eq_sibling : sibling = .ofLocation place
  free : ready.node? place = none
  reachable : ready.Reachable sibling
  rooted : ".." ∉ place

namespace Beside

variable {target sibling : Path} {before ready : FileTree} {place : Location}

theorem normal (hbeside : Beside target before ready sibling place) (here : Location) :
    sibling.normal here = place := by
  rw [hbeside.eq_sibling]
  exact Path.normal_ofLocation hbeside.rooted here

theorem free_before (hbeside : Beside target before ready sibling place) :
    before.node? place = none := by
  rcases hnode : before.node? place with _ | ⟨_ | ⟨contents, mode⟩⟩
  · rfl
  · simpa [hbeside.free] using hbeside.made.directory place hnode
  · simpa [hbeside.free] using hbeside.made.file place contents mode id hnode

/-- A target that is named is not its own temporary file. -/
theorem place_ne_target (hbeside : Beside target before ready sibling place)
    (hdots : endsInDots target = false) : place ≠ target.normal before.here := by
  obtain ⟨n, hplace⟩ := hbeside.eq_place
  rw [hplace, Path.normal_eq_append hdots]
  intro heq
  exact siblingName_ne_self target.name n (by simpa using heq)

theorem place_ne_root (hbeside : Beside target before ready sibling place) : place ≠ [] := by
  obtain ⟨n, hplace⟩ := hbeside.eq_place
  simp [hplace]

/-- Making the temporary file changes no other place. -/
theorem put (hbeside : Beside target before ready sibling place) (contents : Bytes) (mode : Nat) :
    Change { written := {place} } ready (ready.put place (.file contents mode)) :=
  .putFile (by simp [hbeside.free])

/-- The temporary file is no file that was there, and those stay what they were. -/
theorem node?_file (hbeside : Beside target before ready sibling place) {location : Location}
    {contents : Bytes} {mode : Nat}
    (hnode : before.node? location = some (.file contents mode)) :
    (ready.put place (.file [] 0o600)).node? location = some (.file contents mode) := by
  have hother : location ≠ place := by
    intro heq
    simp [heq, hbeside.free_before] at hnode
  have hkept := hbeside.made.node?_file (Set.notMem_empty _) (Set.notMem_empty _) hnode
  exact (hbeside.put [] 0o600).node?_file (by simpa using hother) (Set.notMem_empty _) hkept

theorem holds (hbeside : Beside target before ready sibling place) {path : Path} {contents : Bytes}
    (hholds : before.Holds path contents) :
    (ready.put place (.file [] 0o600)).Holds path contents := by
  obtain ⟨hreach, mode, hnode⟩ := holds_iff.mp hholds
  refine holds_iff.mpr
    ⟨(hbeside.put [] 0o600).reachable (hbeside.made.reachable hreach), mode, ?_⟩
  rw [here_put, hbeside.made.here]
  exact hbeside.node?_file hnode

variable {contents : Bytes} {mode : Nat} {filled after : FileTree}

/-- Making the temporary file and writing to it, seen from the time before. -/
theorem written (hbeside : Beside target before ready sibling place)
    (hfilled : Change { written := {place} } (ready.put place (.file contents mode)) filled) :
    Change { made := target.parent.trail before.here, written := {place}, removed := {place} }
        before filled ∧
      filled.Reachable sibling ∧
      ∃ contents mode, filled.node? place = some (.file contents mode) := by
  have hput := hbeside.put contents mode
  have hnode : (ready.put place (.file contents mode)).node? place = some (.file contents mode) := by
    simp [node?_put, hbeside.place_ne_root]
  refine ⟨?_, hfilled.reachable (hput.reachable hbeside.reachable),
    hfilled.file place contents mode id hnode⟩
  refine Change.trans (hbeside.made.mono ?_) ((hput.trans hfilled).mono ?_)
  · exact ⟨subset_rfl, Set.empty_subset _, Set.empty_subset _⟩
  · exact ⟨Set.empty_subset _, subset_rfl, Set.empty_subset _⟩

/-- The temporary file is there before anything is written to it. -/
theorem put_again (hbeside : Beside target before ready sibling place) :
    ready.put place (.file contents mode) = (ready.put place (.file contents mode)).put
      (sibling.normal (ready.put place (.file contents mode)).here) (.file contents mode) := by
  rw [hbeside.normal, put_put]

/-- The temporary file can be found, whatever it holds. -/
theorem found (hbeside : Beside target before ready sibling place) (contents : Bytes) (mode : Nat) :
    (ready.put place (.file contents mode)).Reachable sibling ∧
      (ready.put place (.file contents mode)).node?
        (sibling.normal (ready.put place (.file contents mode)).here) = some (.file contents mode) := by
  refine ⟨(hbeside.put contents mode).reachable hbeside.reachable, ?_⟩
  rw [hbeside.normal, node?_put, if_neg hbeside.place_ne_root, if_pos rfl]

/-- The temporary file can be written again, whatever it holds. -/
theorem writable (hbeside : Beside target before ready sibling place)
    (hfilled : Change { written := {place} } (ready.put place (.file contents mode)) filled) :
    filled.Reachable sibling ∧ filled.Writable (sibling.normal filled.here) := by
  obtain ⟨-, hreach, contents', mode', hplace⟩ := hbeside.written hfilled
  rw [hbeside.normal]
  exact ⟨hreach, by simp [hplace], by simp [hplace]⟩

/-- Discarded, the temporary file leaves no trace but the directories above it. -/
theorem discarded (hbeside : Beside target before ready sibling place)
    (hfilled : Change { written := {place} } (ready.put place (.file contents mode)) filled) :
    Change { made := target.parent.trail before.here } before (eval (discard sibling) filled).2 := by
  obtain ⟨hchange, hreach, hfile⟩ := hbeside.written hfilled
  rcases discard_cases filled sibling with ⟨-, -, heval⟩ | ⟨hnot, -⟩
  · rw [hbeside.normal] at heval
    rw [heval]
    obtain ⟨contents', mode', hnode⟩ := hfile
    have herase := Change.erase (show filled.node? place ≠ some .directory by simp [hnode])
    refine Change.forget hbeside.free_before ?_ ((hchange.trans (herase.mono ?_)).mono ?_)
    · simp [node?_erase, hbeside.place_ne_root]
    · exact ⟨Set.empty_subset _, Set.empty_subset _, subset_rfl⟩
    · exact ⟨subset_rfl, by simp, by simp⟩
  · rw [hbeside.normal] at hnot
    exact absurd ⟨hreach, hfile⟩ hnot

/-- Moved to the target, it replaces that and is gone itself. -/
theorem moved (hbeside : Beside target before ready sibling place)
    (hfilled : Change { written := {place} } (ready.put place (.file contents mode)) filled)
    (hmoved : eval (rename sibling target) filled = (.ok (), after)) :
    Change { made := target.parent.trail before.here, written := {target.normal before.here} }
        before after ∧
      (∃ contents mode, filled.node? place = some (.file contents mode) ∧
        after.node? (target.normal before.here) = some (.file contents mode)) ∧
      (eval (discard sibling) after).2 = after := by
  obtain ⟨hchange, hreach, hfile⟩ := hbeside.written hfilled
  rcases rename_cases filled sibling target with
    ⟨contents', mode', -, htarget, hdots, hnode, hwrite, heval⟩ | ⟨error, heval⟩
  swap
  · simp [hmoved] at heval
  rw [hmoved, hbeside.normal, hchange.here] at heval
  rw [hbeside.normal] at hnode
  rw [hchange.here] at hwrite
  have hne := hbeside.place_ne_target hdots
  obtain rfl : after = (filled.erase place).put (target.normal before.here)
      (.file contents' mode') := by simpa using heval
  have hgone : ((filled.erase place).put (target.normal before.here)
      (.file contents' mode')).node? place = none := by
    simp [node?_put, node?_erase, hbeside.place_ne_root, hne]
  have htargetRoot : target.normal before.here ≠ [] := by
    intro heq
    simp [heq, Writable] at hwrite
  have herase := Change.erase (show filled.node? place ≠ some .directory by simp [hnode])
  have hput : Change { written := {target.normal before.here} } (filled.erase place)
      ((filled.erase place).put (target.normal before.here) (.file contents' mode')) :=
    Change.putFile (by simpa [node?_erase, htargetRoot, hne.symm] using hwrite.1)
  refine ⟨?_, ⟨contents', mode', hnode, by simp [node?_put, htargetRoot]⟩, ?_⟩
  · refine Change.forget hbeside.free_before hgone
      (Change.trans (hchange.mono ?_) (Change.trans (herase.mono ?_) (hput.mono ?_)))
    · exact ⟨subset_rfl, by simp, by simp⟩
    · exact ⟨Set.empty_subset _, Set.empty_subset _, by simp⟩
    · exact ⟨Set.empty_subset _, by simp, Set.empty_subset _⟩
  · rcases discard_cases ((filled.erase place).put (target.normal before.here)
      (.file contents' mode')) sibling with ⟨-, ⟨contents'', mode'', hstill⟩, -⟩ | ⟨-, hsame⟩
    · rw [hbeside.normal, hgone] at hstill
      simp at hstill
    · exact hsame

end Beside

/-- Making a temporary file makes the directories above the target, and the file in the last one. -/
theorem newSibling_cases {tree : FileTree} (hrooted : ".." ∉ tree.here) (target : Path) :
    (∃ ready sibling place, Beside target tree ready sibling place ∧
      eval (newSibling target) tree = (.ok sibling, ready.put place (.file [] 0o600))) ∨
      ∃ error after, Change { made := target.parent.trail tree.here } tree after ∧
        eval (newSibling target) tree = (.error error, after) := by
  unfold newSibling
  obtain ⟨hmade, -⟩ := ensureDirectories_spec tree target.parent
  rcases heval : eval (ensureDirectories target.parent) tree with ⟨error | value, ready⟩
  · rw [heval] at hmade
    exact .inr ⟨error, ready, hmade, eval_bind_error heval⟩
  rw [heval] at hmade
  change Change _ tree ready at hmade
  rw [eval_bind_ok heval, eval_bind_ok (Action.eval_get ready)]
  simp only [hmade.here]
  rcases hname : ready.unusedSibling? (target.parent.normal tree.here) target.name siblingTries 0
    with _ | name
  · exact .inr ⟨_, ready, hmade, by simp only; rfl⟩
  obtain ⟨n, -, rfl, hfree⟩ := unusedSibling?_some hname
  set place := target.parent.normal tree.here ++ [siblingName target.name n] with hplace
  have hplaceRooted : ".." ∉ place := dots_notMem_sibling (Path.dots_notMem_normal hrooted _) _ _
  simp only
  rcases opening_cases ready (.ofLocation place) with ⟨hreach, -, hopen⟩ | ⟨-, error, hopen⟩
  · refine .inl ⟨ready, .ofLocation place, place,
      ⟨hmade, ⟨n, hplace⟩, rfl, hfree, hreach, hplaceRooted⟩, ?_⟩
    rw [eval_bind_ok hopen, Path.normal_ofLocation hplaceRooted]
    rfl
  · exact .inr ⟨error, ready, hmade, eval_bind_error hopen⟩

/-- The target can be written: a temporary file can be made beside it and moved there. -/
def Receives (tree : FileTree) (target : Path) : Prop :=
  ∃ sibling ready after, eval (newSibling target) tree = (.ok sibling, ready) ∧
    eval (rename sibling target) ready = (.ok (), after)

theorem receives_iff {tree : FileTree} {target : Path} :
    tree.Receives target ↔
      (eval (newSibling target >>= fun sibling => rename sibling target) tree).1 = .ok () := by
  constructor
  · rintro ⟨sibling, ready, after, hnew, hmove⟩
    rw [eval_bind_ok hnew, hmove]
  · intro hboth
    rcases hnew : eval (newSibling target) tree with ⟨error | sibling, ready⟩
    · rw [eval_bind_error hnew] at hboth
      cases hboth
    · rw [eval_bind_ok hnew] at hboth
      exact ⟨sibling, ready, _, hnew, Prod.ext hboth rfl⟩

instance (tree : FileTree) (target : Path) : Decidable (tree.Receives target) :=
  decidable_of_iff _ receives_iff.symm

/-- What the temporary file holds does not matter for where it can be moved. -/
theorem Receives.rename {tree : FileTree} {target : Path} (hrooted : ".." ∉ tree.here)
    (hreceives : tree.Receives target) :
    ∃ ready sibling place, Beside target tree ready sibling place ∧
      eval (newSibling target) tree = (.ok sibling, ready.put place (.file [] 0o600)) ∧
      hasNull target = false ∧
      ∀ filled, Change { written := {place} } (ready.put place (.file [] 0o600)) filled →
        ∃ after, eval (FileTree.rename sibling target) filled = (.ok (), after) := by
  obtain ⟨found, start, moved, hnew, hmove⟩ := hreceives
  rcases newSibling_cases hrooted target with
    ⟨ready, sibling, place, hbeside, hsibling⟩ | ⟨error, after, -, herror⟩
  swap
  · simp [herror] at hnew
  obtain ⟨rfl, rfl⟩ : sibling = found ∧ ready.put place (.file [] 0o600) = start := by
    simpa [hsibling] using hnew
  rcases rename_cases (ready.put place (.file [] 0o600)) sibling target with
    ⟨contents, mode, hreach, htarget, hdots, hnode, hwrite, -⟩ | ⟨error, herror⟩
  swap
  · simp [herror] at hmove
  refine ⟨ready, sibling, place, hbeside, hsibling, htarget.noNull, fun filled hfilled => ?_⟩
  obtain ⟨-, -, contents', mode', hplace⟩ := hbeside.written hfilled
  have hne : target.normal filled.here ≠ place := by
    rw [hfilled.here, here_put, hbeside.made.here]
    exact (hbeside.place_ne_target hdots).symm
  refine ⟨_, (hfilled.reachable hreach).eval_rename (hfilled.reachable htarget) hdots
    (by rw [hbeside.normal]; exact hplace) ?_⟩
  have hsame : filled.node? (target.normal filled.here) =
      (ready.put place (.file [] 0o600)).node? (target.normal filled.here) :=
    hfilled.node?_eq (by simpa [Footprint.places] using hne)
  rw [hfilled.here] at hsame ⊢
  exact ⟨hsame ▸ hwrite.1, fun hnone => hfilled.directory _ (hwrite.2 (hsame ▸ hnone))⟩

theorem eval_newSibling_here (tree : FileTree) (target : Path) :
    (eval (newSibling target) tree).2.here = tree.here := by
  unfold newSibling
  obtain ⟨hmade, -⟩ := ensureDirectories_spec tree target.parent
  rcases heval : eval (ensureDirectories target.parent) tree with ⟨error | value, ready⟩
  · rw [heval] at hmade
    rw [eval_bind_error heval]
    exact hmade.here
  rw [heval] at hmade
  rw [eval_bind_ok heval, eval_bind_ok (Action.eval_get ready)]
  refine Eq.trans ?_ hmade.here
  dsimp only
  split
  · rfl
  · rename_i name _
    rw [eval_bind]
    rcases opening_cases ready (.ofLocation (target.parent.normal ready.here ++ [name])) with
      ⟨-, -, hopen⟩ | ⟨-, error, hopen⟩
    · rw [hopen]
      rfl
    · rw [hopen]

end FileTree

end JarRefinery
