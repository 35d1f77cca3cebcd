import JarRefinery.Proofs.Files.Sibling

/-!
# Where files can be produced

Once the directory of a target is there, it depends on few places whether a temporary file can be made
beside the target and moved to it. So it stays possible while other files come and go.
-/

namespace JarRefinery.FileTree

open FileTree.Action (eval eval_bind eval_bind_ok eval_bind_error)

variable {tree after : FileTree} {target : Path}

/-- A temporary file can be made beside the target. -/
def Prepares (tree : FileTree) (target : Path) : Prop :=
  ∃ sibling ready, eval (newSibling target) tree = (.ok sibling, ready)

theorem prepares_iff : tree.Prepares target ↔ (eval (newSibling target) tree).1.isOk = true := by
  unfold Prepares
  rcases eval (newSibling target) tree with ⟨error | sibling, ready⟩
  · simp [Except.isOk, Except.toBool]
  · simp [Except.isOk, Except.toBool]

instance (tree : FileTree) (target : Path) : Decidable (tree.Prepares target) :=
  decidable_of_iff _ prepares_iff.symm

theorem Receives.prepares (hreceives : tree.Receives target) : tree.Prepares target := by
  obtain ⟨sibling, ready, _, hnew, -⟩ := hreceives
  exact ⟨sibling, ready, hnew⟩

theorem Receives.noNull (hreceives : tree.Receives target) (hrooted : ".." ∉ tree.here) :
    hasNull target = false := by
  obtain ⟨_, _, _, -, -, hnull, -⟩ := hreceives.rename hrooted
  exact hnull

/-- In a directory that is there it only takes a free name, and a path to it that is not too long. -/
theorem HasDirectory.prepares_iff (hdirectory : tree.HasDirectory target.parent)
    (hrooted : ".." ∉ tree.here) : tree.Prepares target ↔
      ∃ name, tree.unusedSibling? (target.parent.normal tree.here) target.name siblingTries 0 =
          some name ∧
        tree.Reachable (.ofLocation (target.parent.normal tree.here ++ [name])) := by
  have hsame := hdirectory.eval_ensureDirectories
  unfold Prepares newSibling
  rw [eval_bind_ok hsame, eval_bind_ok (Action.eval_get tree)]
  dsimp only
  rcases hname : tree.unusedSibling? (target.parent.normal tree.here) target.name siblingTries 0
    with _ | name
  · constructor
    · rintro ⟨sibling, ready, hnew⟩
      cases hnew
    · rintro ⟨name, hsome, -⟩
      cases hsome
  obtain ⟨n, -, rfl, hfree⟩ := unusedSibling?_some hname
  set place := target.parent.normal tree.here ++ [siblingName target.name n] with hplace
  have hplaceRooted : ".." ∉ place := dots_notMem_sibling (Path.dots_notMem_normal hrooted _) _ _
  have hwritable : tree.Writable ((Path.ofLocation place).normal tree.here) := by
    rw [Path.normal_ofLocation hplaceRooted]
    refine ⟨by simp [hfree], fun _ => ?_⟩
    rw [hplace, List.dropLast_concat]
    exact hdirectory.node
  constructor
  · rintro ⟨sibling, ready, hnew⟩
    refine ⟨_, rfl, ?_⟩
    rcases opening_cases tree (.ofLocation place) with ⟨hreach, -, -⟩ | ⟨-, error, hopen⟩
    · exact hreach
    · cases (eval_bind_error hopen).symm.trans hnew
  · rintro ⟨name, hsome, hreach⟩
    obtain rfl := Option.some.inj hsome
    rcases opening_cases tree (.ofLocation place) with ⟨-, -, hopen⟩ | ⟨hnot, -⟩
    · exact ⟨_, _, eval_bind_ok hopen⟩
    · exact absurd ⟨hreach, hwritable⟩ hnot

/-! ### Long names -/

theorem le_serialText (n : Nat) : 8 ≤ (serialText n).utf8ByteSize := by
  have hlength : 8 ≤ (List.replicate (8 - (Nat.toDigits 10 n).length) 'a' ++ Nat.toDigits 10 n).length := by
    simp only [List.length_append, List.length_replicate]
    omega
  have hchars : ∀ chars : List Char, chars.length ≤ (String.ofList chars).utf8ByteSize := by
    intro chars
    induction chars with
    | nil => simp
    | cons c rest ih =>
      rw [String.ofList_cons, String.utf8ByteSize_append, List.length_cons]
      have hpos := Char.utf8Size_pos c
      have hsize : (String.singleton c).utf8ByteSize = c.utf8Size := by simp
      omega
  exact hlength.trans (hchars _)

theorem utf8ByteSize_siblingName (name : String) (n : Nat) :
    (siblingName name n).utf8ByteSize = name.utf8ByteSize + (serialText n).utf8ByteSize + 6 := by
  simp only [siblingName, String.utf8ByteSize_append]
  have hdot : ".".utf8ByteSize = 1 := rfl
  have hending : ".tmp".utf8ByteSize = 4 := rfl
  omega

/-- What a temporary name adds to the name of the target must have room too. -/
theorem Prepares.name_le (hrooted : ".." ∉ tree.here) (hprepares : tree.Prepares target) :
    target.name.utf8ByteSize + 14 ≤ nameLimit := by
  obtain ⟨sibling, made, hnew⟩ := hprepares
  rcases newSibling_cases hrooted target with
    ⟨ready, found, place, hbeside, -⟩ | ⟨error, failed, -, herror⟩
  swap
  · cases herror.symm.trans hnew
  obtain ⟨n, hplace⟩ := hbeside.eq_place
  have hpass := hbeside.reachable.passable
  rw [hbeside.eq_sibling, hplace] at hpass
  change ready.Passable _ (_ ++ [_]) at hpass
  rw [Passable.append] at hpass
  obtain ⟨-, -, hdots | hsize, -⟩ := hpass
  · exact absurd hdots (siblingName_ne_dots _ _)
  · rw [utf8ByteSize_siblingName] at hsize
    have hserial := le_serialText n
    omega

/-- The first temporary name will do if it is free. -/
theorem HasDirectory.prepares_of_free (hdirectory : tree.HasDirectory target.parent)
    (hrooted : ".." ∉ tree.here)
    (hfree : tree.node? (target.parent.normal tree.here ++ [siblingName target.name 0]) = none)
    (hreach : tree.Reachable
      (.ofLocation (target.parent.normal tree.here ++ [siblingName target.name 0]))) :
    tree.Prepares target := by
  refine (hdirectory.prepares_iff hrooted).mpr ⟨_, ?_, hreach⟩
  change tree.unusedSibling? _ _ (99999999 + 1) 0 = _
  rw [unusedSibling?]
  simp [hfree]

/-- A temporary name ends as no name with another ending does. -/
theorem siblingName_ne_append {ending : String} {c : Char} (hlast : ending.toList.getLast? = some c)
    (hother : c ≠ 'p') (name rest : String) (n : Nat) : siblingName name n ≠ rest ++ ending := by
  intro heq
  have hending : ending.toList ≠ [] := by
    rintro hnil
    simp [hnil] at hlast
  have hsibling : (siblingName name n).toList.getLast? = some 'p' := by
    rw [siblingName, String.toList_append, List.getLast?_append_of_ne_nil _ (by decide)]
    rfl
  rw [heq, String.toList_append, List.getLast?_append_of_ne_nil _ hending, hlast] at hsibling
  exact hother (Option.some.inj hsibling)

/-! ### Other files -/

theorem unusedSibling?_congr {directory : Location} {name : String}
    (hsame : ∀ n, after.node? (directory ++ [siblingName name n]) =
      tree.node? (directory ++ [siblingName name n])) (tries n : Nat) :
    after.unusedSibling? directory name tries n = tree.unusedSibling? directory name tries n := by
  induction tries generalizing n with
  | zero => rfl
  | succ tries ih => rw [unusedSibling?, unusedSibling?, hsame, ih]

/-- Directories that stay keep a target prepared while the temporary names do. -/
theorem Prepares.mono (hprepares : tree.Prepares target)
    (hdirectory : tree.HasDirectory target.parent) (hrooted : ".." ∉ tree.here)
    (hhere : after.here = tree.here)
    (hkept : ∀ location, tree.node? location = some .directory →
      after.node? location = some .directory)
    (hsame : ∀ n, after.node? (target.parent.normal tree.here ++ [siblingName target.name n]) =
      tree.node? (target.parent.normal tree.here ++ [siblingName target.name n])) :
    after.Prepares target := by
  have hdirectory' : after.HasDirectory target.parent :=
    ⟨hdirectory.reachable.mono hhere hkept, hhere ▸ hkept _ hdirectory.node⟩
  rw [hdirectory'.prepares_iff (hhere ▸ hrooted), hhere, unusedSibling?_congr hsame]
  obtain ⟨name, hname, hreach⟩ := (hdirectory.prepares_iff hrooted).mp hprepares
  exact ⟨name, hname, hreach.mono hhere hkept⟩

/-- A temporary file that was discarded leaves its target as prepared as it was. -/
theorem prepares_of_discarded {sibling : Path} {made filled : FileTree} (hrooted : ".." ∉ tree.here)
    (hnew : eval (newSibling target) tree = (.ok sibling, made))
    (hfilled : Change { written := {sibling.normal tree.here} } made filled) :
    (eval (discard sibling) filled).2.HasDirectory target.parent ∧
      (eval (discard sibling) filled).2.Prepares target := by
  unfold newSibling at hnew
  obtain ⟨hmade, hdirectory⟩ := ensureDirectories_spec tree target.parent
  rcases heval : eval (ensureDirectories target.parent) tree with ⟨error | value, ready⟩
  · rw [eval_bind_error heval] at hnew
    cases hnew
  rw [heval] at hmade hdirectory
  have hhere : ready.here = tree.here := hmade.here
  have hready : ready.HasDirectory target.parent := hdirectory rfl
  -- made once more, the file would be the same: the directories are there
  have hagain : eval (newSibling target) ready = (.ok sibling, made) := by
    rw [← hnew, eval_bind_ok heval]
    unfold newSibling
    rw [eval_bind_ok hready.eval_ensureDirectories]
  rcases newSibling_cases (hhere ▸ hrooted : ".." ∉ ready.here) target with
    ⟨start, found, place, hbeside, hsibling⟩ | ⟨error, failed, -, herror⟩
  swap
  · cases herror.symm.trans hagain
  obtain ⟨hfound, rfl⟩ := Prod.mk.inj (hsibling.symm.trans hagain)
  obtain rfl := Except.ok.inj hfound
  rw [hbeside.normal] at hfilled
  have hgone := hbeside.discarded hfilled
  have hprepares : ready.Prepares target := ⟨found, _, hagain⟩
  exact ⟨hready.mono hgone, hprepares.mono hready (hhere ▸ hrooted) hgone.here hgone.directory
    fun n => hready.node?_eq hgone (Set.notMem_empty _) (Set.notMem_empty _)⟩

/-! ### Receiving -/

section Receiving

variable (hdirectory : tree.HasDirectory target.parent)

include hdirectory

/-- Where the directory is there, making a temporary file makes the file and no directory. -/
theorem HasDirectory.node?_put_iff {start : FileTree} {sibling : Path} {place location : Location}
    (hbeside : Beside target tree start sibling place) :
    (start.put place (.file [] 0o600)).node? location = some .directory ↔
      tree.node? location = some .directory := by
  have hput := hbeside.put [] 0o600
  constructor
  · exact fun hnode =>
      hdirectory.notMade hbeside.made (hput.notMade location (Set.notMem_empty _) hnode)
  · exact fun hnode => hput.directory _ (hbeside.made.directory _ hnode)

variable (hrooted : ".." ∉ tree.here)

include hrooted

theorem HasDirectory.of_receives (hreceives : tree.Receives target) :
    tree.Reachable target ∧ endsInDots target = false ∧
      tree.node? (target.normal tree.here) ≠ some .directory := by
  obtain ⟨sibling, ready, moved, hnew, hmove⟩ := hreceives
  rcases newSibling_cases hrooted target with
    ⟨start, found, place, hbeside, hsibling⟩ | ⟨error, failed, -, herror⟩
  swap
  · simp [herror] at hnew
  obtain ⟨hfound, rfl⟩ := Prod.mk.inj (hsibling.symm.trans hnew)
  obtain rfl := Except.ok.inj hfound
  rcases rename_cases (start.put place (.file [] 0o600)) found target with
    ⟨contents, mode, -, htarget, hdots, -, hwrite, -⟩ | ⟨error, herror⟩
  swap
  · simp [herror] at hmove
  have hhere : (start.put place (.file [] 0o600)).here = tree.here := hbeside.made.here
  refine ⟨htarget.mono hhere.symm fun _ => (hdirectory.node?_put_iff hbeside).mp, hdots, fun hnode => ?_⟩
  rw [hhere] at hwrite
  exact hwrite.1 ((hdirectory.node?_put_iff hbeside).mpr hnode)

theorem HasDirectory.receives (hprepares : tree.Prepares target) (htarget : tree.Reachable target)
    (hdots : endsInDots target = false)
    (hnot : tree.node? (target.normal tree.here) ≠ some .directory) : tree.Receives target := by
  obtain ⟨sibling, ready, hnew⟩ := hprepares
  rcases newSibling_cases hrooted target with
    ⟨start, found, place, hbeside, hsibling⟩ | ⟨error, failed, -, herror⟩
  swap
  · simp [herror] at hnew
  have hput := hbeside.put [] 0o600
  have hhere : (start.put place (.file [] 0o600)).here = tree.here := hbeside.made.here
  have hplace := (hbeside.found [] 0o600).2
  have hwrite : (start.put place (.file [] 0o600)).Writable
      (target.normal (start.put place (.file [] 0o600)).here) := by
    rw [hhere]
    refine ⟨fun hnode => hnot ((hdirectory.node?_put_iff hbeside).mp hnode), fun _ => ?_⟩
    rw [Path.dropLast_normal hdots]
    exact (hdirectory.node?_put_iff hbeside).mpr hdirectory.node
  exact ⟨found, _, _, hsibling, (hput.reachable hbeside.reachable).eval_rename
    (hput.reachable (hbeside.made.reachable htarget)) hdots hplace hwrite⟩

/-- A target that is named can be moved to once the temporary file is there, unless it is a
directory. -/
theorem HasDirectory.receives_iff : tree.Receives target ↔
    tree.Prepares target ∧ tree.Reachable target ∧ endsInDots target = false ∧
      tree.node? (target.normal tree.here) ≠ some .directory := by
  constructor
  · exact fun hreceives => ⟨hreceives.prepares, hdirectory.of_receives hrooted hreceives⟩
  · rintro ⟨hprepares, htarget, hdots, hnot⟩
    exact hdirectory.receives hrooted hprepares htarget hdots hnot

end Receiving

/-- A target can be written still after another file was, in a directory that was there. -/
theorem Receives.replaced (hreceives : tree.Receives target)
    (hdirectory : tree.HasDirectory target.parent) (hrooted : ".." ∉ tree.here) {other : Path}
    (hother : tree.HasDirectory other.parent)
    (hchange : Change { made := other.parent.trail tree.here, written := {other.normal tree.here} }
      tree after)
    (hsibling : ∀ n, target.parent.normal tree.here ++ [siblingName target.name n] ≠
      other.normal tree.here) : after.Receives target := by
  obtain ⟨hprepares, htarget, hdots, hnot⟩ := (hdirectory.receives_iff hrooted).mp hreceives
  have hsame : ∀ n, after.node? (target.parent.normal tree.here ++ [siblingName target.name n]) =
      tree.node? (target.parent.normal tree.here ++ [siblingName target.name n]) := fun n =>
    hother.node?_eq hchange (hsibling n) (Set.notMem_empty _)
  rw [(hdirectory.mono hchange).receives_iff (hchange.here ▸ hrooted), hchange.here]
  exact ⟨hprepares.mono hdirectory hrooted hchange.here hchange.directory hsame,
    hchange.reachable htarget, hdots, fun hnode => hnot (hother.notMade hchange hnode)⟩

end JarRefinery.FileTree
