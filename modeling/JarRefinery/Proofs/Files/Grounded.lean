import JarRefinery.Proofs.Files.Finding
import JarRefinery.Proofs.Files.Sparing
import Mathlib.Algebra.GroupWithZero.Nat
import Mathlib.Data.List.Induction

/-!
# Making directories where nothing is in the way

In a tree whose nodes all stand in directories, it depends on the files above a place and on the
lengths of the names alone how far directories can be made towards it. They are made as far as that,
whether the last of them can be made or not.
-/

namespace JarRefinery

namespace Path

/-- How long the path of a place is: one slash before each name, and at least one. -/
theorem utf8ByteSize_ofLocation (location : Location) :
    (ofLocation location).toString.utf8ByteSize =
      1 + (location.map String.utf8ByteSize).sum + (location.length - 1) := by
  have hjoined : ∀ names : List String, ("/".intercalate names).utf8ByteSize =
      (names.map String.utf8ByteSize).sum + (names.length - 1) := by
    intro names
    induction names with
    | nil => rfl
    | cons first rest ih =>
      cases rest with
      | nil => simp
      | cons second rest =>
        have hslash : "/".utf8ByteSize = 1 := rfl
        rw [String.intercalate_cons_cons, String.utf8ByteSize_append, String.utf8ByteSize_append, ih]
        simp only [List.map_cons, List.sum_cons, List.length_cons]
        omega
  have hroot : "/".utf8ByteSize = 1 := rfl
  have htext : (ofLocation location).toString = "/" ++ "/".intercalate location :=
    if_neg fun hempty => absurd hempty.1 (show "/" ≠ "" by decide)
  rw [htext, String.utf8ByteSize_append, hjoined]
  omega

theorem parent_ofLocation_append (directory : Location) (name : String) :
    (ofLocation (directory ++ [name])).parent = .ofLocation directory := by
  simp [parent, ofLocation]

theorem utf8ByteSize_ofLocation_mono {above location : Location} (honto : above <+: location) :
    (ofLocation above).toString.utf8ByteSize ≤ (ofLocation location).toString.utf8ByteSize := by
  obtain ⟨rest, rfl⟩ := honto
  rw [utf8ByteSize_ofLocation, utf8ByteSize_ofLocation]
  simp only [List.map_append, List.sum_append, List.length_append]
  omega

end Path

namespace FileTree

open FileTree.Action (eval eval_bind eval_bind_ok eval_bind_error)

variable {tree before middle after : FileTree} {location directory : Location}

/-! ### Grounded trees -/

/-- Every node stands in a directory. -/
def Grounded (tree : FileTree) : Prop :=
  ∀ location node, tree.node? location = some node →
    tree.node? location.dropLast = some .directory

theorem grounded_of_nodes
    (hnodes : ∀ entry ∈ tree.nodes, tree.node? entry.1.dropLast = some .directory) :
    tree.Grounded := by
  intro location node hnode
  by_cases hroot : location = []
  · rw [hroot]
    exact node?_root
  rw [node?, if_neg hroot, List.lookup_eq_some_iff] at hnode
  obtain ⟨front, back, hsplit, -⟩ := hnode
  exact hnodes (location, node) (by simp [hsplit])

/-- Directories lead to every node. -/
theorem Grounded.leads (hgrounded : tree.Grounded) {node : Node}
    (hnode : tree.node? location = some node) : tree.Leads location := by
  rintro above ⟨rest, rfl⟩ hne
  induction rest using List.reverseRecOn generalizing node with
  | nil => exact absurd (List.append_nil above).symm hne
  | append_singleton rest name ih =>
    rw [← List.append_assoc] at hnode
    have habove := hgrounded _ _ hnode
    rw [List.dropLast_concat] at habove
    by_cases hrest : rest = []
    · rwa [hrest, List.append_nil] at habove
    · exact ih habove (by simpa using hrest)

/-- A node that is put in a directory stands in one. -/
theorem Grounded.of_new (hgrounded : before.Grounded) {name : String}
    (hdirectory : before.node? directory = some .directory)
    (hnone : before.node? (directory ++ [name]) = none)
    (hsame : ∀ location, location ≠ directory ++ [name] → after.node? location = before.node? location) :
    after.Grounded := by
  intro location node hnode
  by_cases hplace : location = directory ++ [name]
  · rw [hplace, List.dropLast_concat, hsame _ (by simp), hdirectory]
  · rw [hsame _ hplace] at hnode
    have habove := hgrounded _ _ hnode
    rwa [hsame]
    rintro heq
    simp [heq, hnone] at habove

/-- No name is too long for a file. -/
def Short (location : Location) : Prop :=
  ∀ name ∈ location, name.utf8ByteSize ≤ nameLimit

theorem Short.of_above {above : Location} (hshort : Short location) (honto : above <+: location) :
    Short above :=
  fun name hname => hshort name (honto.subset hname)

/-- Where following names stops: nothing is there, or a file is, or the next name is too long. -/
theorem follow_error_cases {names : List String} (hdots : ".." ∉ names) {code : ErrorCode}
    (herror : tree.follow location names = .error code) :
    ∃ front name back, names = front ++ name :: back ∧
      (∀ above, above <+: front → above ≠ front →
        tree.node? (location ++ above) = some .directory) ∧
      ((code = .noEntry ∧ tree.node? (location ++ front) = none) ∨
        (code = .notDirectory ∧ ∃ contents mode,
          tree.node? (location ++ front) = some (.file contents mode)) ∨
        (code = .nameTooLong ∧ tree.node? (location ++ front) = some .directory ∧
          nameLimit < name.utf8ByteSize)) := by
  induction names generalizing location with
  | nil => cases herror
  | cons name rest ih =>
    obtain ⟨hname, hrest⟩ := not_or.mp (List.mem_cons.not.mp hdots)
    have hfirst : ∀ above, above <+: ([] : Location) → above ≠ [] →
        tree.node? (location ++ above) = some .directory := fun above honto hne =>
      absurd (List.prefix_nil.mp honto) hne
    unfold follow at herror
    rcases hnode : tree.node? location with _ | ⟨_ | ⟨contents, mode⟩⟩ <;> rw [hnode] at herror
    · exact ⟨[], name, rest, rfl, hfirst, .inl ⟨(Except.error.inj herror).symm, by simpa using hnode⟩⟩
    · dsimp only at herror
      rw [if_neg fun heq => hname heq.symm] at herror
      split_ifs at herror with hlong
      · exact ⟨[], name, rest, rfl, hfirst,
          .inr (.inr ⟨(Except.error.inj herror).symm, by simpa using hnode, hlong⟩)⟩
      · obtain ⟨front, other, back, rfl, hfront, hstop⟩ := ih hrest herror
        refine ⟨name :: front, other, back, rfl, ?_, by simpa using hstop⟩
        rintro (_ | ⟨first, above⟩) honto hne
        · simpa using hnode
        · obtain ⟨rfl, habove⟩ := List.cons_prefix_cons.mp honto
          have hdirectory := hfront above habove (by simpa using hne)
          rwa [List.append_assoc] at hdirectory
    · exact ⟨[], name, rest, rfl, hfirst, .inr (.inl
        ⟨(Except.error.inj herror).symm, contents, mode, by simpa using hnode⟩)⟩

/-- Names can be passed if directories lead on to the last of them and none is too long. -/
theorem passable_iff {base names : Location} (hdots : ".." ∉ names) :
    tree.Passable base names ↔
      (∀ above, above <+: names → above ≠ names → tree.node? (base ++ above) = some .directory) ∧
        Short names := by
  induction names generalizing base with
  | nil => simp [Passable, Short]
  | cons name rest ih =>
    obtain ⟨hname, hrest⟩ := not_or.mp (List.mem_cons.not.mp hdots)
    have hstep : Path.walk base [name] = base ++ [name] :=
      Path.walk_eq_append (by simpa using hname) base
    rw [Passable, hstep, ih hrest]
    constructor
    · rintro ⟨hnode, hname' | hname', hdirectories, hshort⟩
      · exact absurd hname'.symm hname
      refine ⟨?_, by simpa [Short] using ⟨hname', hshort⟩⟩
      rintro (_ | ⟨first, above⟩) honto hne
      · simpa using hnode
      · obtain ⟨rfl, habove⟩ := List.cons_prefix_cons.mp honto
        simpa using hdirectories above habove (by simpa using hne)
    · rintro ⟨hdirectories, hshort⟩
      refine ⟨by simpa using hdirectories [] (List.nil_prefix) (by simp),
        .inr (hshort name List.mem_cons_self), fun above honto hne => ?_,
        fun other hother => hshort other (List.mem_cons_of_mem _ hother)⟩
      have hdirectory := hdirectories (name :: above) (List.cons_prefix_cons.mpr ⟨rfl, honto⟩)
        (by simpa using hne)
      simpa using hdirectory

/-- A place can be asked for if directories lead to it and neither its names nor its path are too
long. -/
theorem reachable_ofLocation_iff (hdots : ".." ∉ location) :
    tree.Reachable (.ofLocation location) ↔
      hasNull (.ofLocation location) = false ∧
        (Path.ofLocation location).toString.utf8ByteSize ≤ pathLimit ∧
        tree.Leads location ∧ Short location := by
  have hplace := @passable_iff tree [] location hdots
  constructor
  · rintro ⟨hnull, hlength, hpass⟩
    exact ⟨hnull, hlength, hplace.mp hpass⟩
  · rintro ⟨hnull, hlength, hboth⟩
    exact ⟨hnull, hlength, hplace.mpr hboth⟩

/-- Only names that are too long keep a place from being asked about to which directories lead. -/
theorem Leads.reachable (hleads : tree.Leads location) (hdots : ".." ∉ location)
    (hnull : hasNull (.ofLocation location) = false) (hasked : ¬tree.TooLong (.ofLocation location)) :
    tree.Reachable (.ofLocation location) := by
  rcases hlocate : tree.locate (.ofLocation location) with code | found
  swap
  · exact (Reachable.of_locate hnull hlocate).1
  have hcode : code ≠ .nameTooLong := by
    rintro rfl
    exact hasked ⟨hnull, hlocate⟩
  unfold locate at hlocate
  split at hlocate
  · exact absurd (Except.error.inj hlocate).symm hcode
  obtain ⟨front, name, back, hsplit, -, hstop⟩ := follow_error_cases hdots hlocate
  change location = _ at hsplit
  have hfront : tree.node? front = some .directory :=
    hleads front (hsplit ▸ List.prefix_append _ _) (by rw [hsplit]; simp)
  rcases hstop with ⟨-, hnone⟩ | ⟨-, contents, mode, hfile⟩ | ⟨hlong, -⟩
  · simp [Path.isAbsolute, Path.ofLocation, hfront] at hnone
  · simp [Path.isAbsolute, Path.ofLocation, hfront] at hfile
  · exact absurd hlong hcode

/-! ### Directories that can be made -/

/-- Directories can be made as far as here: no name is too long, and no file is in the way. -/
structure Clear (tree : FileTree) (location : Location) : Prop where
  short : Short location
  noFile : ∀ above, above <+: location → ∀ contents mode,
    tree.node? above ≠ some (.file contents mode)

theorem Clear.of_above {above : Location} (hclear : tree.Clear location)
    (honto : above <+: location) : tree.Clear above :=
  ⟨hclear.short.of_above honto, fun other hother => hclear.noFile other (hother.trans honto)⟩

/-- What is clear stays so if no file comes in the way. -/
theorem Clear.congr (hclear : before.Clear location)
    (hfile : ∀ above, above <+: location → ∀ contents mode,
      after.node? above = some (.file contents mode) →
        before.node? above = some (.file contents mode)) : after.Clear location :=
  ⟨hclear.short, fun above habove contents mode hnode =>
    hclear.noFile above habove contents mode (hfile above habove contents mode hnode)⟩

/-- Making `directory` makes the directory at `location`, if it can be asked for at all. -/
structure Makes (tree : FileTree) (directory location : Location) : Prop where
  asked : (Path.ofLocation directory).toString.utf8ByteSize ≤ pathLimit
  onTheWay : location <+: directory
  clear : tree.Clear location

/-- The directories are there that making `directory` makes, and nothing else has changed. -/
structure Made (directory : Location) (before after : FileTree) : Prop where
  here : after.here = before.here
  made : ∀ location, before.Makes directory location → after.node? location = some .directory
  same : ∀ location, ¬before.Makes directory location →
    after.node? location = before.node? location

namespace Made

theorem node?_file (hmade : Made directory before after) {contents : Bytes} {mode : Nat} :
    after.node? location = some (.file contents mode) ↔
      before.node? location = some (.file contents mode) := by
  by_cases hmakes : before.Makes directory location
  · have hnot := hmakes.clear.noFile location List.prefix_rfl contents mode
    simp [hmade.made _ hmakes, hnot]
  · rw [hmade.same _ hmakes]

theorem clear_iff (hmade : Made directory before after) :
    after.Clear location ↔ before.Clear location :=
  ⟨fun hclear => hclear.congr fun _ _ _ _ => hmade.node?_file.mpr,
    fun hclear => hclear.congr fun _ _ _ _ => hmade.node?_file.mp⟩

theorem node?_directory (hmade : Made directory before after)
    (hnode : before.node? location = some .directory) : after.node? location = some .directory := by
  by_cases hmakes : before.Makes directory location
  · exact hmade.made _ hmakes
  · rw [hmade.same _ hmakes, hnode]

theorem grounded (hmade : Made directory before after) (hgrounded : before.Grounded) :
    after.Grounded := by
  intro location node hnode
  by_cases hmakes : before.Makes directory location
  · have honto := List.dropLast_prefix location
    exact hmade.made _ ⟨hmakes.asked, honto.trans hmakes.onTheWay, hmakes.clear.of_above honto⟩
  · rw [hmade.same _ hmakes] at hnode
    exact hmade.node?_directory (hgrounded _ _ hnode)

/-- Nothing has to be made where all that can be made is there. -/
theorem refl (hthere : ∀ location, tree.Makes directory location →
    tree.node? location = some .directory) : Made directory tree tree :=
  ⟨rfl, hthere, fun _ _ => rfl⟩

/-- Where directories lead, one more makes the last of them. -/
theorem put (hleads : tree.Leads location) (hmakes : tree.Makes location location) :
    Made location tree (tree.put location .directory) where
  here := rfl
  made := by
    intro place hplace
    rw [node?_put]
    split_ifs with hempty heq
    · rfl
    · rfl
    · exact hleads place hplace.onTheWay heq
  same := by
    intro place hnot
    have hne : place ≠ location := fun heq => hnot (heq ▸ hmakes)
    rw [node?_put, if_neg hne]
    split_ifs with hempty
    · rw [hempty, node?_root]
    · rfl

/-- A directory is made after those above it. -/
theorem trans {above : Location} (honto : above <+: directory)
    (hfirst : Made above before middle) (hsecond : Made directory middle after)
    (hasked : (Path.ofLocation directory).toString.utf8ByteSize ≤ pathLimit) :
    Made directory before after where
  here := hsecond.here.trans hfirst.here
  made := fun location hmakes =>
    hsecond.made location ⟨hmakes.asked, hmakes.onTheWay, hfirst.clear_iff.mpr hmakes.clear⟩
  same := by
    intro location hnot
    rw [hsecond.same location fun hmakes =>
        hnot ⟨hmakes.asked, hmakes.onTheWay, hfirst.clear_iff.mp hmakes.clear⟩,
      hfirst.same location fun hmakes =>
        hnot ⟨hasked, hmakes.onTheWay.trans honto, hmakes.clear⟩]

end Made

/-- Nothing can be made where a file is in the way or a name is too long, below directories. -/
theorem blocked_of_stop {front back : Location} {name : String} (hsplit : location = front ++ name :: back)
    (hfront : ∀ above, above <+: front → above ≠ front → tree.node? above = some .directory)
    (hstop : (∃ contents mode, tree.node? front = some (.file contents mode)) ∨
      tree.node? front = some .directory ∧ nameLimit < name.utf8ByteSize) :
    ¬tree.Clear location ∧ Made location tree tree := by
  have honto : front <+: location := hsplit ▸ List.prefix_append _ _
  have hname : nameLimit < name.utf8ByteSize → ∀ place, front <+: place → place ≠ front →
      place <+: location → ¬tree.Clear place := by
    rintro hlong place ⟨rest, rfl⟩ hne hplace hclear
    rw [hsplit, List.prefix_append_right_inj] at hplace
    obtain ⟨first, rest, rfl⟩ := List.exists_cons_of_ne_nil (by simpa using hne : rest ≠ [])
    obtain ⟨rfl, -⟩ := List.cons_prefix_cons.mp hplace
    exact absurd (hclear.short first (by simp)) (Nat.not_le.mpr hlong)
  refine ⟨fun hclear => ?_, .refl fun place hmakes => ?_⟩
  · rcases hstop with ⟨contents, mode, hfile⟩ | ⟨-, hlong⟩
    · exact hclear.noFile front honto contents mode hfile
    · exact hname hlong location honto (by rw [hsplit]; simp) List.prefix_rfl hclear
  · by_cases heq : place = front
    · subst heq
      rcases hstop with ⟨contents, mode, hfile⟩ | ⟨hdirectory, -⟩
      · exact absurd hfile (hmakes.clear.noFile _ List.prefix_rfl contents mode)
      · exact hdirectory
    rcases List.prefix_or_prefix_of_prefix hmakes.onTheWay honto with habove | hbelow
    · exact hfront place habove heq
    · rcases hstop with ⟨contents, mode, hfile⟩ | ⟨-, hlong⟩
      · exact absurd hfile (hmakes.clear.noFile front hbelow contents mode)
      · exact absurd hmakes.clear (hname hlong place hbelow heq hmakes.onTheWay)

/-! ### Making them -/

/-- How ensuring one directory ends: it is there, or there is none yet above it, or no more can be made
towards it than is there. -/
inductive Ensures (tree : FileTree) (location : Location) : Except FileError Unit × FileTree → Prop
  | made {after : FileTree} : tree.Clear location → Made location tree after →
    Ensures tree location (.ok (), after)
  | missing {error : SystemError} : tree.node? location.dropLast ≠ some .directory →
    error.code = .noEntry → Ensures tree location (.error (.system error), tree)
  | blocked {error : SystemError} : ¬tree.Clear location → Made location tree tree →
    error.code ≠ .noEntry → Ensures tree location (.error (.system error), tree)

/-- How ensuring a directory and those above it ends: what can be made is made in any case. -/
inductive EnsuresAll (tree : FileTree) (location : Location) : Except FileError Unit × FileTree → Prop
  | made {after : FileTree} : tree.Makes location location → Made location tree after →
    EnsuresAll tree location (.ok (), after)
  | failed {after : FileTree} {error : SystemError} : ¬tree.Makes location location →
    Made location tree after → EnsuresAll tree location (.error (.system error), after)

section Making

variable (hnull : hasNull (.ofLocation location) = false)

/-- What keeps a directory from being made keeps it from being ensured. -/
theorem eval_ensureDirectory_of_error {path : Path} {error : SystemError}
    (hmake : eval (makeDirectory path) tree = (.error (.system error), tree)) :
    (error.code = .noEntry → eval (ensureDirectory path) tree = (.error (.system error), tree)) ∧
      (error.code ≠ .noEntry → ¬tree.HasDirectory path → ∃ other : SystemError,
        other.code ≠ .noEntry ∧ eval (ensureDirectory path) tree = (.error (.system other), tree)) := by
  have hrun : (makeDirectory path).run tree = (.error (.system error), tree) := hmake
  unfold ensureDirectory
  rw [eval_bind_ok (Action.eval_get tree)]
  simp only [hrun]
  constructor
  · intro hcode
    rw [if_pos hcode]
    rfl
  · intro hcode hnot
    rw [if_neg hcode]
    rcases tree.isDirectory_cases path with ⟨-, found, hfound, hdirectory⟩ | ⟨-, hlong⟩
    · obtain rfl : found = false := Bool.eq_false_iff.mpr fun htrue => hnot (hdirectory.mp htrue)
      exact ⟨error, hcode, eval_bind_ok hfound⟩
    · exact ⟨_, by simp, eval_bind_error hlong⟩

theorem Reachable.eval_makeDirectory_some {path : Path} {node : Node} (hreach : tree.Reachable path)
    (hnode : tree.node? (path.normal tree.here) = some node) :
    eval (makeDirectory path) tree =
      (.error (.system ⟨.fileExists, some path.toString, none⟩), tree) := by
  unfold makeDirectory
  rw [eval_bind_ok hreach.eval_locating, eval_bind_ok (Action.eval_get tree), hnode]
  rfl

theorem Reachable.eval_makeDirectory_none {path : Path} (hreach : tree.Reachable path)
    (hnone : tree.node? (path.normal tree.here) = none)
    (hparent : tree.node? (path.normal tree.here).dropLast = some .directory) :
    eval (makeDirectory path) tree = (.ok (), tree.put (path.normal tree.here) .directory) := by
  unfold makeDirectory
  rw [eval_bind_ok hreach.eval_locating, eval_bind_ok (Action.eval_get tree), hnone]
  dsimp only
  rw [if_pos (isDirectoryAt_iff.mpr hparent)]
  rfl

include hnull

theorem eval_makeDirectory_of_error
    {code : ErrorCode} (hlocate : tree.locate (.ofLocation location) = .error code) :
    eval (makeDirectory (.ofLocation location)) tree =
      (.error (.system ⟨code, some (Path.ofLocation location).toString, none⟩), tree) := by
  have hlocating := eval_locating_eq tree (.ofLocation location)
  rw [hlocate, hnull] at hlocating
  exact eval_bind_error hlocating

/-- A directory that cannot be asked for is missing another above it, or is blocked. -/
theorem ensures_of_error (hgrounded : tree.Grounded) (hdots : ".." ∉ location)
    (hasked : (Path.ofLocation location).toString.utf8ByteSize ≤ pathLimit) {code : ErrorCode}
    (hlocate : tree.locate (.ofLocation location) = .error code) :
    Ensures tree location (eval (ensureDirectory (.ofLocation location)) tree) := by
  obtain ⟨hmissing, hblocked⟩ :=
    eval_ensureDirectory_of_error (eval_makeDirectory_of_error hnull hlocate)
  have hnot : ¬tree.HasDirectory (.ofLocation location) := fun hdirectory => by
    cases hdirectory.reachable.locate.symm.trans hlocate
  unfold locate at hlocate
  rw [if_neg (Nat.not_lt.mpr hasked)] at hlocate
  obtain ⟨front, name, back, hsplit, hfront, hstop⟩ := follow_error_cases hdots hlocate
  change location = _ at hsplit
  change ∀ above, above <+: front → above ≠ front → tree.node? above = some .directory at hfront
  rcases hstop with ⟨rfl, hnone⟩ | ⟨rfl, hfile⟩ | ⟨rfl, hlong⟩
  · rw [hmissing rfl]
    refine .missing (fun hparent => ?_) rfl
    -- what is above a directory that exists would exist
    change tree.node? front = none at hnone
    have habove : front <+: location.dropLast := by
      rw [hsplit, List.dropLast_append_cons]
      exact List.prefix_append _ _
    by_cases heq : front = location.dropLast
    · simp [heq, hparent] at hnone
    · simp [hgrounded.leads hparent front habove heq] at hnone
  · obtain ⟨hunclear, hmade⟩ := blocked_of_stop hsplit hfront (.inl hfile)
    obtain ⟨other, hcode, heval⟩ := hblocked (by simp) hnot
    exact heval ▸ .blocked hunclear hmade hcode
  · obtain ⟨hunclear, hmade⟩ := blocked_of_stop hsplit hfront (.inr hlong)
    obtain ⟨other, hcode, heval⟩ := hblocked (by simp) hnot
    exact heval ▸ .blocked hunclear hmade hcode

section Reachable

variable (hdots : ".." ∉ location) (hreach : tree.Reachable (.ofLocation location))

omit hnull

include hdots hreach

theorem Reachable.clear
    (hfree : ∀ contents mode, tree.node? location ≠ some (.file contents mode)) :
    tree.Clear location := by
  obtain ⟨-, -, hleads, hshort⟩ := (reachable_ofLocation_iff hdots).mp hreach
  refine ⟨hshort, fun above honto contents mode hfile => ?_⟩
  by_cases heq : above = location
  · exact hfree contents mode (heq ▸ hfile)
  · simp [hleads above honto heq] at hfile

/-- Where nothing is, the directory is put. -/
theorem Reachable.eval_ensureDirectory_none (hnone : tree.node? location = none) :
    eval (ensureDirectory (.ofLocation location)) tree =
      (.ok (), tree.put location .directory) := by
  have hnormal : (Path.ofLocation location).normal tree.here = location :=
    Path.normal_ofLocation hdots _
  obtain ⟨-, -, hleads, -⟩ := (reachable_ofLocation_iff hdots).mp hreach
  have hroot : location ≠ [] := by
    rintro rfl
    simp at hnone
  have hparent : tree.node? location.dropLast = some .directory :=
    hleads _ (List.dropLast_prefix _) fun heq => by
      have hlength := congrArg List.length heq
      rw [List.length_dropLast] at hlength
      exact hroot (List.length_eq_zero_iff.mp (by omega))
  have hrun : (makeDirectory (.ofLocation location)).run tree =
      (.ok (), tree.put location .directory) := by
    have hmake := hreach.eval_makeDirectory_none (by rw [hnormal, hnone]) (by rw [hnormal, hparent])
    rwa [hnormal] at hmake
  unfold ensureDirectory
  rw [eval_bind_ok (Action.eval_get tree)]
  simp only [hrun, Action.eval_set]

/-- A directory that can be asked for is there in the end unless a file is. -/
theorem Reachable.ensures :
    Ensures tree location (eval (ensureDirectory (.ofLocation location)) tree) := by
  have hnormal : (Path.ofLocation location).normal tree.here = location :=
    Path.normal_ofLocation hdots _
  obtain ⟨-, hasked, hleads, -⟩ := (reachable_ofLocation_iff hdots).mp hreach
  rcases hnode : tree.node? location with _ | ⟨_ | ⟨contents, mode⟩⟩
  · have hclear := hreach.clear hdots (by simp [hnode])
    rw [hreach.eval_ensureDirectory_none hdots hnode]
    exact .made hclear (.put hleads ⟨hasked, List.prefix_rfl, hclear⟩)
  · rw [HasDirectory.eval_ensureDirectory ⟨hreach, by rw [hnormal, hnode]⟩]
    refine .made (hreach.clear hdots (by simp [hnode])) (.refl fun place hmakes => ?_)
    by_cases heq : place = location
    · rw [heq, hnode]
    · exact hleads place hmakes.onTheWay heq
  · obtain ⟨-, hblocked⟩ :=
      eval_ensureDirectory_of_error (hreach.eval_makeDirectory_some (hnormal.symm ▸ hnode))
    obtain ⟨other, hcode, heval⟩ := hblocked (by simp) fun hdirectory => by
      simpa [hnormal, hnode] using hdirectory.node
    rw [heval]
    refine .blocked (fun hclear => hclear.noFile _ List.prefix_rfl contents mode hnode)
      (.refl fun place hmakes => hleads place hmakes.onTheWay ?_) hcode
    rintro rfl
    exact hmakes.clear.noFile _ List.prefix_rfl contents mode hnode

end Reachable

/-- **Step.** One directory is ensured, whatever is in the way. -/
theorem ensures (hgrounded : tree.Grounded) (hdots : ".." ∉ location)
    (hasked : (Path.ofLocation location).toString.utf8ByteSize ≤ pathLimit) :
    Ensures tree location (eval (ensureDirectory (.ofLocation location)) tree) := by
  rcases hlocate : tree.locate (.ofLocation location) with code | found
  · exact ensures_of_error hnull hgrounded hdots hasked hlocate
  · exact (Reachable.of_locate hnull hlocate).1.ensures hdots

omit hnull in
theorem hasNull_ofLocation_of_above {above : Location} (honto : above <+: location)
    (hnull : hasNull (.ofLocation location) = false) : hasNull (.ofLocation above) = false := by
  rw [hasNull, List.any_eq_false] at hnull ⊢
  exact fun name hname => hnull name (honto.subset hname)

omit hnull in
/-- After the directories above it, a directory is ensured itself. -/
theorem EnsuresAll.next (hgrounded : tree.Grounded) {above : Location} {name : String}
    (hnull : hasNull (.ofLocation (above ++ [name])) = false) (hdots : ".." ∉ above ++ [name])
    (hasked : (Path.ofLocation (above ++ [name])).toString.utf8ByteSize ≤ pathLimit)
    {chain : FileTree.Action Unit} (hchain : EnsuresAll tree above (eval chain tree)) :
    EnsuresAll tree (above ++ [name])
      (eval (do chain; ensureDirectory (.ofLocation (above ++ [name]))) tree) := by
  have honto : above <+: above ++ [name] := List.prefix_append _ _
  have haskedAbove := (Path.utf8ByteSize_ofLocation_mono honto).trans hasked
  rcases hchained : eval chain tree with ⟨result, middle⟩
  rw [hchained] at hchain
  rcases hchain with ⟨hmakes, hmade⟩ | @⟨_, error, hunmade, hmade⟩
  · rw [eval_bind_ok hchained]
    have hlast := ensures hnull (hmade.grounded hgrounded) hdots hasked
    rcases hsecond : eval (ensureDirectory (.ofLocation (above ++ [name]))) middle with ⟨result, after⟩
    rw [hsecond] at hlast
    rcases hlast with ⟨hclear, hmade'⟩ | ⟨hmissing, -⟩ | ⟨hunclear, hmade', -⟩
    · exact .made ⟨hasked, List.prefix_rfl, hmade.clear_iff.mp hclear⟩
        (hmade.trans honto hmade' hasked)
    · rw [List.dropLast_concat] at hmissing
      exact absurd (hmade.made above hmakes) hmissing
    · exact .failed (fun hmakes => hunclear (hmade.clear_iff.mpr hmakes.clear))
        (hmade.trans honto hmade' hasked)
  · rw [eval_bind_error hchained]
    have hstill : ¬tree.Clear (above ++ [name]) := fun hclear =>
      hunmade ⟨haskedAbove, List.prefix_rfl, hclear.of_above honto⟩
    refine .failed (fun hmakes => hstill hmakes.clear)
      (hmade.trans honto (.refl fun place hmakes => ?_) hasked)
    have hclear := hmade.clear_iff.mp hmakes.clear
    rcases List.prefix_concat_iff.mp hmakes.onTheWay with rfl | hplace
    · exact absurd hclear hstill
    · exact hmade.made place ⟨haskedAbove, hplace, hclear⟩

/-- **Run.** Directories are made one after the other from the first that is missing, until the last is
made or one cannot be. -/
theorem ensureChain_ensuresAll (hgrounded : tree.Grounded) (hdots : ".." ∉ location)
    (hasked : (Path.ofLocation location).toString.utf8ByteSize ≤ pathLimit) :
    EnsuresAll tree location
      (eval (ensureChain location.length (.ofLocation location)) tree) := by
  induction location using List.reverseRecOn with
  | nil =>
    have hstep := ensures hnull hgrounded hdots hasked
    change EnsuresAll tree [] (eval (ensureDirectory (.ofLocation [])) tree)
    generalize eval (ensureDirectory (.ofLocation [])) tree = ending at hstep
    rcases hstep with ⟨hclear, hmade⟩ | ⟨hparent, -⟩ | ⟨hunclear, hmade, -⟩
    · exact .made ⟨hasked, List.prefix_rfl, hclear⟩ hmade
    · exact absurd node?_root hparent
    · exact .failed (fun hmakes => hunclear hmakes.clear) hmade
  | append_singleton above name ih =>
    have honto : above <+: above ++ [name] := List.prefix_append _ _
    have hchain := ih (hasNull_ofLocation_of_above honto hnull)
      (fun hmem => hdots (honto.subset hmem))
      ((Path.utf8ByteSize_ofLocation_mono honto).trans hasked)
    rw [List.length_append, List.length_singleton, ensureChain, eval_bind_ok (Action.eval_get tree)]
    have hstep := ensures hnull hgrounded hdots hasked
    rcases hfirst : eval (ensureDirectory (.ofLocation (above ++ [name]))) tree with ⟨result, after⟩
    have hrun : (ensureDirectory (.ofLocation (above ++ [name]))).run tree = (result, after) := hfirst
    rw [hfirst] at hstep
    rcases hstep with ⟨hclear, hmade⟩ | @⟨error, -, hcode⟩ | @⟨error, hunclear, hmade, hcode⟩
    · simp only [hrun, Action.eval_set]
      exact .made ⟨hasked, List.prefix_rfl, hclear⟩ hmade
    · simp only [hrun, if_pos hcode, Path.parent_ofLocation_append]
      exact hchain.next hgrounded hnull hdots hasked
    · simp only [hrun, if_neg hcode]
      exact .failed (fun hmakes => hunclear hmakes.clear) hmade

/-- **Making directories.** What can be made towards a directory is made, and nothing else is changed.
It ends well exactly if that is all. -/
theorem ensureDirectories_ensuresAll (hgrounded : tree.Grounded) (hdots : ".." ∉ location) :
    EnsuresAll tree location (eval (ensureDirectories (.ofLocation location)) tree) := by
  by_cases hasked : (Path.ofLocation location).toString.utf8ByteSize ≤ pathLimit
  · exact ensureChain_ensuresAll hnull hgrounded hdots hasked
  have hlocate : tree.locate (.ofLocation location) = .error .nameTooLong :=
    if_pos (Nat.not_le.mp hasked)
  obtain ⟨error, hcode, heval⟩ :=
    (eval_ensureDirectory_of_error (eval_makeDirectory_of_error hnull hlocate)).2 (by simp)
      fun hdirectory => hasked hdirectory.reachable.length
  have hchain : eval (ensureDirectories (.ofLocation location)) tree = (.error (.system error), tree) := by
    have hrun : (ensureDirectory (.ofLocation location)).run tree = (.error (.system error), tree) := heval
    unfold ensureDirectories
    cases (Path.ofLocation location).parts.length with
    | zero => exact heval
    | succ depth =>
      rw [ensureChain, eval_bind_ok (Action.eval_get tree)]
      simp only [hrun, if_neg hcode]
      rfl
  rw [hchain]
  exact .failed (fun hmakes => hasked hmakes.asked) (.refl fun _ hmakes => absurd hmakes.asked hasked)

end Making

end FileTree

end JarRefinery
