import JarRefinery.Proofs.Files.Finding
import JarRefinery.Proofs.Payloads

/-!
# The first jar

The payload of an unpacked bundle is a jar below `versions` that no other comes before, name by name
and not character by character: `a` comes before `a!`, so `a/x.jar` comes before `a!/x.jar`. In which
order the directories are listed makes no difference.
-/

namespace JarRefinery

namespace FileTree

variable {tree other : FileTree} {location : Location} {node : Node}

/-! ### Trees with one node at a place -/

/-- No two nodes are at one place. -/
def Distinct (tree : FileTree) : Prop :=
  (tree.nodes.map Prod.fst).Nodup

instance : Decidable tree.Distinct :=
  inferInstanceAs (Decidable (List.Nodup _))

theorem lookup_eq_some_iff_mem {nodes : List (Location × Node)}
    (hdistinct : (nodes.map Prod.fst).Nodup) :
    nodes.lookup location = some node ↔ (location, node) ∈ nodes := by
  induction nodes with
  | nil => simp
  | cons entry rest ih =>
    obtain ⟨place, found⟩ := entry
    rw [List.map_cons, List.nodup_cons] at hdistinct
    rw [lookup_cons, List.mem_cons, Prod.mk.injEq]
    dsimp only
    split
    · rename_i hplace
      subst hplace
      have hrest : (location, node) ∉ rest := fun hmem =>
        hdistinct.1 (List.mem_map.mpr ⟨_, hmem, rfl⟩)
      simp [hrest, eq_comm]
    · rename_i hplace
      simp [hplace, ih hdistinct.2]

theorem Distinct.node?_eq_some_iff (hdistinct : tree.Distinct) (hlocation : location ≠ []) :
    tree.node? location = some node ↔ (location, node) ∈ tree.nodes := by
  rw [node?, if_neg hlocation]
  exact lookup_eq_some_iff_mem hdistinct

/-- What is below a place is what its names lead to from there. -/
theorem Distinct.mem_below_iff (hdistinct : tree.Distinct) {names : List String} :
    (names, node) ∈ tree.below location ↔
      names ≠ [] ∧ tree.node? (location ++ names) = some node := by
  unfold below
  rw [List.mem_filterMap]
  constructor
  · rintro ⟨⟨place, found⟩, hmem, hplace⟩
    simp only [Option.ite_none_right_eq_some, Option.some.injEq, Prod.mk.injEq] at hplace
    obtain ⟨⟨hstarts, hne⟩, rfl, rfl⟩ := hplace
    obtain ⟨names, rfl⟩ := List.isPrefixOf_iff_prefix.mp hstarts
    have hnames : names ≠ [] := by simpa using hne
    rw [List.drop_left]
    exact ⟨hnames, (hdistinct.node?_eq_some_iff (by simp [hnames])).mpr hmem⟩
  · rintro ⟨hnames, hnode⟩
    refine ⟨(location ++ names, node), (hdistinct.node?_eq_some_iff (by simp [hnames])).mp hnode, ?_⟩
    simp [hnames]

/-- Trees that list the same nodes have the same node at every place. -/
theorem Distinct.node?_perm (hdistinct : tree.Distinct) (hperm : other.nodes.Perm tree.nodes)
    (location : Location) : other.node? location = tree.node? location := by
  by_cases hlocation : location = []
  · rw [hlocation, node?_root, node?_root]
  have hother : other.Distinct := (hperm.map Prod.fst).nodup_iff.mpr hdistinct
  refine Option.ext fun node => ?_
  rw [hother.node?_eq_some_iff hlocation, hdistinct.node?_eq_some_iff hlocation]
  exact hperm.mem_iff

section Congruence

variable (hsame : ∀ location, other.node? location = tree.node? location)

include hsame

theorem follow_congr (location : Location) (parts : List String) :
    other.follow location parts = tree.follow location parts := by
  induction parts generalizing location with
  | nil => rfl
  | cons part rest ih => rw [follow, follow, hsame, ih, ih]

variable (hhere : other.here = tree.here) (path : Path)

include hhere

theorem tooLong_congr : other.TooLong path ↔ tree.TooLong path := by
  unfold TooLong locate
  rw [hhere, follow_congr hsame]

theorem hasDirectory_congr : other.HasDirectory path ↔ tree.HasDirectory path :=
  ⟨fun hother => hother.of_trail hhere.symm fun _ _ hnode => (hsame _).symm.trans hnode,
    fun htree => htree.of_trail hhere fun _ _ hnode => (hsame _).trans hnode⟩

end Congruence

end FileTree

namespace Package

/-! ### The least of some lists of names -/

theorem least?_perm {lists others : List (List String)} (hperm : others.Perm lists) :
    least? others = least? lists := by
  rcases hothers : least? others with _ | names <;> rcases hlists : least? lists with _ | least
  · rfl
  · rw [least?_eq_none_iff.mp hothers] at hperm
    simpa using hperm.mem_iff.mpr (least?_mem hlists)
  · rw [least?_eq_none_iff.mp hlists] at hperm
    simpa using hperm.mem_iff.mp (least?_mem hothers)
  · have hle : names ≤ least := least?_le hothers (hperm.mem_iff.mpr (least?_mem hlists))
    have hge : least ≤ names := least?_le hlists (hperm.mem_iff.mp (least?_mem hothers))
    rw [hle.antisymm hge]

/-! ### Jars below a directory -/

/-- These names lead from the directory to a file that has the name of a jar. -/
def LeadToJar (files : FileTree) (directory : Path) (names : List String) : Prop :=
  ∃ front last contents mode, names = front ++ [last] ∧ Text.endsWith ".jar" last = true ∧
    files.node? (directory.normal files.here ++ names) = some (.file contents mode)

theorem mem_jarsBelow_iff {files : FileTree} (hdistinct : files.Distinct) {directory : Path}
    {names : List String} :
    names ∈ jarsBelow files (directory.normal files.here) ↔ LeadToJar files directory names := by
  constructor
  · intro hnames
    obtain ⟨⟨contents, mode, hmem⟩, front, last, hlast, hends⟩ := of_mem_jarsBelow hnames
    exact ⟨front, last, contents, mode, hlast, hends, (hdistinct.mem_below_iff.mp hmem).2⟩
  · rintro ⟨front, last, contents, mode, rfl, hends, hnode⟩
    refine List.mem_filterMap.mpr ⟨(front ++ [last], .file contents mode), ?_, ?_⟩
    · exact hdistinct.mem_below_iff.mpr ⟨by simp, hnode⟩
    · simp [hends]

variable {host : Host} {world : World} {directory : Path}

/-! ### The three ways of searching -/

theorem eval_findPayload_tooLong (hlong : world.files.TooLong (directory / payloadsDirectory)) :
    (findPayload directory).eval host world =
      (.error (.ofFile (.system
        ⟨.nameTooLong, some (directory / payloadsDirectory).toString, none⟩)), world) := by
  unfold findPayload
  rw [Action.eval_bind, Action.eval_onFiles]
  rcases world.files.isDirectory_cases (directory / payloadsDirectory) with
    ⟨hshort, -⟩ | ⟨-, heval⟩
  · exact absurd hlong hshort
  · rw [heval]
    rfl

theorem eval_findPayload_absent (hshort : ¬world.files.TooLong (directory / payloadsDirectory))
    (habsent : ¬world.files.HasDirectory (directory / payloadsDirectory)) :
    (findPayload directory).eval host world = (.ok none, world) := by
  unfold findPayload
  rw [Action.eval_bind, Action.eval_onFiles]
  rcases world.files.isDirectory_cases (directory / payloadsDirectory) with
    ⟨-, found, heval, hfound⟩ | ⟨hlong, -⟩
  · obtain rfl : found = false := Bool.eq_false_iff.mpr fun htrue => habsent (hfound.mp htrue)
    rw [heval]
    rfl
  · exact absurd hlong hshort

theorem eval_findPayload_present
    (hdirectory : world.files.HasDirectory (directory / payloadsDirectory)) :
    (findPayload directory).eval host world =
      (.ok ((least? (jarsBelow world.files
          ((directory / payloadsDirectory).normal world.files.here))).map fun names =>
        ⟨(directory / payloadsDirectory).root, (directory / payloadsDirectory).parts ++ names⟩),
        world) := by
  unfold findPayload
  rw [Action.eval_bind, Action.eval_onFiles, hdirectory.eval_isDirectory]
  simp only [Except.mapError, if_true]
  rw [Action.eval_bind, Action.eval_onFiles, hdirectory.reachable.eval_locating]
  rfl

/-- The world whose nodes are listed like this. -/
def listing (world : World) (nodes : List (Location × Node)) : World :=
  { world with files := { world.files with nodes } }

/-- In which order the nodes of a tree are listed does not change what is found. -/
theorem findPayload_perm (hdistinct : world.files.Distinct) {nodes : List (Location × Node)}
    (hperm : nodes.Perm world.files.nodes) :
    (findPayload directory).eval host (listing world nodes) =
      (((findPayload directory).eval host world).1, listing world nodes) := by
  set listed := listing world nodes
  have hsame : ∀ location, listed.files.node? location = world.files.node? location :=
    fun location => hdistinct.node?_perm hperm location
  have hlong := FileTree.tooLong_congr hsame rfl (directory / payloadsDirectory)
  have hdirectory := FileTree.hasDirectory_congr hsame rfl (directory / payloadsDirectory)
  have hjars : ∀ location, (jarsBelow listed.files location).Perm (jarsBelow world.files location) :=
    fun location => (hperm.filterMap _).filterMap _
  by_cases hlongs : world.files.TooLong (directory / payloadsDirectory)
  · rw [eval_findPayload_tooLong hlongs, eval_findPayload_tooLong (hlong.mpr hlongs)]
  by_cases hfound : world.files.HasDirectory (directory / payloadsDirectory)
  · rw [eval_findPayload_present hfound, eval_findPayload_present (hdirectory.mpr hfound),
      least?_perm (hjars _)]
    rfl
  · rw [eval_findPayload_absent hlongs hfound,
      eval_findPayload_absent (mt hlong.mp hlongs) (mt hdirectory.mp hfound)]

/-- A tree with a directory that has the name of a jar, and with names that go on before a slash
would. -/
def crowded : FileTree where
  nodes := [(["work"], .directory), (["work", "unpacked"], .directory),
    (["work", "unpacked", "versions"], .directory),
    (["work", "unpacked", "versions", "a!"], .directory),
    (["work", "unpacked", "versions", "a!", "x.jar"], .file [1] 0o644),
    (["work", "unpacked", "versions", "a"], .directory),
    (["work", "unpacked", "versions", "a", "y.jar"], .directory),
    (["work", "unpacked", "versions", "a", "y.jar", "z.jar"], .file [2] 0o644),
    (["work", "unpacked", "versions", "A.JAR"], .file [3] 0o644)]
  here := ["work"]

end Package

end JarRefinery
