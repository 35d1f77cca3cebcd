import JarRefinery.Proofs.Evaluation
import Mathlib.Data.List.Basic

/-!
# Where paths lead

A path that leads anywhere leads where its names alone say, and every place that it passes is a
directory. What the operations on single nodes do to a tree is read off its nodes here, once for
each operation: it fails and leaves the tree, or it puts or erases the one node that its path names.
-/

namespace JarRefinery

namespace Path

theorem walk_append (location : Location) (front back : List String) :
    walk location (front ++ back) = walk (walk location front) back := by
  simp [walk]

/-- Names without double dots are simply gone through. -/
theorem walk_eq_append {parts : List String} (hparts : ".." ∉ parts) (location : Location) :
    walk location parts = location ++ parts := by
  induction parts generalizing location with
  | nil => simp [walk]
  | cons part rest ih =>
    simp only [List.mem_cons, not_or] at hparts
    have hpart : part ≠ ".." := fun heq => hparts.1 heq.symm
    have hstep : walk location (part :: rest) = walk (location ++ [part]) rest := by
      simp [walk, hpart]
    rw [hstep, ih hparts.2, List.append_assoc, List.singleton_append]

/-- Walking never comes to a name of double dots. -/
theorem dots_notMem_walk {location : Location} (hlocation : ".." ∉ location)
    (parts : List String) : ".." ∉ walk location parts := by
  induction parts generalizing location with
  | nil => exact hlocation
  | cons part rest ih =>
    apply ih
    by_cases hpart : part = ".."
    · simp only [hpart, if_true]
      exact fun hmem => hlocation (List.dropLast_subset _ hmem)
    · simp only [hpart, if_false, List.mem_append, List.mem_singleton, not_or]
      exact ⟨hlocation, fun heq => hpart heq.symm⟩

/-- Where the names of a path begin. -/
def start (here : Location) (path : Path) : Location :=
  if path.isAbsolute then [] else here

theorem normal_eq (here : Location) (path : Path) :
    path.normal here = walk (path.start here) path.parts :=
  rfl

theorem dots_notMem_start {here : Location} (hhere : ".." ∉ here) (path : Path) :
    ".." ∉ path.start here := by
  unfold start
  split
  · exact List.not_mem_nil
  · exact hhere

theorem dots_notMem_normal {here : Location} (hhere : ".." ∉ here) (path : Path) :
    ".." ∉ path.normal here :=
  dots_notMem_walk (dots_notMem_start hhere path) path.parts

theorem normal_ofLocation {location : Location} (hlocation : ".." ∉ location) (here : Location) :
    (ofLocation location).normal here = location := by
  rw [normal_eq]
  exact walk_eq_append hlocation []

theorem div_of_single {name : String} (hsingle : ofString name = ⟨"", [name]⟩) (path : Path) :
    path / name = ⟨path.root, path.parts ++ [name]⟩ := by
  change path.join (ofString name) = _
  rw [hsingle]
  rfl

theorem normal_div_of_single {name : String} (hsingle : ofString name = ⟨"", [name]⟩)
    (hdots : name ≠ "..") (path : Path) (here : Location) :
    (path / name).normal here = path.normal here ++ [name] := by
  rw [div_of_single hsingle, normal_eq, normal_eq, walk_append]
  simp [walk, hdots, start, isAbsolute]

/-- Every location that the path may lead to ends in this name. -/
def EndsIn (path : Path) (name : String) : Prop :=
  ∀ here, (path.normal here).getLast? = some name

theorem endsIn_of_parts {path : Path} {front : List String} {name : String}
    (hparts : path.parts = front ++ [name]) (hdots : name ≠ "..") : path.EndsIn name := by
  intro here
  rw [normal_eq, hparts, walk_append, walk_eq_append (by simpa using hdots.symm)]
  exact List.getLast?_concat

/-- The places that a path passes and the one that it leads to. -/
def trail (here : Location) (path : Path) : Set Location :=
  fun location => ∃ front back, path.parts = front ++ back ∧
    location = walk (path.start here) front

theorem normal_mem_trail (here : Location) (path : Path) :
    path.normal here ∈ path.trail here :=
  ⟨path.parts, [], (List.append_nil _).symm, rfl⟩

theorem trail_parent_subset (here : Location) (path : Path) :
    path.parent.trail here ⊆ path.trail here := by
  rintro location ⟨front, back, hparts, rfl⟩
  refine ⟨front, back ++ path.parts.drop (path.parts.length - 1), ?_, rfl⟩
  rw [← List.append_assoc, ← hparts]
  simp only [parent, List.dropLast_eq_take, List.take_append_drop]

end Path

namespace FileTree

open FileTree.Action (eval eval_bind)

variable {tree : FileTree}

/-! ### Nodes -/

theorem lookup_cons (place : Location) (entry : Location × Node) (rest : List (Location × Node)) :
    (entry :: rest).lookup place = if place = entry.1 then some entry.2 else rest.lookup place := by
  rw [List.lookup_cons]
  by_cases hplace : place = entry.1
  · simp [hplace]
  · have hne : (place == entry.1) = false := by simpa using hplace
    simp [hplace, hne]

theorem lookup_setNode (location place : Location) (node : Node) (nodes : List (Location × Node)) :
    (setNode location node nodes).lookup place =
      if place = location then some node else nodes.lookup place := by
  induction nodes with
  | nil => rw [setNode, lookup_cons]
  | cons entry rest ih =>
    unfold setNode
    by_cases hentry : entry.1 = location
    · rw [if_pos hentry, lookup_cons, lookup_cons, hentry]
      split <;> rfl
    · rw [if_neg hentry, lookup_cons, ih, lookup_cons]
      by_cases hplace : place = location
      · have hne : location ≠ entry.1 := fun heq => hentry heq.symm
        simp [hplace, hne]
      · simp [hplace]

theorem setNode_setNode (location : Location) (first second : Node)
    (nodes : List (Location × Node)) :
    setNode location second (setNode location first nodes) = setNode location second nodes := by
  induction nodes with
  | nil => simp [setNode]
  | cons entry rest ih =>
    by_cases hentry : entry.1 = location
    · simp [setNode, hentry]
    · simp [setNode, hentry, ih]

theorem lookup_filter (location place : Location) (nodes : List (Location × Node)) :
    (nodes.filter (·.1 ≠ location)).lookup place =
      if place = location then none else nodes.lookup place := by
  induction nodes with
  | nil => simp
  | cons entry rest ih =>
    by_cases hentry : entry.1 = location
    · rw [List.filter_cons_of_neg (by simp [hentry]), ih, lookup_cons, hentry]
      split <;> rfl
    · rw [List.filter_cons_of_pos (by simp [hentry]), lookup_cons, ih, lookup_cons]
      by_cases hplace : place = location
      · have hne : location ≠ entry.1 := fun heq => hentry heq.symm
        simp [hplace, hne]
      · simp [hplace]

@[simp]
theorem node?_root : tree.node? [] = some .directory :=
  if_pos rfl

theorem node?_put (location place : Location) (node : Node) :
    (tree.put location node).node? place =
      if place = [] then some .directory
      else if place = location then some node else tree.node? place := by
  by_cases hplace : place = []
  · simp [hplace]
  · simp only [node?, put, hplace, if_false, lookup_setNode]

/-- Only the last node that is put at a location counts. -/
@[simp]
theorem put_put (location : Location) (first second : Node) :
    (tree.put location first).put location second = tree.put location second := by
  simp [put, setNode_setNode]

theorem node?_erase (location place : Location) :
    (tree.erase location).node? place =
      if place = [] then some .directory
      else if place = location then none else tree.node? place := by
  by_cases hplace : place = []
  · simp [hplace]
  · simp only [node?, erase, hplace, if_false, lookup_filter]

@[simp]
theorem here_put (location : Location) (node : Node) : (tree.put location node).here = tree.here :=
  rfl

@[simp]
theorem here_erase (location : Location) : (tree.erase location).here = tree.here :=
  rfl

theorem isDirectoryAt_iff {location : Location} :
    tree.isDirectoryAt location = true ↔ tree.node? location = some .directory := by
  simp [isDirectoryAt]

/-! ### Paths -/

/-- Whether the names can be followed from a location: all that they pass are directories. -/
def Passable (tree : FileTree) : Location → List String → Prop
  | _, [] => True
  | location, part :: rest =>
    tree.node? location = some .directory ∧
      (part = ".." ∨ part.utf8ByteSize ≤ nameLimit) ∧
      tree.Passable (Path.walk location [part]) rest

theorem follow_eq_ok_iff {location found : Location} {parts : List String} :
    tree.follow location parts = .ok found ↔
      tree.Passable location parts ∧ found = Path.walk location parts := by
  induction parts generalizing location with
  | nil => simp [follow, Passable, Path.walk, eq_comm]
  | cons part rest ih =>
    unfold follow Passable
    rcases hnode : tree.node? location with _ | ⟨_ | ⟨contents, mode⟩⟩
    · simp
    · by_cases hdots : part = ".."
      · simp [hdots, ih, Path.walk]
      · by_cases hlong : nameLimit < part.utf8ByteSize
        · simp [hdots, hlong, Nat.not_le.mpr hlong]
        · simp [hdots, hlong, Nat.not_lt.mp hlong, ih, Path.walk]
    · simp

/-- A path that may be asked for leads somewhere, whether there is a node or not. -/
structure Reachable (tree : FileTree) (path : Path) : Prop where
  noNull : hasNull path = false
  length : path.toString.utf8ByteSize ≤ pathLimit
  passable : tree.Passable (path.start tree.here) path.parts

theorem locate_eq_ok_iff {path : Path} {found : Location} :
    tree.locate path = .ok found ↔
      path.toString.utf8ByteSize ≤ pathLimit ∧
        tree.Passable (path.start tree.here) path.parts ∧ found = path.normal tree.here := by
  unfold locate
  by_cases hlong : pathLimit < path.toString.utf8ByteSize
  · simp [hlong, Nat.not_le.mpr hlong]
  · rw [if_neg hlong, follow_eq_ok_iff]
    simp only [Nat.not_lt.mp hlong, true_and]
    rfl

/-- Names can be followed as long as the directories stay that they pass. -/
theorem Passable.mono_trail {after : FileTree} {location : Location} {parts : List String}
    (hpass : tree.Passable location parts)
    (hkept : ∀ front back, parts = front ++ back →
      tree.node? (Path.walk location front) = some .directory →
      after.node? (Path.walk location front) = some .directory) :
    after.Passable location parts := by
  induction parts generalizing location with
  | nil => trivial
  | cons part rest ih =>
    refine ⟨hkept [] (part :: rest) rfl hpass.1, hpass.2.1, ih hpass.2.2 ?_⟩
    exact fun front back hparts => hkept (part :: front) back (congrArg (part :: ·) hparts)

theorem Passable.mono {after : FileTree}
    (hkept : ∀ location, tree.node? location = some .directory →
      after.node? location = some .directory)
    {location : Location} {parts : List String} (hpass : tree.Passable location parts) :
    after.Passable location parts :=
  hpass.mono_trail fun _ _ _ => hkept _

/-- Paths lead where they led as long as directories stay. -/
theorem Reachable.mono {after : FileTree} {path : Path} (hreach : tree.Reachable path)
    (hhere : after.here = tree.here)
    (hkept : ∀ location, tree.node? location = some .directory →
      after.node? location = some .directory) :
    after.Reachable path :=
  ⟨hreach.noNull, hreach.length, by rw [hhere]; exact hreach.passable.mono hkept⟩

theorem Reachable.locate {path : Path} (hreach : tree.Reachable path) :
    tree.locate path = .ok (path.normal tree.here) :=
  locate_eq_ok_iff.mpr ⟨hreach.length, hreach.passable, rfl⟩

theorem Reachable.of_locate {path : Path} {found : Location} (hnull : hasNull path = false)
    (hfound : tree.locate path = .ok found) :
    tree.Reachable path ∧ found = path.normal tree.here :=
  have hparts := locate_eq_ok_iff.mp hfound
  ⟨⟨hnull, hparts.1, hparts.2.1⟩, hparts.2.2⟩

theorem Passable.append {location : Location} {front back : List String} :
    tree.Passable location (front ++ back) ↔
      tree.Passable location front ∧ tree.Passable (Path.walk location front) back := by
  induction front generalizing location with
  | nil => simp [Passable, Path.walk]
  | cons part rest ih =>
    simp only [List.cons_append, Passable, ih, and_assoc]
    rfl

theorem eval_locating_eq (tree : FileTree) (path : Path) :
    eval (locating path) tree =
      (if hasNull path then .error .nullByte
        else (tree.locate path).mapError fun code => .system ⟨code, some path.toString, none⟩,
        tree) := by
  unfold locating
  by_cases hnull : hasNull path = true
  · simp [hnull]
  · rcases hlocate : tree.locate path with code | location <;>
      simp [hnull, eval_bind, hlocate, fail, Except.mapError]

theorem eval_locating (tree : FileTree) (path : Path) :
    (tree.Reachable path ∧ eval (locating path) tree = (.ok (path.normal tree.here), tree)) ∨
      (¬tree.Reachable path ∧ ∃ error, eval (locating path) tree = (.error error, tree)) := by
  by_cases hnull : hasNull path = true
  · refine .inr ⟨fun hreach => ?_, .nullByte, ?_⟩
    · simp [hreach.noNull] at hnull
    · simp [locating, hnull]
  · rw [Bool.not_eq_true] at hnull
    rcases hfound : tree.locate path with code | found
    · refine .inr ⟨fun hreach => ?_, .system ⟨code, some path.toString, none⟩, ?_⟩
      · simp [hreach.locate] at hfound
      · simp [locating, hnull, eval_bind, hfound, fail]
    · obtain ⟨hreach, rfl⟩ := Reachable.of_locate hnull hfound
      exact .inl ⟨hreach, by simp [locating, hnull, eval_bind, hfound]⟩

theorem locating_ok {tree : FileTree} {path : Path} {location : Location}
    (hresult : (eval (locating path) tree).1 = .ok location) : location = path.normal tree.here := by
  rcases eval_locating tree path with ⟨-, heval⟩ | ⟨-, error, heval⟩
  · rw [heval] at hresult
    exact (Except.ok.inj hresult).symm
  · rw [heval] at hresult
    cases hresult

theorem Reachable.eval_locating {path : Path} (hreach : tree.Reachable path) :
    eval (locating path) tree = (.ok (path.normal tree.here), tree) := by
  rcases FileTree.eval_locating tree path with ⟨-, heval⟩ | ⟨hnot, -⟩
  · exact heval
  · exact absurd hreach hnot

end FileTree

end JarRefinery
