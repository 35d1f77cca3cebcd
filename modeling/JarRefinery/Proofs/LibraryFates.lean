import JarRefinery.Proofs.Landing
import JarRefinery.Proofs.LibraryPlaces

/-!
# What becomes of a library

It is settled by the tree that the first fetch finds: whether the path of the library is taken, whether
something is at its place, whether the directories above can be made and whether the network delivers
it. Other libraries only make directories that it would make itself, and put their files where it
neither looks nor goes, if their places are apart. So to each of them the tree is as good as the first
one, whatever others have left in it.
-/

namespace JarRefinery

open FileTree (Made Makes Roomy siblingName siblingTries hasNull)

/-! ### Places of libraries -/

/-- Walking comes to no names but those that it begins with and those that it is given. -/
theorem Path.mem_walk {location : Location} {parts : List String} {name : String}
    (hname : name ∈ Path.walk location parts) : name ∈ location ∨ name ∈ parts := by
  induction parts generalizing location with
  | nil => exact .inl hname
  | cons part rest ih =>
    rcases ih hname with hstep | hrest
    · dsimp only at hstep
      split at hstep
      · exact .inl (List.dropLast_subset _ hstep)
      · refine (List.mem_append.mp hstep).imp_right fun hpart => ?_
        rw [List.mem_singleton.mp hpart]
        exact List.mem_cons_self
    · exact .inr (List.mem_cons_of_mem _ hrest)

namespace Workspace

/-- The place that the path of a library is taken to, if it is not refused. -/
def place? (workspace : Workspace) (here : Location) (relative : String) : Option Location :=
  let base := workspace.librariesDirectory.normal here
  let place := (workspace.librariesDirectory / relative).normal here
  if hasNull (workspace.librariesDirectory / relative) = false ∧
      hasNull workspace.librariesDirectory = false ∧ Path.StrictlyBelow base place then
    some place
  else none

variable {host : Host} {workspace : Workspace} {here place : Location} {relative : String} {world : World}

theorem eval_library_place (hplace : workspace.place? world.files.here relative = some place) :
    (workspace.library relative).eval host world = (.ok (.ofLocation place), world) := by
  obtain ⟨⟨hnull, hbaseNull, hbelow⟩, hsome⟩ := Option.ite_none_right_eq_some.mp hplace
  obtain rfl := Option.some.inj hsome
  unfold library
  rw [Action.eval_bind_ok (Action.eval_resolve hnull), Action.eval_bind_ok (Action.eval_resolve hbaseNull)]
  exact congrFun₂ (congrArg Action.eval (if_pos (Path.strictlyBelow_iff.mp hbelow))) host world

theorem eval_library_refused (hrefused : workspace.place? world.files.here relative = none) :
    ∃ fault, (workspace.library relative).eval host world = (.error fault, world) ∧
      fault.isA .valueError = true := by
  unfold library
  cases hnull : hasNull (workspace.librariesDirectory / relative) with
  | true => exact ⟨_, Action.eval_bind_error (Action.eval_resolve_null hnull), rfl⟩
  | false =>
    rw [Action.eval_bind_ok (Action.eval_resolve hnull)]
    cases hbaseNull : hasNull workspace.librariesDirectory with
    | true => exact ⟨_, Action.eval_bind_error (Action.eval_resolve_null hbaseNull), rfl⟩
    | false =>
      rw [Action.eval_bind_ok (Action.eval_resolve hbaseNull)]
      have hnot : ¬Path.StrictlyBelow (workspace.librariesDirectory.normal world.files.here)
          ((workspace.librariesDirectory / relative).normal world.files.here) := fun hbelow => by
        simp [place?, hnull, hbaseNull, hbelow] at hrefused
      exact ⟨_, congrFun₂ (congrArg Action.eval
        (if_neg fun hboth => hnot (Path.strictlyBelow_iff.mpr hboth))) host world, rfl⟩

/-- The place of a library has a name of its own, and can be asked for as it was written. -/
theorem place?_spec (hhere : hasNull (.ofLocation here) = false) (hrooted : ".." ∉ here)
    (hplace : workspace.place? here relative = some place) :
    place ≠ [] ∧ ".." ∉ place ∧ hasNull (.ofLocation place) = false := by
  obtain ⟨⟨hnull, -, names, hnames, hbelow⟩, hsome⟩ := Option.ite_none_right_eq_some.mp hplace
  obtain rfl := Option.some.inj hsome
  refine ⟨by rw [hbelow]; simp [hnames], Path.dots_notMem_normal hrooted _, ?_⟩
  rw [hasNull, List.any_eq_false] at hnull hhere ⊢
  intro name hname
  rcases Path.mem_walk hname with hstart | hpart
  · split at hstart
    · exact absurd hstart List.not_mem_nil
    · exact hhere name hstart
  · exact hnull name hpart

end Workspace

/-- Neither place is the other one or above it. -/
def Location.Apart (place other : Location) : Prop :=
  ¬place <+: other ∧ ¬other <+: place

instance (place other : Location) : Decidable (place.Apart other) :=
  inferInstanceAs (Decidable (_ ∧ _))

namespace Release

open Http (Obtains)

/-! ### What becomes of a library -/

section Fate

variable (host : Host) (maxAttempts : Int) (workspace : Workspace) (files : FileTree)
  (dependency : Dependency)

/-- Nothing is at the place of the library yet. -/
structure Missing (directory : Location) (name : String) : Prop where
  place : workspace.place? files.here dependency.path = some (directory ++ [name])
  free : files.node? (directory ++ [name]) = none

/-- The nodes that the library leaves in these files. -/
inductive Leaves : Location → Node → Prop
  | directory {directory location : Location} {name : String} :
    Missing workspace files dependency directory name → files.Makes directory location →
    Leaves location .directory
  | file {directory : Location} {name : String} {body : Bytes} :
    Missing workspace files dependency directory name →
    Obtains host maxAttempts dependency.url [] files directory name body →
    Leaves (directory ++ [name]) (.file body 0o600)

/-- How fetching the library to these files ends. -/
inductive Fate : LibraryStatus → Path → Prop
  | refused : workspace.place? files.here dependency.path = none →
    Fate .failed workspace.librariesDirectory
  | present {place : Location} : workspace.place? files.here dependency.path = some place →
    files.node? place ≠ none → Fate .present (.ofLocation place)
  | downloaded {directory : Location} {name : String} {body : Bytes} :
    Missing workspace files dependency directory name →
    Obtains host maxAttempts dependency.url [] files directory name body →
    Fate .downloaded (.ofLocation (directory ++ [name]))
  | failed {directory : Location} {name : String} :
    Missing workspace files dependency directory name →
    (∀ body, ¬Obtains host maxAttempts dependency.url [] files directory name body) →
    Fate .failed (.ofLocation (directory ++ [name]))

end Fate

variable {host : Host} {maxAttempts : Int} {workspace : Workspace} {files tree : FileTree}
  {dependency other : Dependency} {done : List Dependency}

theorem Missing.unique {directory directory' : Location} {name name' : String}
    (hmissing : Missing workspace files dependency directory name)
    (hother : Missing workspace files dependency directory' name') :
    directory = directory' ∧ name = name' := by
  have hplace := Option.some.inj (hmissing.place.symm.trans hother.place)
  simpa using List.append_inj' hplace rfl

/-- A library that is missing is downloaded if it can be, and fails otherwise. -/
theorem Fate.of_missing {directory : Location} {name : String} {status : LibraryStatus} {path : Path}
    (hmissing : Missing workspace files dependency directory name)
    (hfate : Fate host maxAttempts workspace files dependency status path) :
    path = .ofLocation (directory ++ [name]) ∧
      ((status = .downloaded ∧
          ∃ body, Obtains host maxAttempts dependency.url [] files directory name body) ∨
        (status = .failed ∧
          ∀ body, ¬Obtains host maxAttempts dependency.url [] files directory name body)) := by
  cases hfate with
  | refused hnone => simp [hmissing.place] at hnone
  | present hplace hthere =>
    obtain rfl := Option.some.inj (hmissing.place.symm.trans hplace)
    exact absurd hmissing.free hthere
  | downloaded hmissing' hobtains =>
    obtain ⟨rfl, rfl⟩ := hmissing.unique hmissing'
    exact ⟨rfl, .inl ⟨rfl, _, hobtains⟩⟩
  | failed hmissing' hnot =>
    obtain ⟨rfl, rfl⟩ := hmissing.unique hmissing'
    exact ⟨rfl, .inr ⟨rfl, hnot⟩⟩

/-- There is only one way for it to end. -/
theorem Fate.unique {status status' : LibraryStatus} {path path' : Path}
    (hfate : Fate host maxAttempts workspace files dependency status path)
    (hother : Fate host maxAttempts workspace files dependency status' path') :
    status = status' ∧ path = path' := by
  cases hfate with
  | refused hnone =>
    cases hother with
    | refused => exact ⟨rfl, rfl⟩
    | present hplace => simp [hnone] at hplace
    | downloaded hmissing | failed hmissing => simp [hmissing.place] at hnone
  | present hplace hthere =>
    cases hother with
    | refused hnone => simp [hnone] at hplace
    | present hplace' => exact ⟨rfl, congrArg _ (Option.some.inj (hplace.symm.trans hplace'))⟩
    | downloaded hmissing | failed hmissing =>
      obtain rfl := Option.some.inj (hmissing.place.symm.trans hplace)
      exact absurd hmissing.free hthere
  | downloaded hmissing hobtains =>
    obtain ⟨rfl, ⟨rfl, -⟩ | ⟨-, hnot⟩⟩ := hother.of_missing hmissing
    · exact ⟨rfl, rfl⟩
    · exact absurd hobtains (hnot _)
  | failed hmissing hnot =>
    obtain ⟨rfl, ⟨-, body, hobtains⟩ | ⟨rfl, -⟩⟩ := hother.of_missing hmissing
    · exact absurd hobtains (hnot body)
    · exact ⟨rfl, rfl⟩

theorem Leaves.missing {location : Location} {node : Node}
    (hleaves : Leaves host maxAttempts workspace files dependency location node) :
    ∃ directory name, Missing workspace files dependency directory name := by
  cases hleaves with
  | directory hmissing | file hmissing => exact ⟨_, _, hmissing⟩

/-- A library that is missing leaves the directories that can be made, and the file that is
obtained. -/
theorem Leaves.of_missing {directory location : Location} {name : String} {node : Node}
    (hmissing : Missing workspace files dependency directory name)
    (hleaves : Leaves host maxAttempts workspace files dependency location node) :
    (node = .directory ∧ files.Makes directory location) ∨
      (location = directory ++ [name] ∧ ∃ body, node = .file body 0o600 ∧
        Obtains host maxAttempts dependency.url [] files directory name body) := by
  cases hleaves with
  | directory hmissing' hmakes =>
    obtain ⟨rfl, rfl⟩ := hmissing.unique hmissing'
    exact .inl ⟨rfl, hmakes⟩
  | file hmissing' hobtains =>
    obtain ⟨rfl, rfl⟩ := hmissing.unique hmissing'
    exact .inr ⟨rfl, _, rfl, hobtains⟩

/-- What the library leaves is at its place or above it. -/
theorem Leaves.onTheWay {location : Location} {node : Node}
    (hleaves : Leaves host maxAttempts workspace files dependency location node) :
    ∃ place, workspace.place? files.here dependency.path = some place ∧ location <+: place := by
  cases hleaves with
  | directory hmissing hmakes =>
    exact ⟨_, hmissing.place, hmakes.onTheWay.trans (List.prefix_append _ _)⟩
  | file hmissing => exact ⟨_, hmissing.place, List.prefix_rfl⟩

theorem Leaves.noFile {location : Location} {node : Node}
    (hleaves : Leaves host maxAttempts workspace files dependency location node) (contents : Bytes)
    (mode : Nat) : files.node? location ≠ some (.file contents mode) := by
  cases hleaves with
  | directory _ hmakes => exact hmakes.clear.noFile _ List.prefix_rfl contents mode
  | file hmissing => simp [hmissing.free]

/-- A file is left at the place of the library alone. -/
theorem Leaves.file_place {location : Location} {contents : Bytes} {mode : Nat}
    (hleaves : Leaves host maxAttempts workspace files dependency location (.file contents mode)) :
    workspace.place? files.here dependency.path = some location := by
  cases hleaves with
  | file hmissing => exact hmissing.place

/-- The places of two libraries, if they have any, are apart. -/
def Separate (workspace : Workspace) (here : Location) (dependency other : Dependency) : Prop :=
  ∀ place ∈ workspace.place? here dependency.path, ∀ place' ∈ workspace.place? here other.path,
    Location.Apart place place'

instance (workspace : Workspace) (here : Location) (dependency other : Dependency) :
    Decidable (Separate workspace here dependency other) :=
  inferInstanceAs (Decidable (∀ place ∈ _, ∀ place' ∈ _, _))

theorem Separate.symm {here : Location} (hseparate : Separate workspace here dependency other) :
    Separate workspace here other dependency :=
  fun place hplace place' hplace' => (hseparate place' hplace' place hplace).symm

/-- Libraries whose places are apart leave the same where both leave something. -/
theorem Leaves.agree {location : Location} {node node' : Node}
    (hseparate : Separate workspace files.here dependency other)
    (hleaves : Leaves host maxAttempts workspace files dependency location node)
    (hother : Leaves host maxAttempts workspace files other location node') : node = node' := by
  obtain ⟨place, hplace, habove⟩ := hleaves.onTheWay
  obtain ⟨place', hplace', habove'⟩ := hother.onTheWay
  have hapart := hseparate place hplace place' hplace'
  have hdirectory : ∀ {dependency : Dependency} {location : Location} {node : Node},
      Leaves host maxAttempts workspace files dependency location node →
      workspace.place? files.here dependency.path ≠ some location → node = .directory := by
    rintro dependency location node (_ | hmissing) hne
    · rfl
    · exact absurd hmissing.place hne
  rw [hdirectory hleaves, hdirectory hother]
  · rintro hlocation
    obtain rfl := Option.some.inj (hplace'.symm.trans hlocation)
    exact hapart.2 habove
  · rintro hlocation
    obtain rfl := Option.some.inj (hplace.symm.trans hlocation)
    exact hapart.1 habove'

/-! ### What some libraries leave -/

/-- Where a temporary name beside the place of the library is free, one is free that no place of the
others is at or below. -/
def KeepsSpare (workspace : Workspace) (files : FileTree) (others : List Dependency)
    (dependency : Dependency) : Prop :=
  ∀ directory name, workspace.place? files.here dependency.path = some (directory ++ [name]) →
    (∃ n < siblingTries, files.node? (directory ++ [siblingName name n]) = none) →
    ∃ n < siblingTries, files.node? (directory ++ [siblingName name n]) = none ∧
      ∀ other ∈ others, ∀ place ∈ workspace.place? files.here other.path,
        ¬directory ++ [siblingName name n] <+: place

theorem KeepsSpare.of_subset {others fewer : List Dependency}
    (hspare : KeepsSpare workspace files others dependency) (hsubset : fewer ⊆ others) :
    KeepsSpare workspace files fewer dependency := fun directory name hplace hfree =>
  let ⟨n, hn, hnone, hnowhere⟩ := hspare directory name hplace hfree
  ⟨n, hn, hnone, fun other hother => hnowhere other (hsubset hother)⟩

/-- Fewer nodes and libraries than temporary names leave one of these free. -/
theorem keepsSpare_of_length_lt {others : List Dependency} (dependency : Dependency)
    (hfew : files.nodes.length + others.length < siblingTries) :
    KeepsSpare workspace files others dependency := by
  intro directory name _ _
  by_contra hnone
  let names := (List.range siblingTries).map fun n => directory ++ [siblingName name n]
  let places := others.filterMap fun other => workspace.place? files.here other.path
  let taken := files.nodes.map Prod.fst ++ places.map (List.take (directory.length + 1))
  have htaken : names ⊆ taken := by
    intro location hlocation
    obtain ⟨n, hn, rfl⟩ := List.mem_map.mp hlocation
    by_contra hmem
    obtain ⟨hnodes, hplaces⟩ := not_or.mp (List.mem_append.not.mp hmem)
    refine hnone ⟨n, List.mem_range.mp hn, ?_, fun other hother place hplace honto => hplaces ?_⟩
    · rw [FileTree.node?, if_neg (by simp), List.lookup_eq_none_iff]
      exact fun entry hentry =>
        bne_iff_ne.mpr fun heq => hnodes (List.mem_map.mpr ⟨entry, hentry, heq.symm⟩)
    · refine List.mem_map.mpr ⟨place, List.mem_filterMap.mpr ⟨other, hother, hplace⟩, ?_⟩
      simpa using (List.prefix_iff_eq_take.mp honto).symm
  have hnodup : names.Nodup :=
    List.nodup_range.map fun n m heq => FileTree.siblingName_injective name (by simpa using heq)
  have hlength : names.length ≤ taken.length := (List.subperm_of_subset hnodup htaken).length_le
  have hplaces : places.length ≤ others.length := List.length_filterMap_le _ others
  simp only [names, taken, List.length_map, List.length_range, List.length_append] at hlength
  omega

/-- The tree that fetching these libraries, in whatever order, makes of the files. -/
structure Reached (host : Host) (maxAttempts : Int) (workspace : Workspace) (files : FileTree)
    (done : List Dependency) (tree : FileTree) : Prop where
  here : tree.here = files.here
  grounded : tree.Grounded
  left : ∀ dependency ∈ done, ∀ location node,
    Leaves host maxAttempts workspace files dependency location node →
      tree.node? location = some node
  same : ∀ location, (∀ dependency ∈ done, ∀ node,
    ¬Leaves host maxAttempts workspace files dependency location node) →
      tree.node? location = files.node? location

theorem Reached.start (host : Host) (maxAttempts : Int) (workspace : Workspace)
    (hgrounded : files.Grounded) : Reached host maxAttempts workspace files [] files :=
  ⟨rfl, hgrounded, by simp, fun _ _ => rfl⟩

namespace Reached

variable (hreached : Reached host maxAttempts workspace files done tree)

include hreached

/-- What is at a place was left there by one of the libraries, or it is what it was. -/
theorem left_or_same (location : Location) :
    (∃ other ∈ done, ∃ node, Leaves host maxAttempts workspace files other location node ∧
      tree.node? location = some node) ∨
    ((∀ other ∈ done, ∀ node, ¬Leaves host maxAttempts workspace files other location node) ∧
      tree.node? location = files.node? location) := by
  by_cases hleft : ∃ other ∈ done, ∃ node,
      Leaves host maxAttempts workspace files other location node
  · obtain ⟨other, hdone, node, hleaves⟩ := hleft
    exact .inl ⟨other, hdone, node, hleaves, hreached.left other hdone location node hleaves⟩
  · have hnone : ∀ other ∈ done, ∀ node,
        ¬Leaves host maxAttempts workspace files other location node :=
      fun other hdone node hleaves => hleft ⟨other, hdone, node, hleaves⟩
    exact .inr ⟨hnone, hreached.same location hnone⟩

/-- Two trees that the same libraries are left in have the same nodes. -/
theorem node?_eq {others : List Dependency} {other : FileTree}
    (hother : Reached host maxAttempts workspace files others other)
    (hmem : ∀ dependency, dependency ∈ others ↔ dependency ∈ done) (location : Location) :
    other.node? location = tree.node? location := by
  rcases hreached.left_or_same location with ⟨dependency, hdone, node, hleaves, hnode⟩ | ⟨hnone, hsame⟩
  · rw [hnode, hother.left dependency ((hmem _).mpr hdone) location node hleaves]
  · rw [hsame, hother.same location fun dependency hdone => hnone dependency ((hmem _).mp hdone)]

/-- What is free was free before. -/
theorem free {location : Location} (hfree : tree.node? location = none) :
    files.node? location = none := by
  rcases hreached.left_or_same location with ⟨_, _, node, _, hnode⟩ | ⟨-, hsame⟩
  · simp [hnode] at hfree
  · rwa [hsame] at hfree

/-- There is as much room beside the place of a library as there was. -/
theorem roomy_iff {directory : Location} {name : String}
    (hspare : KeepsSpare workspace files done dependency)
    (hplace : workspace.place? files.here dependency.path = some (directory ++ [name])) :
    tree.Roomy directory name ↔ files.Roomy directory name := by
  refine ⟨.congr fun n _ hfree => hreached.free hfree, fun hroomy => ?_⟩
  obtain ⟨n, hn, hfree, hnowhere⟩ := hspare directory name hplace hroomy.spare
  refine ⟨hroomy.nameLength, hroomy.pathLength, n, hn, ?_⟩
  refine (hreached.same _ fun other hdone node hleaves => ?_).trans hfree
  obtain ⟨place, hplace', habove⟩ := hleaves.onTheWay
  exact hnowhere other hdone place hplace' habove

variable {place : Location} (hseparate : ∀ other ∈ done, Separate workspace files.here dependency other)
  (hplace : workspace.place? files.here dependency.path = some place)

include hseparate hplace

/-- At the place of a library that is apart, and above it, files are what they were. -/
theorem node?_file {location : Location} (hlocation : location <+: place) {contents : Bytes} {mode : Nat} :
    tree.node? location = some (.file contents mode) ↔
      files.node? location = some (.file contents mode) := by
  rcases hreached.left_or_same location with ⟨other, hdone, node, hleaves, hnode⟩ | ⟨-, hsame⟩
  · refine ⟨fun hfile => ?_, fun hfile => absurd hfile (hleaves.noFile contents mode)⟩
    obtain rfl := Option.some.inj (hnode.symm.trans hfile)
    exact absurd hlocation (hseparate other hdone place hplace location hleaves.file_place).2
  · rw [hsame]

/-- Nothing was left at the place of a library that is apart. -/
theorem node?_place : tree.node? place = files.node? place :=
  hreached.same place fun other hdone node hleaves => by
    obtain ⟨place', hplace', habove⟩ := hleaves.onTheWay
    exact (hseparate other hdone place hplace place' hplace').1 habove

theorem clear_iff {location : Location} (hlocation : location <+: place) :
    tree.Clear location ↔ files.Clear location := by
  have hfile : ∀ above, above <+: location → ∀ contents mode,
      tree.node? above = some (.file contents mode) ↔ files.node? above = some (.file contents mode) :=
    fun above habove _ _ => hreached.node?_file hseparate hplace (habove.trans hlocation)
  exact ⟨fun hclear => hclear.congr fun above habove contents mode => (hfile above habove contents mode).mpr,
    fun hclear => hclear.congr fun above habove contents mode => (hfile above habove contents mode).mp⟩

theorem makes_iff {directory location : Location} (hdirectory : directory <+: place) :
    tree.Makes directory location ↔ files.Makes directory location := by
  constructor
  · rintro ⟨hasked, honTheWay, hclear⟩
    exact ⟨hasked, honTheWay,
      (hreached.clear_iff hseparate hplace (honTheWay.trans hdirectory)).mp hclear⟩
  · rintro ⟨hasked, honTheWay, hclear⟩
    exact ⟨hasked, honTheWay,
      (hreached.clear_iff hseparate hplace (honTheWay.trans hdirectory)).mpr hclear⟩

omit hplace in
theorem obtains_iff (hsteady : host.Steady) (hspare : KeepsSpare workspace files done dependency)
    {directory : Location} {name : String} {body : Bytes} {past : List String}
    (hplace : workspace.place? files.here dependency.path = some (directory ++ [name])) :
    Obtains host maxAttempts dependency.url past tree directory name body ↔
      Obtains host maxAttempts dependency.url [] files directory name body := by
  have hmakes : tree.Makes directory directory ↔ files.Makes directory directory :=
    hreached.makes_iff hseparate hplace (List.prefix_append _ _)
  have hroomy := hreached.roomy_iff hspare hplace
  exact ⟨.of_steady hsteady hmakes.mp hroomy.mp, .of_steady hsteady hmakes.mpr hroomy.mpr⟩

omit hplace in
/-- What one more library leaves is added to what the others left. -/
theorem extend {after : FileTree} (hhere : after.here = tree.here) (hgrounded : after.Grounded)
    (hleft : ∀ location node, Leaves host maxAttempts workspace files dependency location node →
      after.node? location = some node)
    (hsame : ∀ location,
      (∀ node, ¬Leaves host maxAttempts workspace files dependency location node) →
        after.node? location = tree.node? location) :
    Reached host maxAttempts workspace files (dependency :: done) after where
  here := hhere.trans hreached.here
  grounded := hgrounded
  left := by
    intro other hmem location node hleaves
    rcases List.mem_cons.mp hmem with rfl | hdone
    · exact hleft location node hleaves
    by_cases hboth : ∃ node', Leaves host maxAttempts workspace files dependency location node'
    · obtain ⟨node', hleaves'⟩ := hboth
      rw [hleft location node' hleaves', hleaves'.agree (hseparate other hdone) hleaves]
    · rw [hsame location fun node' hleaves' => hboth ⟨node', hleaves'⟩]
      exact hreached.left other hdone location node hleaves
  same := fun location hnone => by
    rw [hsame location (hnone dependency List.mem_cons_self)]
    exact hreached.same location fun other hdone => hnone other (List.mem_cons_of_mem _ hdone)

omit hplace in
/-- A library that is not missing leaves nothing. -/
theorem idle (hthere : ∀ directory name, ¬Missing workspace files dependency directory name) :
    Reached host maxAttempts workspace files (dependency :: done) tree :=
  have hnone : ∀ location node,
      ¬Leaves host maxAttempts workspace files dependency location node := fun _ _ hleaves =>
    let ⟨directory, name, hmissing⟩ := hleaves.missing
    hthere directory name hmissing
  hreached.extend hseparate rfl hreached.grounded
    (fun location node hleaves => absurd hleaves (hnone location node)) fun _ _ => rfl

end Reached

end Release

end JarRefinery
