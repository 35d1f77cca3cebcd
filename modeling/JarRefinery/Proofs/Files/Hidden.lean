import JarRefinery.Proofs.Files.Sibling

/-!
# Trees that differ in what is not seen

Two trees are alike if they differ in no more than what stands at certain places and what the files at
others hold. An operation that neither goes to the former nor reads the latter ends alike on alike
trees and leaves alike trees.
-/

namespace JarRefinery

/-- The node without what it holds. -/
def Node.blank : Node → Node
  | .directory => .directory
  | .file _ mode => .file [] mode

namespace FileTree

open FileTree.Action (eval eval_bind eval_bind_ok eval_bind_error)

section Veil

variable (hidden : List Location)

/-- The node at a location as far as it is seen. -/
def veil (location : Location) (node : Node) : Node :=
  if location ∈ hidden then node.blank else node

/-- The tree without what the files at the hidden places hold. -/
def veiled (tree : FileTree) : FileTree :=
  { tree with nodes := tree.nodes.map fun entry => (entry.1, veil hidden entry.1 entry.2) }

theorem veil_directory (location : Location) : veil hidden location .directory = .directory := by
  unfold veil
  split <;> rfl

theorem blank_veil (location : Location) (node : Node) :
    (veil hidden location node).blank = node.blank := by
  unfold veil
  split <;> cases node <;> rfl

theorem node?_veiled (tree : FileTree) (location : Location) :
    (tree.veiled hidden).node? location = (tree.node? location).map (veil hidden location) := by
  by_cases hroot : location = []
  · simp [hroot, veil_directory]
  · simp only [node?, hroot, if_false, veiled]
    induction tree.nodes with
    | nil => rfl
    | cons entry rest ih =>
      rw [List.map_cons, lookup_cons, lookup_cons, ih]
      by_cases hplace : location = entry.1 <;> simp [hplace]

theorem veiled_put (tree : FileTree) (location : Location) (node : Node) :
    (tree.put location node).veiled hidden =
      (tree.veiled hidden).put location (veil hidden location node) := by
  have hnodes : ∀ nodes : List (Location × Node),
      (setNode location node nodes).map (fun entry => (entry.1, veil hidden entry.1 entry.2)) =
        setNode location (veil hidden location node)
          (nodes.map fun entry => (entry.1, veil hidden entry.1 entry.2)) := by
    intro nodes
    induction nodes with
    | nil => rfl
    | cons entry rest ih =>
      by_cases hplace : entry.1 = location
      · simp [setNode, hplace]
      · simp [setNode, hplace, ih]
  simp only [veiled, put, hnodes]

theorem veiled_erase (tree : FileTree) (location : Location) :
    (tree.erase location).veiled hidden = (tree.veiled hidden).erase location := by
  simp only [veiled, erase, List.filter_map]
  rfl

end Veil

section Without

variable (gone : Set Location)

/-- The tree without what stands at some places. -/
noncomputable def without (tree : FileTree) : FileTree :=
  open Classical in { tree with nodes := tree.nodes.filter fun entry => entry.1 ∉ gone }

theorem without_empty (tree : FileTree) : tree.without ∅ = tree := by
  simp [without]

variable {gone} {location : Location}

theorem node?_without (tree : FileTree) (hthere : location ∉ gone) :
    (tree.without gone).node? location = tree.node? location := by
  by_cases hroot : location = []
  · simp [hroot]
  simp only [node?, hroot, if_false, without]
  induction tree.nodes with
  | nil => rfl
  | cons entry rest ih =>
    rw [lookup_cons]
    by_cases hentry : entry.1 ∈ gone
    · have hne : location ≠ entry.1 := fun heq => hthere (heq ▸ hentry)
      rw [List.filter_cons_of_neg (by simpa using hentry), ih, if_neg hne]
    · rw [List.filter_cons_of_pos (by simpa using hentry), lookup_cons, ih]

theorem without_put (tree : FileTree) (node : Node) (hthere : location ∉ gone) :
    (tree.put location node).without gone = (tree.without gone).put location node := by
  classical
  have hnodes : ∀ nodes : List (Location × Node),
      (setNode location node nodes).filter (fun entry => entry.1 ∉ gone) =
        setNode location node (nodes.filter fun entry => entry.1 ∉ gone) := by
    intro nodes
    induction nodes with
    | nil => simp [setNode, hthere]
    | cons entry rest ih =>
      by_cases hplace : entry.1 = location
      · simp [setNode, hplace, hthere]
      · rw [setNode, if_neg hplace, List.filter_cons, List.filter_cons, ih]
        split <;> simp [setNode, hplace]
  simp only [without, put]
  congr 1
  convert hnodes tree.nodes

/-- What is put at a place that is gone is not seen. -/
theorem without_put_of_mem (tree : FileTree) (node : Node) (hgone : location ∈ gone) :
    (tree.put location node).without gone = tree.without gone := by
  classical
  have hnodes : ∀ nodes : List (Location × Node),
      (setNode location node nodes).filter (fun entry => entry.1 ∉ gone) =
        nodes.filter fun entry => entry.1 ∉ gone := by
    intro nodes
    induction nodes with
    | nil => simp [setNode, hgone]
    | cons entry rest ih =>
      by_cases hplace : entry.1 = location
      · simp [setNode, hplace, hgone]
      · rw [setNode, if_neg hplace, List.filter_cons, List.filter_cons, ih]
  simp only [without, put]
  congr 1
  convert hnodes tree.nodes

theorem without_erase (tree : FileTree) (location : Location) :
    (tree.erase location).without gone = (tree.without gone).erase location := by
  simp only [without, erase, List.filter_filter, Bool.and_comm]

theorem without_erase_of_mem (tree : FileTree) (hgone : location ∈ gone) :
    (tree.erase location).without gone = tree.without gone := by
  classical
  simp only [without, erase, List.filter_filter]
  congr 1
  refine List.filter_congr fun entry _ => ?_
  by_cases hentry : entry.1 ∈ gone
  · simp [hentry]
  · simp [hentry, show entry.1 ≠ location from fun heq => hentry (heq ▸ hgone)]

/-- Where nothing below a place is gone, everything below it is seen. -/
theorem below_without (tree : FileTree) (hthere : ∀ rest, location ++ rest ∉ gone) :
    (tree.without gone).below location = tree.below location := by
  classical
  simp only [below, without, List.filterMap_filter]
  refine List.filterMap_congr fun entry _ => ?_
  by_cases hentry : entry.1 ∈ gone
  · have hnot : ¬location.isPrefixOf entry.1 := fun hstarts => by
      obtain ⟨rest, hrest⟩ := List.isPrefixOf_iff_prefix.mp hstarts
      exact hthere rest (hrest ▸ hentry)
    simp [hentry, hnot]
  · simp [hentry]

end Without

/-- No node is at a place with double dots in it. -/
def Dotless (tree : FileTree) : Prop :=
  ∀ location, tree.node? location ≠ none → ".." ∉ location

theorem Dotless.put {tree : FileTree} (hdotless : tree.Dotless) {location : Location}
    (hdots : ".." ∉ location) (node : Node) : (tree.put location node).Dotless := by
  intro place hplace
  rw [node?_put] at hplace
  split at hplace
  · simp [*]
  split at hplace
  · rwa [‹place = location›]
  · exact hdotless place hplace

theorem Dotless.erase {tree : FileTree} (hdotless : tree.Dotless) (location : Location) :
    (tree.erase location).Dotless := by
  intro place hplace
  rw [node?_erase] at hplace
  split at hplace
  · simp [*]
  split at hplace
  · exact absurd rfl hplace
  · exact hdotless place hplace

theorem Dotless.of_mem_below {tree : FileTree} (hdotless : tree.Dotless) {location : Location}
    {names : List String} {node : Node} (hbelow : (names, node) ∈ tree.below location) :
    ".." ∉ names := by
  obtain ⟨⟨place, found⟩, hmem, hplace⟩ := List.mem_filterMap.mp hbelow
  simp only [Option.ite_none_right_eq_some, Option.some.injEq, Prod.mk.injEq] at hplace
  obtain ⟨⟨hstarts, hne⟩, rfl, rfl⟩ := hplace
  have hroot : place ≠ [] := by
    rintro rfl
    exact hne (List.prefix_nil.mp (List.isPrefixOf_iff_prefix.mp hstarts)).symm
  have hthere : tree.node? place ≠ none := by
    rw [node?, if_neg hroot, ne_eq, List.lookup_eq_none_iff]
    exact fun hnone => absurd (hnone _ hmem) (by simp)
  exact fun hdots => hdotless place hthere (List.drop_subset _ _ hdots)

/-- What is seen of trees from the directory `here`. What stands at the places that are `gone` is not,
and of files that are hidden it is not seen what they hold. -/
structure View where
  here : Location
  hidden : List Location
  gone : Set Location
  closed : ∀ {above location}, above ∈ gone → above <+: location → location ∈ gone
  rooted : gone.Nonempty → ".." ∉ here

namespace View

variable (view : View)

noncomputable def shown (tree : FileTree) : FileTree :=
  (tree.without view.gone).veiled view.hidden

/-- Nothing on the way of the path is gone. -/
def Clear (path : Path) : Prop :=
  ∀ location ∈ path.trail view.here, location ∉ view.gone

/-- The path leads to a place that is seen, and so is every place beside it. -/
structure Takes (target : Path) : Prop where
  clear : view.Clear target
  beside : ∀ name, target.parent.normal view.here ++ [name] ∉ view.gone

variable {view} {path target : Path}

theorem Clear.normal (hclear : view.Clear path) : path.normal view.here ∉ view.gone :=
  hclear _ (path.normal_mem_trail _)

theorem Clear.parent (hclear : view.Clear path) : view.Clear path.parent :=
  fun location hlocation => hclear location (path.trail_parent_subset _ hlocation)

theorem dropLast_notMem {location : Location} (hseen : location ∉ view.gone) :
    location.dropLast ∉ view.gone :=
  fun hgone => hseen (view.closed hgone (List.dropLast_prefix _))

theorem clear_ofLocation {location : Location} (hdots : view.gone.Nonempty → ".." ∉ location)
    (hseen : location ∉ view.gone) : view.Clear (.ofLocation location) := by
  rintro _ ⟨front, back, hparts, rfl⟩ hgone
  change location = front ++ back at hparts
  have hplain : ".." ∉ front := fun hmem => hdots ⟨_, hgone⟩ (hparts ▸ List.mem_append_left _ hmem)
  rw [Path.walk_eq_append hplain] at hgone
  exact hseen (view.closed hgone ⟨back, hparts.symm⟩)

end View

/-- Trees of which the same is seen. -/
structure Alike (view : View) (first second : FileTree) : Prop where
  shown : view.shown first = view.shown second
  here : first.here = view.here
  dotless : view.gone.Nonempty → first.Dotless

variable {view : View}

/-! ### Alike trees -/

namespace Alike

variable {first second : FileTree} (halike : Alike view first second)

include halike

theorem here_eq : first.here = second.here := by
  have hshown : (view.shown first).here = (view.shown second).here := by rw [halike.shown]
  exact hshown

theorem dots_notMem_normal (path : Path) (hgone : view.gone.Nonempty) :
    ".." ∉ path.normal first.here :=
  Path.dots_notMem_normal (halike.here ▸ view.rooted hgone) path

theorem notMem_trail {path : Path} (hclear : view.Clear path) {location : Location}
    (hlocation : location ∈ path.trail first.here) : location ∉ view.gone :=
  hclear location (halike.here ▸ hlocation)

theorem normal_notMem {path : Path} (hclear : view.Clear path) :
    path.normal first.here ∉ view.gone :=
  halike.notMem_trail hclear (path.normal_mem_trail _)

theorem veiled_node? {location : Location} (hseen : location ∉ view.gone) :
    (first.veiled view.hidden).node? location = (second.veiled view.hidden).node? location := by
  rw [node?_veiled, node?_veiled, ← node?_without first hseen, ← node?_without second hseen,
    ← node?_veiled, ← node?_veiled]
  exact congrArg (·.node? location) halike.shown

/-- Alike trees have nodes at the same places, and files hold the same unless they are hidden. -/
theorem node?_cases {location : Location} (hseen : location ∉ view.gone) :
    (first.node? location = none ∧ second.node? location = none) ∨
    (first.node? location = some .directory ∧ second.node? location = some .directory) ∨
    ∃ contents others mode, first.node? location = some (.file contents mode) ∧
      second.node? location = some (.file others mode) ∧
      (location ∉ view.hidden → contents = others) := by
  have hnode := halike.veiled_node? hseen
  rw [node?_veiled, node?_veiled] at hnode
  rcases hfirst : first.node? location with _ | ⟨_ | ⟨contents, mode⟩⟩ <;>
    rcases hsecond : second.node? location with _ | ⟨_ | ⟨others, mode'⟩⟩ <;>
    by_cases hhidden : location ∈ view.hidden <;>
    simp_all [veil, Node.blank]

theorem node? {location : Location} (hthere : location ∉ view.gone) (hseen : location ∉ view.hidden) :
    first.node? location = second.node? location := by
  rcases halike.node?_cases hthere with
    ⟨hfirst, hsecond⟩ | ⟨hfirst, hsecond⟩ | ⟨contents, others, mode, hfirst, hsecond, hsame⟩
  · rw [hfirst, hsecond]
  · rw [hfirst, hsecond]
  · rw [hfirst, hsecond, hsame hseen]

theorem isDirectoryAt {location : Location} (hseen : location ∉ view.gone) :
    first.isDirectoryAt location = second.isDirectoryAt location := by
  unfold FileTree.isDirectoryAt
  rcases halike.node?_cases hseen with
    ⟨hfirst, hsecond⟩ | ⟨hfirst, hsecond⟩ | ⟨contents, others, mode, hfirst, hsecond, -⟩ <;>
    rw [hfirst, hsecond]
  rfl

theorem follow (location : Location) (parts : List String)
    (hclear : ∀ front back, parts = front ++ back → Path.walk location front ∉ view.gone) :
    first.follow location parts = second.follow location parts := by
  induction parts generalizing location with
  | nil => rfl
  | cons part rest ih =>
    have hstep : ∀ next, Path.walk location [part] = next →
        first.follow next rest = second.follow next rest := by
      rintro _ rfl
      exact ih _ fun front back hparts => hclear (part :: front) back (congrArg (part :: ·) hparts)
    unfold FileTree.follow
    rcases halike.node?_cases (hclear [] (part :: rest) rfl) with
      ⟨hfirst, hsecond⟩ | ⟨hfirst, hsecond⟩ | ⟨contents, others, mode, hfirst, hsecond, -⟩
    · rw [Path.walk, List.foldl_nil] at hfirst hsecond
      simp only [hfirst, hsecond]
    · rw [Path.walk, List.foldl_nil] at hfirst hsecond
      simp only [hfirst, hsecond]
      split
      · exact hstep _ (if_pos ‹_›)
      split
      · rfl
      · exact hstep _ (if_neg ‹_›)
    · rw [Path.walk, List.foldl_nil] at hfirst hsecond
      simp only [hfirst, hsecond]

theorem locate {path : Path} (hclear : view.Clear path) : first.locate path = second.locate path := by
  unfold FileTree.locate
  rw [← halike.here_eq]
  have hsame := halike.follow (path.start first.here) path.parts fun front back hparts =>
    halike.notMem_trail hclear ⟨front, back, hparts, rfl⟩
  rw [Path.start] at hsame
  rw [hsame]

theorem put {location : Location} {node other : Node} (hseen : location ∉ view.gone)
    (hdots : view.gone.Nonempty → ".." ∉ location)
    (hnode : veil view.hidden location node = veil view.hidden location other) :
    Alike view (first.put location node) (second.put location other) where
  shown := by
    unfold View.shown
    rw [without_put _ _ hseen, without_put _ _ hseen, veiled_put, veiled_put, hnode]
    exact congrArg (FileTree.put · location _) halike.shown
  here := halike.here
  dotless := fun hgone => (halike.dotless hgone).put (hdots hgone) node

theorem erase (location : Location) :
    Alike view (first.erase location) (second.erase location) where
  shown := by
    unfold View.shown
    rw [without_erase, without_erase, veiled_erase, veiled_erase]
    exact congrArg (FileTree.erase · location) halike.shown
  here := halike.here
  dotless := fun hgone => (halike.dotless hgone).erase location

/-- Below a place there are the same names, and directories under the same ones. -/
theorem below {location : Location} (hseen : ∀ rest, location ++ rest ∉ view.gone) :
    (first.below location).map (fun entry => (entry.1, entry.2.blank)) =
      (second.below location).map fun entry => (entry.1, entry.2.blank) := by
  have hblank : ∀ tree : FileTree, (tree.below location).map (fun entry => (entry.1, entry.2.blank)) =
      ((view.shown tree).below location).map fun entry => (entry.1, entry.2.blank) := by
    intro tree
    rw [← below_without tree hseen]
    simp only [View.shown, FileTree.below, FileTree.veiled, List.map_filterMap, List.filterMap_map]
    refine List.filterMap_congr fun entry _ => ?_
    obtain ⟨place, node⟩ := entry
    simp only [Function.comp_apply]
    split
    · simp [blank_veil]
    · rfl
  rw [hblank first, hblank second, halike.shown]

end Alike

/-! ### Operations on alike trees -/

/-- On alike trees the operations end in the same way and leave alike trees. -/
def Action.Matches {α : Type} (view : View) (first second : FileTree.Action α) : Prop :=
  ∀ tree other, Alike view tree other →
    (first.eval tree).1 = (second.eval other).1 ∧
      Alike view (first.eval tree).2 (second.eval other).2

/-- The operation does not look at what is not seen. -/
abbrev Action.Blind {α : Type} (view : View) (operation : FileTree.Action α) : Prop :=
  operation.Matches view operation

namespace Action.Matches

variable {α β : Type}

theorem pure (value : α) : Blind view (Pure.pure value) :=
  fun _ _ halike => ⟨rfl, halike⟩

theorem throw (error : FileError) : Blind view (MonadExcept.throw error : FileTree.Action α) :=
  fun _ _ halike => ⟨rfl, halike⟩

theorem bind {first second : FileTree.Action α} {next other : α → FileTree.Action β}
    (hfirst : first.Matches view second) (hnext : ∀ value, (next value).Matches view (other value)) :
    Matches view (first >>= next) (second >>= other) := by
  intro tree tree' halike
  rw [eval_bind, eval_bind]
  obtain ⟨hresult, hafter⟩ := hfirst tree tree' halike
  rcases heval : eval first tree with ⟨error | value, after⟩ <;>
    rcases heval' : eval second tree' with ⟨error' | value', after'⟩ <;>
    rw [heval, heval'] at hresult hafter
  · exact ⟨congrArg Except.error (Except.error.inj hresult), hafter⟩
  · cases hresult
  · cases hresult
  · obtain rfl := Except.ok.inj hresult
    exact hnext value after after' hafter

theorem ite {so : Prop} [Decidable so] {first second : FileTree.Action α}
    (hfirst : so → Blind view first) (hsecond : ¬so → Blind view second) :
    Blind view (if so then first else second) := by
  split
  · exact hfirst ‹_›
  · exact hsecond ‹_›

end Action.Matches

section Operations

open FileTree.Action (Matches Blind)

variable {path : Path} (hclear : view.Clear path)

include hclear

/-- What a path leads to depends on the directories that it passes alone. -/
theorem locating_alike {tree other : FileTree} (halike : Alike view tree other) :
    (∃ error, eval (locating path) tree = (.error error, tree) ∧
      eval (locating path) other = (.error error, other)) ∨
    (eval (locating path) tree = (.ok (path.normal tree.here), tree) ∧
      eval (locating path) other = (.ok (path.normal tree.here), other)) := by
  have hlocating := eval_locating_eq tree path
  have hlocating' := eval_locating_eq other path
  by_cases hnull : hasNull path = true
  · rw [if_pos hnull] at hlocating hlocating'
    exact .inl ⟨_, hlocating, hlocating'⟩
  rw [if_neg hnull] at hlocating hlocating'
  rw [← halike.locate hclear] at hlocating'
  rcases hlocate : tree.locate path with code | location
  · rw [hlocate] at hlocating hlocating'
    exact .inl ⟨_, hlocating, hlocating'⟩
  · rw [hlocate] at hlocating hlocating'
    obtain ⟨-, -, rfl⟩ := locate_eq_ok_iff.mp hlocate
    exact .inr ⟨hlocating, hlocating'⟩

theorem locating_blind : Blind view (locating path) := by
  intro tree other halike
  rcases locating_alike hclear halike with ⟨error, hfirst, hsecond⟩ | ⟨hfirst, hsecond⟩ <;>
    rw [hfirst, hsecond] <;> exact ⟨rfl, halike⟩

/-- Of what is done at a place only what is done there has to be looked at. -/
theorem located_blind {α : Type} {next : Location → FileTree → FileTree.Action α}
    (hnext : ∀ tree other, Alike view tree other →
      (eval (next (path.normal tree.here) tree) tree).1 =
          (eval (next (path.normal tree.here) other) other).1 ∧
        Alike view (eval (next (path.normal tree.here) tree) tree).2
          (eval (next (path.normal tree.here) other) other).2) :
    Blind view (do
      let location ← locating path
      let tree ← get
      next location tree) := by
  intro tree other halike
  rcases locating_alike hclear halike with ⟨error, hfirst, hsecond⟩ | ⟨hfirst, hsecond⟩
  · rw [eval_bind_error hfirst, eval_bind_error hsecond]
    exact ⟨rfl, halike⟩
  · rw [eval_bind_ok hfirst, eval_bind_ok hsecond, eval_bind_ok (Action.eval_get tree),
      eval_bind_ok (Action.eval_get other)]
    exact hnext tree other halike

/-- What is found at a path on alike trees. -/
theorem stat_alike {tree other : FileTree} (halike : Alike view tree other) :
    (∃ error, eval (stat path) tree = (.error error, tree) ∧
      eval (stat path) other = (.error error, other)) ∨
    (eval (stat path) tree = (.ok .directory, tree) ∧
      eval (stat path) other = (.ok .directory, other)) ∨
    ∃ contents others mode, eval (stat path) tree = (.ok (.file contents mode), tree) ∧
      eval (stat path) other = (.ok (.file others mode), other) ∧
      (path.normal tree.here ∉ view.hidden → contents = others) := by
  unfold stat
  rcases locating_alike hclear halike with ⟨error, hfirst, hsecond⟩ | ⟨hfirst, hsecond⟩
  · exact .inl ⟨error, eval_bind_error hfirst, eval_bind_error hsecond⟩
  rw [eval_bind_ok hfirst, eval_bind_ok hsecond, eval_bind_ok (Action.eval_get tree),
    eval_bind_ok (Action.eval_get other)]
  rcases halike.node?_cases (halike.normal_notMem hclear) with
    ⟨hfirst, hsecond⟩ | ⟨hfirst, hsecond⟩ | ⟨contents, others, mode, hfirst, hsecond, hsame⟩
  · rw [hfirst, hsecond]
    exact .inl ⟨_, rfl, rfl⟩
  · rw [hfirst, hsecond]
    exact .inr (.inl ⟨rfl, rfl⟩)
  · rw [hfirst, hsecond]
    exact .inr (.inr ⟨contents, others, mode, rfl, rfl, hsame⟩)

theorem find?_alike {tree other : FileTree} (halike : Alike view tree other) :
    (∃ result, eval (find? path) tree = (result, tree) ∧ eval (find? path) other = (result, other)) ∨
    ∃ contents others mode, eval (find? path) tree = (.ok (some (.file contents mode)), tree) ∧
      eval (find? path) other = (.ok (some (.file others mode)), other) := by
  unfold find?
  rw [eval_bind_ok (Action.eval_get tree), eval_bind_ok (Action.eval_get other)]
  rcases stat_alike hclear halike with ⟨error, hfirst, hsecond⟩ | ⟨hfirst, hsecond⟩ |
    ⟨contents, others, mode, hfirst, hsecond, -⟩
  · have hrun : (stat path).run tree = (.error error, tree) := hfirst
    have hrun' : (stat path).run other = (.error error, other) := hsecond
    rcases error with error | _
    · by_cases hcode : error.code = .noEntry ∨ error.code = .notDirectory
      · exact .inl ⟨.ok none, by simp [hrun, hcode], by simp [hrun', hcode]⟩
      · exact .inl ⟨.error (.system error), by simp [hrun, hcode], by simp [hrun', hcode]⟩
    · exact .inl ⟨.ok none, by simp [hrun], by simp [hrun']⟩
  · have hrun : (stat path).run tree = (.ok .directory, tree) := hfirst
    have hrun' : (stat path).run other = (.ok .directory, other) := hsecond
    exact .inl ⟨.ok (some .directory), by simp [hrun], by simp [hrun']⟩
  · have hrun : (stat path).run tree = (.ok (.file contents mode), tree) := hfirst
    have hrun' : (stat path).run other = (.ok (.file others mode), other) := hsecond
    exact .inr ⟨contents, others, mode, by simp [hrun], by simp [hrun']⟩

theorem doesExist_blind : Blind view (doesExist path) := by
  intro tree other halike
  unfold doesExist
  rw [eval_bind, eval_bind]
  rcases find?_alike hclear halike with ⟨error | found, hfirst, hsecond⟩ |
    ⟨contents, others, mode, hfirst, hsecond⟩ <;> rw [hfirst, hsecond] <;> exact ⟨rfl, halike⟩

theorem isDirectory_blind : Blind view (isDirectory path) := by
  intro tree other halike
  unfold isDirectory
  rw [eval_bind, eval_bind]
  rcases find?_alike hclear halike with ⟨error | found, hfirst, hsecond⟩ |
    ⟨contents, others, mode, hfirst, hsecond⟩ <;> rw [hfirst, hsecond] <;> exact ⟨rfl, halike⟩

theorem isFile_blind : Blind view (isFile path) := by
  intro tree other halike
  unfold isFile
  rw [eval_bind, eval_bind]
  rcases find?_alike hclear halike with ⟨error | found, hfirst, hsecond⟩ |
    ⟨contents, others, mode, hfirst, hsecond⟩
  · rw [hfirst, hsecond]
    exact ⟨rfl, halike⟩
  · rw [hfirst, hsecond]
    rcases found with _ | ⟨_ | ⟨contents, mode⟩⟩ <;> exact ⟨rfl, halike⟩
  · rw [hfirst, hsecond]
    exact ⟨rfl, halike⟩

theorem readFile_blind (hseen : ∀ here, path.normal here ∉ view.hidden) :
    Blind view (readFile path) := by
  intro tree other halike
  unfold readFile
  rcases stat_alike hclear halike with ⟨error, hfirst, hsecond⟩ | ⟨hfirst, hsecond⟩ |
    ⟨contents, others, mode, hfirst, hsecond, hsame⟩
  · rw [eval_bind_error hfirst, eval_bind_error hsecond]
    exact ⟨rfl, halike⟩
  · rw [eval_bind_ok hfirst, eval_bind_ok hsecond]
    exact ⟨rfl, halike⟩
  · rw [eval_bind_ok hfirst, eval_bind_ok hsecond, hsame (hseen tree.here)]
    exact ⟨rfl, halike⟩

omit hclear in
theorem resolve_blind (path : Path) : Blind view (resolve path) := by
  intro tree other halike
  unfold resolve
  by_cases hnull : hasNull path = true
  · simp [hnull, halike]
  · simp [hnull, halike, Except.map, halike.here_eq]

theorem opening_alike {tree other : FileTree} (halike : Alike view tree other) :
    (∃ error, eval (opening path) tree = (.error error, tree) ∧
      eval (opening path) other = (.error error, other)) ∨
    ∃ contents others mode,
      eval (opening path) tree = (.ok (path.normal tree.here, contents, mode), tree) ∧
      eval (opening path) other = (.ok (path.normal tree.here, others, mode), other) ∧
      (path.normal tree.here ∉ view.hidden → contents = others) := by
  unfold opening
  rcases locating_alike hclear halike with ⟨error, hfirst, hsecond⟩ | ⟨hfirst, hsecond⟩
  · exact .inl ⟨error, eval_bind_error hfirst, eval_bind_error hsecond⟩
  rw [eval_bind_ok hfirst, eval_bind_ok hsecond, eval_bind_ok (Action.eval_get tree),
    eval_bind_ok (Action.eval_get other)]
  have hseen := halike.normal_notMem hclear
  rcases halike.node?_cases hseen with
    ⟨hfirst, hsecond⟩ | ⟨hfirst, hsecond⟩ | ⟨contents, others, mode, hfirst, hsecond, hsame⟩
  · rw [hfirst, hsecond, ← halike.isDirectoryAt (View.dropLast_notMem hseen)]
    by_cases hparent : tree.isDirectoryAt (path.normal tree.here).dropLast = true
    · exact .inr ⟨[], [], none, by simp [hparent], by simp [hparent], fun _ => rfl⟩
    · exact .inl ⟨_, by simp only [hparent]; rfl, by simp only [hparent]; rfl⟩
  · rw [hfirst, hsecond]
    exact .inl ⟨_, rfl, rfl⟩
  · rw [hfirst, hsecond]
    exact .inr ⟨contents, others, some mode, rfl, rfl, hsame⟩

omit hclear in
/-- What a hidden file holds need not be the same. -/
theorem Alike.putFile {tree other : FileTree} (halike : Alike view tree other) (hclear : view.Clear path)
    {contents others : Bytes} (mode : Nat)
    (hsame : path.normal tree.here ∉ view.hidden → contents = others) :
    Alike view (tree.put (path.normal tree.here) (.file contents mode))
      (other.put (path.normal tree.here) (.file others mode)) := by
  refine halike.put (halike.normal_notMem hclear) (halike.dots_notMem_normal path) ?_
  by_cases hhidden : path.normal tree.here ∈ view.hidden
  · simp [veil, hhidden, Node.blank]
  · rw [hsame hhidden]

theorem writeFile_matches {contents others : Bytes}
    (hsame : path.normal view.here ∉ view.hidden → contents = others) :
    Matches view (writeFile path contents) (writeFile path others) := by
  intro tree other halike
  unfold writeFile
  rcases opening_alike hclear halike with ⟨error, hfirst, hsecond⟩ |
    ⟨before, before', mode, hfirst, hsecond, -⟩
  · rw [eval_bind_error hfirst, eval_bind_error hsecond]
    exact ⟨rfl, halike⟩
  · rw [eval_bind_ok hfirst, eval_bind_ok hsecond]
    exact ⟨rfl, halike.putFile hclear _ fun hseen => hsame (halike.here ▸ hseen)⟩

theorem writeFile_blind (contents : Bytes) : Blind view (writeFile path contents) :=
  writeFile_matches hclear fun _ => rfl

theorem appendFile_matches {contents others : Bytes}
    (hsame : path.normal view.here ∉ view.hidden → contents = others) :
    Matches view (appendFile path contents) (appendFile path others) := by
  intro tree other halike
  unfold appendFile
  rcases opening_alike hclear halike with ⟨error, hfirst, hsecond⟩ |
    ⟨before, before', mode, hfirst, hsecond, hbefore⟩
  · rw [eval_bind_error hfirst, eval_bind_error hsecond]
    exact ⟨rfl, halike⟩
  · rw [eval_bind_ok hfirst, eval_bind_ok hsecond]
    refine ⟨rfl, halike.putFile hclear _ fun hseen => ?_⟩
    rw [hbefore hseen, hsame (halike.here ▸ hseen)]

theorem appendFile_blind (contents : Bytes) : Blind view (appendFile path contents) :=
  appendFile_matches hclear fun _ => rfl

theorem setMode_blind (mode : Nat) : Blind view (setMode path mode) := by
  unfold setMode
  refine located_blind hclear fun tree other halike => ?_
  rcases halike.node?_cases (halike.normal_notMem hclear) with
    ⟨hfirst, hsecond⟩ | ⟨hfirst, hsecond⟩ | ⟨contents, others, before, hfirst, hsecond, hsame⟩
  · rw [hfirst, hsecond]
    exact ⟨rfl, halike⟩
  · rw [hfirst, hsecond]
    exact ⟨rfl, halike⟩
  · rw [hfirst, hsecond]
    exact ⟨rfl, halike.putFile hclear mode hsame⟩

theorem unlink_blind : Blind view (unlink path) := by
  unfold unlink
  refine located_blind hclear fun tree other halike => ?_
  rcases halike.node?_cases (halike.normal_notMem hclear) with
    ⟨hfirst, hsecond⟩ | ⟨hfirst, hsecond⟩ | ⟨contents, others, mode, hfirst, hsecond, -⟩
  · rw [hfirst, hsecond]
    exact ⟨rfl, halike⟩
  · rw [hfirst, hsecond]
    exact ⟨rfl, halike⟩
  · rw [hfirst, hsecond]
    exact ⟨rfl, halike.erase _⟩

theorem discard_blind : Blind view (discard path) := by
  intro tree other halike
  obtain ⟨hresult, hafter⟩ := unlink_blind hclear tree other halike
  unfold discard
  rw [Action.eval_tryCatch, Action.eval_tryCatch]
  rcases heval : eval (unlink path) tree with ⟨error | value, after⟩ <;>
    rcases heval' : eval (unlink path) other with ⟨error' | value', after'⟩ <;>
    rw [heval, heval'] at hresult hafter
  · exact ⟨rfl, hafter⟩
  · cases hresult
  · cases hresult
  · exact ⟨rfl, hafter⟩

/-- A file that is seen may be moved anywhere. -/
theorem rename_blind (hseen : ∀ here, path.normal here ∉ view.hidden) {target : Path}
    (htarget : view.Clear target) : Blind view (rename path target) := by
  intro tree other halike
  unfold rename
  by_cases hnull : (hasNull path || hasNull target) = true
  · simp only [hnull, if_true]
    exact ⟨rfl, halike⟩
  simp only [hnull, Bool.false_eq_true, if_false]
  rw [eval_bind_ok (Action.eval_get tree), eval_bind_ok (Action.eval_get other)]
  rw [← halike.locate hclear, ← halike.locate htarget]
  rcases hsource : tree.locate path with code | from_
  · exact ⟨rfl, halike⟩
  rcases hplace : tree.locate target with code | to_
  · exact ⟨rfl, halike⟩
  obtain ⟨-, -, rfl⟩ := locate_eq_ok_iff.mp hsource
  obtain ⟨-, -, rfl⟩ := locate_eq_ok_iff.mp hplace
  by_cases hdots : endsInDots target = true
  · simp only [hdots, if_true]
    exact ⟨rfl, halike⟩
  simp only [hdots, Bool.false_eq_true, if_false]
  have hto := halike.normal_notMem htarget
  have hsame := halike.node? (halike.normal_notMem hclear) (hseen tree.here)
  rcases hnode : tree.node? (path.normal tree.here) with _ | ⟨_ | ⟨contents, mode⟩⟩
  · rw [← hsame, hnode]
    exact ⟨rfl, halike⟩
  · rw [← hsame, hnode]
    exact ⟨rfl, halike⟩
  rw [← hsame, hnode]
  have hmoved : Alike view
      ((tree.erase (path.normal tree.here)).put (target.normal tree.here) (.file contents mode))
      ((other.erase (path.normal tree.here)).put (target.normal tree.here) (.file contents mode)) :=
    (halike.erase _).put hto (halike.dots_notMem_normal target) rfl
  rcases halike.node?_cases hto with
    ⟨hfirst, hsecond⟩ | ⟨hfirst, hsecond⟩ | ⟨before, before', mode', hfirst, hsecond, -⟩
  · rw [hfirst, hsecond, ← halike.isDirectoryAt (View.dropLast_notMem hto)]
    by_cases hparent : tree.isDirectoryAt (target.normal tree.here).dropLast = true
    · simp only [hparent, if_true]
      exact ⟨rfl, hmoved⟩
    · simp only [hparent]
      exact ⟨rfl, halike⟩
  · rw [hfirst, hsecond]
    exact ⟨rfl, halike⟩
  · rw [hfirst, hsecond]
    exact ⟨rfl, hmoved⟩

theorem makeDirectory_blind : Blind view (makeDirectory path) := by
  unfold makeDirectory
  refine located_blind hclear fun tree other halike => ?_
  have hseen := halike.normal_notMem hclear
  rcases halike.node?_cases hseen with
    ⟨hfirst, hsecond⟩ | ⟨hfirst, hsecond⟩ | ⟨contents, others, mode, hfirst, hsecond, -⟩
  · rw [hfirst, hsecond, ← halike.isDirectoryAt (View.dropLast_notMem hseen)]
    by_cases hparent : tree.isDirectoryAt (path.normal tree.here).dropLast = true
    · simp only [hparent, if_true]
      exact ⟨rfl, halike.put hseen (halike.dots_notMem_normal path) rfl⟩
    · simp only [hparent]
      exact ⟨rfl, halike⟩
  · rw [hfirst, hsecond]
    exact ⟨rfl, halike⟩
  · rw [hfirst, hsecond]
    exact ⟨rfl, halike⟩

theorem ensureDirectory_blind : Blind view (ensureDirectory path) := by
  intro tree other halike
  obtain ⟨hresult, hafter⟩ := makeDirectory_blind hclear tree other halike
  unfold ensureDirectory
  rw [eval_bind_ok (Action.eval_get tree), eval_bind_ok (Action.eval_get other)]
  rcases heval : (makeDirectory path).run tree with ⟨(error | _) | value, after⟩ <;>
    rcases heval' : (makeDirectory path).run other with ⟨result', after'⟩ <;>
    (obtain rfl : _ = result' := (congrArg Prod.fst heval).symm.trans
      (hresult.trans (congrArg Prod.fst heval')))
  · dsimp only
    by_cases hcode : error.code = .noEntry
    · simp only [hcode, if_true]
      exact ⟨rfl, halike⟩
    · simp only [hcode, if_false]
      refine (isDirectory_blind hclear).bind (fun found => ?_) tree other halike
      exact Matches.ite (fun _ => .pure _) fun _ => .throw _
  · exact ⟨rfl, halike⟩
  · have hset : Alike view after after' := by
      have hfirst : (eval (makeDirectory path) tree).2 = after := congrArg Prod.snd heval
      have hsecond : (eval (makeDirectory path) other).2 = after' := congrArg Prod.snd heval'
      rwa [hfirst, hsecond] at hafter
    exact ⟨rfl, hset⟩

theorem ensureChain_blind (depth : Nat) : Blind view (ensureChain depth path) := by
  induction depth generalizing path with
  | zero => exact ensureDirectory_blind hclear
  | succ depth ih =>
    intro tree other halike
    obtain ⟨hresult, hafter⟩ := ensureDirectory_blind hclear tree other halike
    unfold ensureChain
    rw [eval_bind_ok (Action.eval_get tree), eval_bind_ok (Action.eval_get other)]
    rcases heval : (ensureDirectory path).run tree with ⟨(error | _) | value, after⟩ <;>
      rcases heval' : (ensureDirectory path).run other with ⟨result', after'⟩ <;>
      (obtain rfl : _ = result' := (congrArg Prod.fst heval).symm.trans
        (hresult.trans (congrArg Prod.fst heval')))
    · dsimp only
      by_cases hcode : error.code = .noEntry
      · simp only [hcode, if_true]
        exact (ih hclear.parent).bind (fun _ => ensureDirectory_blind hclear) tree other halike
      · simp only [hcode, if_false]
        exact ⟨rfl, halike⟩
    · exact ⟨rfl, halike⟩
    · have hset : Alike view after after' := by
        have hfirst : (eval (ensureDirectory path) tree).2 = after := congrArg Prod.snd heval
        have hsecond : (eval (ensureDirectory path) other).2 = after' := congrArg Prod.snd heval'
        rwa [hfirst, hsecond] at hafter
      exact ⟨rfl, hset⟩

theorem ensureDirectories_blind : Blind view (ensureDirectories path) :=
  ensureChain_blind hclear _

omit hclear in
theorem Alike.unusedSibling? {tree other : FileTree} (halike : Alike view tree other)
    {directory : Location} (hseen : ∀ name, directory ++ [name] ∉ view.gone) (name : String)
    (tries n : Nat) :
    tree.unusedSibling? directory name tries n = other.unusedSibling? directory name tries n := by
  induction tries generalizing n with
  | zero => rfl
  | succ tries ih =>
    have hfree : (tree.node? (directory ++ [siblingName name n])).isNone =
        (other.node? (directory ++ [siblingName name n])).isNone := by
      rcases halike.node?_cases (hseen (siblingName name n)) with
        ⟨hfirst, hsecond⟩ | ⟨hfirst, hsecond⟩ | ⟨contents, others, mode, hfirst, hsecond, -⟩ <;>
        rw [hfirst, hsecond]
      rfl
    unfold FileTree.unusedSibling?
    dsimp only
    rw [hfree, ih]

section Siblings

variable {target : Path} (htarget : view.Takes target)

include htarget

omit hclear

/-- The temporary file of a target that is seen is seen. -/
theorem View.Takes.clear_sibling (n : Nat) : view.Clear
    (.ofLocation (target.parent.normal view.here ++ [siblingName target.name n])) := by
  refine View.clear_ofLocation (fun hgone => ?_) (htarget.beside _)
  exact dots_notMem_sibling (Path.dots_notMem_normal (view.rooted hgone) _) _ _

theorem newSibling_blind : Blind view (newSibling target) := by
  refine (ensureDirectories_blind htarget.clear.parent).bind fun _ => ?_
  intro tree other halike
  rw [eval_bind_ok (Action.eval_get tree), eval_bind_ok (Action.eval_get other)]
  rw [← halike.here_eq]
  dsimp only
  have hbeside : ∀ name, target.parent.normal tree.here ++ [name] ∉ view.gone :=
    halike.here ▸ htarget.beside
  rw [← halike.unusedSibling? hbeside]
  rcases hfound : tree.unusedSibling? (target.parent.normal tree.here) target.name siblingTries 0 with
    _ | name
  · exact ⟨rfl, halike⟩
  obtain ⟨n, -, rfl, -⟩ := unusedSibling?_some hfound
  have hclear := htarget.clear_sibling n
  rw [← halike.here] at hclear
  rcases opening_alike hclear halike with
    ⟨error, hfirst, hsecond⟩ | ⟨before, before', mode, hfirst, hsecond, -⟩
  · rw [eval_bind_error hfirst, eval_bind_error hsecond]
    exact ⟨rfl, halike⟩
  · rw [eval_bind_ok hfirst, eval_bind_ok hsecond]
    exact ⟨rfl, halike.put (halike.normal_notMem hclear) (halike.dots_notMem_normal _) rfl⟩

end Siblings

omit hclear in
/-- A temporary file is beside its target, under a name of its kind. -/
theorem newSibling_ok {target sibling : Path} {tree : FileTree}
    (hresult : (eval (newSibling target) tree).1 = .ok sibling) : ∃ n,
      sibling = .ofLocation (target.parent.normal tree.here ++ [siblingName target.name n]) := by
  have hhere := (ensureDirectories_spec tree target.parent).1.here
  unfold newSibling at hresult
  rcases hmade : eval (ensureDirectories target.parent) tree with ⟨error | value, made⟩
  · rw [eval_bind_error hmade] at hresult
    cases hresult
  rw [hmade] at hhere
  rw [eval_bind_ok hmade, eval_bind_ok (Action.eval_get made)] at hresult
  dsimp only at hresult hhere
  rw [hhere] at hresult
  rcases hfound : made.unusedSibling? (target.parent.normal tree.here) target.name siblingTries 0
    with _ | name
  · rw [hfound] at hresult
    cases hresult
  rw [hfound] at hresult
  obtain ⟨n, -, rfl, -⟩ := unusedSibling?_some hfound
  refine ⟨n, ?_⟩
  rcases hopened : eval (opening (.ofLocation (target.parent.normal tree.here ++
    [siblingName target.name n]))) made with ⟨error | value, opened⟩
  · rw [eval_bind_error hopened] at hresult
    cases hresult
  · rw [eval_bind_ok hopened] at hresult
    exact (Except.ok.inj hresult).symm

end Operations

end FileTree

end JarRefinery
