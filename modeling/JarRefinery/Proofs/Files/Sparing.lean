import JarRefinery.Proofs.Files.Operations

/-!
# Files that are spared

A file is there if directories lead to its place. It stays there through changes that neither write
nor remove it, since changes never take directories away.
-/

namespace JarRefinery

namespace FileTree

open FileTree.Action (eval eval_bind eval_bind_ok)

variable {tree before middle after : FileTree} {location : Location} {contents : Bytes} {mode : Nat}

/-- Whatever stands above the place is a directory. -/
def Leads (tree : FileTree) (location : Location) : Prop :=
  ∀ above, above <+: location → above ≠ location → tree.node? above = some .directory

/-- The file at a place, to which directories lead. -/
structure HasFile (tree : FileTree) (location : Location) (contents : Bytes) (mode : Nat) : Prop where
  node : tree.node? location = some (.file contents mode)
  leads : tree.Leads location

theorem Leads.mono (hleads : tree.Leads location)
    (hkept : ∀ place, tree.node? place = some .directory → after.node? place = some .directory) :
    after.Leads location :=
  fun above hprefix hne => hkept above (hleads above hprefix hne)

/-- A place to which a path could be followed can be followed to where directories lead to it. -/
theorem HasFile.reachable (hfile : tree.HasFile location contents mode)
    (hreach : after.Reachable (.ofLocation location)) (hdots : ".." ∉ location)
    (hnode : after.node? location ≠ some .directory) : tree.Reachable (.ofLocation location) := by
  refine ⟨hreach.noNull, hreach.length, hreach.passable.mono_trail fun front back hparts hfront => ?_⟩
  change location = front ++ back at hparts
  have hwalk : Path.walk ((Path.ofLocation location).start after.here) front = front :=
    Path.walk_eq_append (fun hmem => hdots (hparts ▸ List.mem_append_left _ hmem)) []
  change after.node? (Path.walk ((Path.ofLocation location).start after.here) front) = _ at hfront
  change tree.node? (Path.walk ((Path.ofLocation location).start after.here) front) = _
  rw [hwalk] at hfront ⊢
  refine hfile.leads front ⟨back, hparts.symm⟩ ?_
  rintro rfl
  exact hnode hfront

/-- A file that a path leads to exists. -/
theorem Reachable.eval_doesExist {path : Path} (hreach : tree.Reachable path)
    (hnode : tree.node? (path.normal tree.here) = some (.file contents mode)) :
    eval (doesExist path) tree = (.ok true, tree) := by
  have hstat : (stat path).run tree = (.ok (.file contents mode), tree) := by
    change eval (stat path) tree = _
    unfold stat
    rw [eval_bind_ok hreach.eval_locating, Action.eval_bind_ok (Action.eval_get tree), hnode]
    rfl
  unfold doesExist find?
  rw [eval_bind, Action.eval_bind_ok (Action.eval_get tree)]
  simp [hstat]

/-! ### Names -/

/-- A name that a file can have. -/
structure IsFileName (name : String) : Prop where
  named : Path.isNamed name = true
  noDots : name ≠ ".."
  noSlash : '/' ∉ name.toList

/-- A place that names lead to which files can have. -/
def Named (location : Location) : Prop :=
  ∀ name ∈ location, IsFileName name

theorem Named.noDots (hnamed : Named location) : ".." ∉ location :=
  fun hdots => (hnamed _ hdots).noDots rfl

theorem Named.append {front back : Location} (hfront : Named front) (hback : Named back) :
    Named (front ++ back) :=
  fun name hname => (List.mem_append.mp hname).elim (hfront name) (hback name)

/-- All nodes are at places that can be named. -/
def WellNamed (tree : FileTree) : Prop :=
  ∀ location, tree.node? location ≠ none → Named location

theorem wellNamed_of_nodes (hnodes : ∀ entry ∈ tree.nodes, Named entry.1) : tree.WellNamed := by
  intro location hnode
  by_cases hroot : location = []
  · rw [hroot]
    exact fun _ hname => absurd hname List.not_mem_nil
  rw [node?, if_neg hroot, ne_eq, List.lookup_eq_none_iff] at hnode
  push Not at hnode
  obtain ⟨entry, hentry, hplace⟩ := hnode
  obtain rfl : location = entry.1 := by simpa using hplace
  exact hnodes entry hentry

theorem WellNamed.of_mem_below (hwell : tree.WellNamed) {names : List String} {node : Node}
    (hbelow : (names, node) ∈ tree.below location) : names ≠ [] ∧ Named names := by
  obtain ⟨⟨place, found⟩, hmem, hplace⟩ := List.mem_filterMap.mp hbelow
  simp only [Option.ite_none_right_eq_some, Option.some.injEq, Prod.mk.injEq] at hplace
  obtain ⟨⟨hstarts, hne⟩, rfl, rfl⟩ := hplace
  obtain ⟨names, rfl⟩ := List.isPrefixOf_iff_prefix.mp hstarts
  rw [List.drop_left]
  have hnames : names ≠ [] := by
    rintro rfl
    exact hne (List.append_nil location)
  refine ⟨hnames, fun name hname => ?_⟩
  refine hwell (location ++ names) ?_ name (List.mem_append_right _ hname)
  rw [node?, if_neg (by simp [hnames]), ne_eq, List.lookup_eq_none_iff]
  exact fun hnone => absurd (hnone _ hmem) (by simp)

/-! ### Frames -/

/-- All files stay that are not at the places touched, and directories still lead where they led. -/
def Spares (touched : Set Location) (before after : FileTree) : Prop :=
  ∀ location contents mode, location ∉ touched →
    before.node? location = some (.file contents mode) →
    after.node? location = some (.file contents mode) ∧
      (before.Leads location → after.Leads location)

/-- All files stay that are not at the places touched; below `shared` those to which directories
lead. -/
structure Frame (shared : Location) (touched : Set Location) (before after : FileTree) : Prop where
  node : ∀ {location contents mode}, location ∉ touched → ¬shared <+: location →
    before.node? location = some (.file contents mode) →
    after.node? location = some (.file contents mode)
  file : ∀ {location contents mode}, location ∉ touched → before.HasFile location contents mode →
    after.HasFile location contents mode

variable {shared : Location} {touched larger : Set Location}

theorem Spares.frame (hspares : Spares touched before after) : Frame shared touched before after where
  node hout _ hnode := (hspares _ _ _ hout hnode).1
  file hout hfile :=
    have ⟨hnode, hleads⟩ := hspares _ _ _ hout hfile.node
    ⟨hnode, hleads hfile.leads⟩

namespace Frame

theorem refl (shared : Location) (touched : Set Location) (tree : FileTree) :
    Frame shared touched tree tree :=
  ⟨fun _ _ hnode => hnode, fun _ hfile => hfile⟩

theorem trans (hfirst : Frame shared touched before middle)
    (hsecond : Frame shared touched middle after) : Frame shared touched before after where
  node hout hother hnode := hsecond.node hout hother (hfirst.node hout hother hnode)
  file hout hfile := hsecond.file hout (hfirst.file hout hfile)

theorem mono (hframe : Frame shared touched before after) (hsubset : touched ⊆ larger) :
    Frame shared larger before after where
  node hout := hframe.node fun hmem => hout (hsubset hmem)
  file hout := hframe.file fun hmem => hout (hsubset hmem)

end Frame

end FileTree

/-! ### Paths -/

/-- A path whose parts are such as texts have between their slashes. -/
def Path.IsWritten (path : Path) : Prop :=
  ∀ part ∈ path.parts, isNamed part = true ∧ '/' ∉ part.toList

namespace Path.IsWritten

open FileTree (Named)

variable {path : Path} {here : Location}

/-- Wherever such a path passes can be named. -/
theorem named_of_mem_trail (hpath : path.IsWritten) (hhere : Named here) {location : Location}
    (hlocation : location ∈ path.trail here) : Named location := by
  obtain ⟨front, back, hparts, rfl⟩ := hlocation
  have hfront : ∀ part ∈ front, isNamed part = true ∧ '/' ∉ part.toList := fun part hpart =>
    hpath part (hparts ▸ List.mem_append_left back hpart)
  have hstart : Named (path.start here) := by
    unfold start
    split
    · exact fun _ hname => absurd hname List.not_mem_nil
    · exact hhere
  generalize path.start here = location at hstart
  clear hparts
  induction front generalizing location with
  | nil => exact hstart
  | cons part rest ih =>
    refine ih (fun other hother => hfront other (List.mem_cons_of_mem _ hother)) _ ?_
    dsimp only
    split
    · exact fun name hname => hstart name (List.dropLast_subset _ hname)
    · rename_i hdots
      obtain ⟨hnamed, hslash⟩ := hfront part List.mem_cons_self
      refine hstart.append fun name hname => ?_
      obtain rfl := List.mem_singleton.mp hname
      exact ⟨hnamed, hdots, hslash⟩

theorem named_normal (hpath : path.IsWritten) (hhere : Named here) : Named (path.normal here) :=
  hpath.named_of_mem_trail hhere (path.normal_mem_trail here)

theorem parent (hpath : path.IsWritten) : path.parent.IsWritten :=
  fun part hpart => hpath part (List.dropLast_subset _ hpart)

end Path.IsWritten

/-! ### Changes -/

/-- What changes within a footprint spares all other files. -/
theorem Change.spares {footprint : Footprint} {touched : Set Location} {before after : FileTree}
    (hchange : Change footprint before after) (hwritten : footprint.written ⊆ touched)
    (hremoved : footprint.removed ⊆ touched) : FileTree.Spares touched before after :=
  fun _ _ _ hout hnode => ⟨hchange.node?_file (fun hmem => hout (hwritten hmem))
    (fun hmem => hout (hremoved hmem)) hnode, fun hleads => hleads.mono hchange.directory⟩

theorem Change.wellNamed {footprint : Footprint} {before after : FileTree}
    (hchange : Change footprint before after)
    (hnamed : ∀ location ∈ footprint.made ∪ footprint.written, FileTree.Named location)
    (hwell : before.WellNamed) : after.WellNamed := by
  intro location hnode
  by_cases hmem : location ∈ footprint.made ∪ footprint.written
  · exact hnamed location hmem
  rw [Set.mem_union, not_or] at hmem
  exact hwell location fun hnone => hnode (hchange.node?_none hmem.1 hmem.2 hnone)

end JarRefinery
