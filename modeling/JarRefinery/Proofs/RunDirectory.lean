import JarRefinery.Proofs.Allowances
import JarRefinery.Proofs.Entry
import JarRefinery.Proofs.Success

/-!
# The directory of a run

A run keeps its event log and its report in a directory of its own. While the directory is there and
the event log is a file, every event can be told, and no stage takes either of them away.
-/

namespace JarRefinery

open Action (any)

/-! ### Names in a directory -/

/-- A name that leads from a directory to what is in it. -/
structure FileTree.IsName (name : String) : Prop where
  single : Path.ofString name = ⟨"", [name]⟩
  noDots : name ≠ ".."
  short : name.utf8ByteSize ≤ nameLimit
  noNull : '\x00' ∉ name.toList

namespace FileTree.IsName

variable {path : Path} {name : String} (hname : IsName name)

include hname

theorem div_eq : path / name = ⟨path.root, path.parts ++ [name]⟩ :=
  Path.div_of_single hname.single path

theorem parent_div : (path / name).parent = path := by
  rw [hname.div_eq, Path.parent]
  simp

theorem normal_div (here : Location) : (path / name).normal here = path.normal here ++ [name] :=
  Path.normal_div_of_single hname.single hname.noDots path here

theorem reachable_div {tree : FileTree} (hdirectory : tree.HasDirectory path)
    (hlength : (path / name).toString.utf8ByteSize ≤ pathLimit) : tree.Reachable (path / name) := by
  refine ⟨?_, hlength, ?_⟩
  · have hpath : '\x00' ∉ name.toList ∧ hasNull path = false :=
      ⟨hname.noNull, hdirectory.reachable.noNull⟩
    rw [hname.div_eq]
    simpa [hasNull, and_comm] using hpath
  · rw [hname.div_eq]
    refine Passable.append.mpr ⟨hdirectory.reachable.passable, ?_⟩
    exact ⟨hdirectory.node, .inr hname.short, trivial⟩

end FileTree.IsName

namespace Pipeline

theorem isName_events : FileTree.IsName "events.jsonl" :=
  ⟨by decide, by decide, by decide, by decide⟩

theorem isName_report : FileTree.IsName "run_report.json" :=
  ⟨by decide, by decide, by decide, by decide⟩

/-- The run has a directory below the one for runs, with paths that are short enough. -/
structure Fits (run : Run) : Prop where
  path : run.events.path = eventsPath run.workspace run.id
  relative : (Path.ofString run.id).root = ""
  plain : ".." ∉ (Path.ofString run.id).parts
  events : (eventsPath run.workspace run.id).toString.utf8ByteSize ≤ FileTree.pathLimit
  report : (reportPath run.workspace run.id).toString.utf8ByteSize ≤ FileTree.pathLimit

/-- The directory of the run is there, and its event log is a file. -/
structure Kept (run : Run) (files : FileTree) : Prop where
  directory : files.HasDirectory (runDirectory run.workspace run.id)
  events : ∃ contents mode,
    files.node? (run.events.path.normal files.here) = some (.file contents mode)

variable {run : Run} {files after : FileTree}

theorem Kept.mono (hkept : Kept run files) {footprint : Footprint}
    (hchange : Change footprint files after)
    (hremoved : run.events.path.normal files.here ∉ footprint.removed) : Kept run after := by
  obtain ⟨contents, mode, hnode⟩ := hkept.events
  refine ⟨hkept.directory.mono hchange, ?_⟩
  rw [hchange.here]
  exact hchange.file _ contents mode hremoved hnode

theorem Fits.normal_events (hfits : Fits run) (here : Location) :
    run.events.path.normal here =
      (runDirectory run.workspace run.id).normal here ++ ["events.jsonl"] := by
  rw [hfits.path]
  exact isName_events.normal_div here

theorem normal_report (workspace : Workspace) (runId : String) (here : Location) :
    (reportPath workspace runId).normal here =
      (runDirectory workspace runId).normal here ++ ["run_report.json"] :=
  isName_report.normal_div here

theorem Kept.reachable_events (hkept : Kept run files) (hfits : Fits run) :
    files.Reachable run.events.path := by
  rw [hfits.path]
  exact isName_events.reachable_div hkept.directory hfits.events

theorem Kept.reachable_report (hkept : Kept run files) (hfits : Fits run) :
    files.Reachable (reportPath run.workspace run.id) :=
  isName_report.reachable_div hkept.directory hfits.report

/-- An event as it stands in the event log. -/
def line (host : Host) (event : Event) : Bytes :=
  Text.Utf8.encode ((event.toJson host.clock).print ++ "\n")

/-- While the run is kept every event goes to the end of its log. -/
theorem Kept.eval_append {world : World} (hkept : Kept run world.files) (hfits : Fits run)
    (host : Host) (event : Event) : ∃ contents mode,
      world.files.node? (run.events.path.normal world.files.here) = some (.file contents mode) ∧
      (run.events.append event).eval host world = (.ok (), { world with
        files := world.files.put (run.events.path.normal world.files.here)
          (.file (contents ++ line host event) mode) }) := by
  obtain ⟨contents, mode, hnode⟩ := hkept.events
  refine ⟨contents, mode, hnode, ?_⟩
  unfold EventLog.append
  rw [Action.eval_bind_ok (Action.eval_read host world), Action.eval_onFiles,
    (hkept.reachable_events hfits).eval_appendFile hnode]
  rfl

theorem Fits.runDirectory_eq (hfits : Fits run) : runDirectory run.workspace run.id =
    ⟨run.workspace.runsDirectory.root,
      run.workspace.runsDirectory.parts ++ (Path.ofString run.id).parts⟩ := by
  change run.workspace.runsDirectory.join (Path.ofString run.id) = _
  simp [Path.join, Path.isAbsolute, hfits.relative]

theorem Fits.normal_runDirectory (hfits : Fits run) (here : Location) :
    (runDirectory run.workspace run.id).normal here =
      run.workspace.runsDirectory.normal here ++ (Path.ofString run.id).parts := by
  rw [hfits.runDirectory_eq, Path.normal_eq, Path.walk_append, Path.walk_eq_append hfits.plain]
  rfl

/-- What leads to the directory of the run leads to that of all runs or lies below it. -/
theorem Fits.trail_runDirectory (hfits : Fits run) {here location : Location}
    (hlocation : location ∈ (runDirectory run.workspace run.id).trail here) :
    location ∈ run.workspace.runsDirectory.trail here ∨
      ∃ front, front <+: (Path.ofString run.id).parts ∧
        location = run.workspace.runsDirectory.normal here ++ front := by
  rw [hfits.runDirectory_eq] at hlocation
  obtain ⟨front, back, hparts, rfl⟩ := hlocation
  rcases List.append_eq_append_iff.mp hparts with ⟨rest, hfront, hrest⟩ | ⟨rest, hfront, -⟩
  · right
    have hplain : ".." ∉ rest := fun hmem =>
      hfits.plain (hrest ▸ List.mem_append_left _ hmem)
    refine ⟨rest, ⟨back, hrest.symm⟩, ?_⟩
    rw [hfront, Path.walk_append, Path.walk_eq_append hplain]
    rfl
  · exact .inl ⟨front, rest, hfront, rfl⟩

end Pipeline

/-! ### What lies outside -/

/-- Whatever an address answers, it does not ask the whole program to end. -/
structure Host.AnswersOrdinarily (host : Host) : Prop where
  failure : ∀ past address fault, host.network past address = .failure fault →
    Stage.isFailure fault = true
  broken : ∀ past address status location body fault,
    host.network past address = .response status location body (some fault) →
      Stage.isFailure fault = true

/-- Tools change nothing below the directory of runs, and take away no directory that leads there. -/
structure Host.SparesRuns (host : Host) (workspace : Workspace) (here : Location) : Prop where
  below : ∀ calls call files location, workspace.runsDirectory.normal here <+: location →
    (host.tools calls call files).2.node? location = files.node? location
  above : ∀ calls call files, ∀ location ∈ workspace.runsDirectory.trail here,
    files.node? location = some .directory →
      (host.tools calls call files).2.node? location = some .directory

namespace Pipeline

variable {run : Run} {host : Host} {here : Location}

theorem Kept.called (hfits : Fits run) (hspares : host.SparesRuns run.workspace here)
    {files : FileTree} (hhere : files.here = here) (hkept : Kept run files) (calls : List ToolCall)
    (call : ToolCall) :
    Kept run { (host.tools calls call files).2 with here := files.here } := by
  subst hhere
  refine ⟨hkept.directory.of_trail rfl fun location hlocation hnode => ?_, ?_⟩
  · rcases hfits.trail_runDirectory hlocation with htrail | ⟨front, -, rfl⟩
    · exact hspares.above calls call files location htrail hnode
    · exact (hspares.below calls call files _ (List.prefix_append _ _)).trans hnode
  · obtain ⟨contents, mode, hnode⟩ := hkept.events
    refine ⟨contents, mode, (hspares.below calls call files _ ?_).trans hnode⟩
    rw [hfits.normal_events, hfits.normal_runDirectory, List.append_assoc]
    exact List.prefix_append _ _

/-- What holds while the stages of a run are performed. No directory is at the guarded places. -/
structure Reporting (run : Run) (guarded : Set Location) (world : World) : Prop where
  kept : Kept run world.files
  handed : Handed run world.state
  free : ∀ location ∈ guarded, world.files.node? location ≠ some .directory

/-- The run keeps its directory, and all faults are failures of a stage. -/
def reporting (host : Host) (here : Location) (run : Run) (guarded : Set Location) :
    Discipline where
  host := host
  here := here
  inv := Reporting run guarded
  step := fun before after => Reporting run guarded before → Reporting run guarded after
  faults := fun fault => Stage.isFailure fault = true
  refl := fun _ hbefore => hbefore
  trans := fun hfirst hsecond hbefore => hsecond (hfirst hbefore)
  keep := fun hstep hbefore => hstep hbefore
  ordinary := fun _ hfault => hfault

namespace reporting

variable {guarded : Set Location}

theorem allowsFiles (hrooted : ".." ∉ here) {footprint : Footprint}
    (hremoved : run.events.path.normal here ∉ footprint.removed)
    (hmade : ∀ location ∈ guarded, location ∉ footprint.made) :
    (reporting host here run guarded).AllowsFiles footprint := by
  intro world files hhere _ _ hchange hbefore
  have hchange := hchange hrooted
  refine ⟨hbefore.kept.mono hchange (hhere ▸ hremoved), hbefore.handed, fun location hguarded hnode => ?_⟩
  exact hbefore.free location hguarded (hchange.notMade location (hmade location hguarded) hnode)

theorem allowsNetwork (hnetwork : host.AnswersOrdinarily) :
    (reporting host here run guarded).AllowsNetwork where
  ask := fun _ _ hbefore => ⟨hbefore.kept, hbefore.handed, hbefore.free⟩
  wait := fun _ _ hbefore => ⟨hbefore.kept, hbefore.handed, hbefore.free⟩
  failure := hnetwork.failure
  broken := hnetwork.broken

theorem allowsLog : (reporting host here run guarded).AllowsLog :=
  fun _ _ hbefore => ⟨hbefore.kept, hbefore.handed, hbefore.free⟩

theorem allowsHand (change : RunState → RunState)
    (hchange : ∀ state, Handed run state → Handed run (change state)) :
    (reporting host here run guarded).AllowsHand change :=
  fun _ _ hbefore => ⟨hbefore.kept, hchange _ hbefore.handed, hbefore.free⟩

theorem allowsCall (hfits : Fits run) (hspares : host.SparesRuns run.workspace here)
    (hguarded : ∀ location ∈ guarded, run.workspace.runsDirectory.normal here <+: location)
    (call : ToolCall) : (reporting host here run guarded).AllowsCall call := by
  intro world hhere _ hbefore
  refine ⟨hbefore.kept.called hfits hspares hhere _ _, hbefore.handed, fun location hmem => ?_⟩
  have hsame := hspares.below world.calls call world.files location (hguarded location hmem)
  exact fun hnode => hbefore.free location hmem (hsame.symm.trans hnode)

/-- Every event can be told. -/
theorem append_succeeds (hrooted : ".." ∉ here) (hfits : Fits run) (event : Event) :
    (run.events.append event).Succeeds (reporting host here run guarded) any where
  keeps := EventLog.append_keeps (allowsFiles hrooted (Set.notMem_empty _)
    fun _ _ => Set.notMem_empty _) event
  returns := by
    intro world hready
    obtain ⟨contents, mode, -, heval⟩ := hready.inv.kept.eval_append hfits host event
    exact ⟨(), congrArg Prod.fst heval⟩

end reporting

/-! ### What the stages do to a run -/

theorem events_notMem_siblings (hfits : Fits run) (target : Path) :
    run.events.path.normal here ∉ siblings here target := by
  rintro ⟨n, heq⟩
  rw [hfits.normal_events] at heq
  have hname := congrArg (·.toList.head?) (List.append_inj_right' heq rfl |> List.singleton_inj.mp)
  simp [FileTree.siblingName] at hname

theorem isName_passOutput {name : String}
    (hname : name = intermediaryNamespace ∨ name = namedNamespace) :
    FileTree.IsName (name ++ "-mapped." ++ "jar") ∧ name ++ "-mapped." ++ "jar" ≠ "events.jsonl" := by
  rcases hname with rfl | rfl
  · exact ⟨⟨by decide, by decide, by decide, by decide⟩, by decide⟩
  · exact ⟨⟨by decide, by decide, by decide, by decide⟩, by decide⟩

theorem events_notMem_passOutput (hfits : Fits run) {set : MappingSet}
    (hset : set.name = intermediaryNamespace ∨ set.name = namedNamespace) :
    run.events.path.normal here ∉
      ({(Remapper.passOutput run.workspace set).normal here} : Set Location) := by
  obtain ⟨hname, hother⟩ := isName_passOutput hset
  intro heq
  have hlast : (runDirectory run.workspace run.id).normal here ++ ["events.jsonl"] =
      run.workspace.buildDirectory.normal here ++ [set.name ++ "-mapped." ++ "jar"] := by
    rw [← hfits.normal_events, ← hname.normal_div]
    exact heq
  exact hother (List.singleton_inj.mp (List.append_inj_right' hlast rfl)).symm

/-- The paths to which the stages make directories. -/
inductive Way (run : Run) (here : Location) : Path → Prop
  | primary : Way run here (run.workspace.primary run.side).parent
  | library {rest : List String} : ".." ∉ rest → Way run here
    (Path.ofLocation (run.workspace.librariesDirectory.normal here ++ rest)).parent
  | unpacked : Way run here run.workspace.unpackDirectory
  | stripped : Way run here (run.workspace.stripped run.side).parent
  | document {path : Path} : run.provider.Documents run.workspace run.side any path →
    Way run here path.parent
  | built {set : MappingSet} :
    set.name = intermediaryNamespace ∨ set.name = namedNamespace →
    Way run here (Remapper.passOutput run.workspace set).parent
  | sources : Way run here run.workspace.sourcesDirectory

/-- The stages keep a run as long as they make no directory at a guarded place. -/
theorem reporting.allowances {guarded : Set Location} (hrooted : ".." ∉ here) (hfits : Fits run)
    (hnetwork : host.AnswersOrdinarily) (hspares : host.SparesRuns run.workspace here)
    (hbelow : ∀ location ∈ guarded, run.workspace.runsDirectory.normal here <+: location)
    (hfree : ∀ path, Way run here path → ∀ location ∈ guarded, location ∉ path.trail here) :
    (reporting host here run guarded).Allowances run any := by
  have haround : ∀ target : Path, Way run here target.parent →
      (reporting host here run guarded).Produces target :=
    fun target hway => (allowsNetwork hnetwork).produces (allowsFiles hrooted
      (events_notMem_siblings hfits target) fun location hguarded => hfree _ hway location hguarded)
  have hmade : ∀ path : Path, Way run here path →
      (reporting host here run guarded).AllowsFiles { made := path.trail here } :=
    fun path hway => allowsFiles hrooted (Set.notMem_empty _)
      fun location hguarded => hfree _ hway location hguarded
  refine
    { network := allowsNetwork hnetwork
      log := allowsLog
      calls := allowsCall hfits hspares hbelow
      events := allowsFiles hrooted (Set.notMem_empty _) fun _ _ => Set.notMem_empty _
      primary := haround _ .primary
      libraries := fun rest hrest => haround _ (.library (hrest.noDots hrooted))
      unpacked := hmade _ .unpacked
      stripped := haround _ .stripped
      gives := fun _ _ _ => MappingProvider.Chained.gives_any (allowsNetwork hnetwork) _
      documents := fun path hpath => haround _ (.document hpath)
      built := fun set hname => ⟨hmade _ (.built hname), ?_⟩
      sources := hmade _ .sources
      handed := fun world hinv => hinv.handed
      hand := allowsHand }
  exact allowsFiles hrooted (events_notMem_passOutput hfits hname) fun _ _ => Set.notMem_empty _

theorem reporting.allowances_empty (hrooted : ".." ∉ here) (hfits : Fits run)
    (hnetwork : host.AnswersOrdinarily) (hspares : host.SparesRuns run.workspace here) :
    (reporting host here run ∅).Allowances run any :=
  reporting.allowances hrooted hfits hnetwork hspares (by simp) (by simp)

/-! ### After a failure -/

/-- Nothing is asked for, no tool is called, and only the directory of the run changes. -/
def aftermath (host : Host) (here : Location) (run : Run) : Discipline where
  host := host
  here := here
  inv := fun world => Kept run world.files
  step := fun before after =>
    (Kept run before.files → Kept run after.files) ∧ after.requests = before.requests ∧
      after.calls = before.calls ∧
      ∀ location, ¬(runDirectory run.workspace run.id).normal here <+: location →
        after.files.node? location = before.files.node? location
  faults := fun _ => True
  refl := fun _ => ⟨id, rfl, rfl, fun _ _ => rfl⟩
  trans := fun hfirst hsecond =>
    ⟨fun hkept => hsecond.1 (hfirst.1 hkept), hsecond.2.1.trans hfirst.2.1,
      hsecond.2.2.1.trans hfirst.2.2.1, fun location hout =>
        (hsecond.2.2.2 location hout).trans (hfirst.2.2.2 location hout)⟩
  keep := fun hstep hkept => hstep.1 hkept
  ordinary := fun _ _ => trivial

namespace aftermath

theorem allowsLog : (aftermath host here run).AllowsLog :=
  fun _ _ => ⟨id, rfl, rfl, fun _ _ => rfl⟩

theorem allowsFiles (hrooted : ".." ∉ here) {footprint : Footprint}
    (hremoved : run.events.path.normal here ∉ footprint.removed)
    (hplaces : ∀ location ∈ footprint.places,
      (runDirectory run.workspace run.id).normal here <+: location) :
    (aftermath host here run).AllowsFiles footprint := by
  intro world files hhere _ _ hchange
  refine ⟨fun hkept => hkept.mono (hchange hrooted) (hhere ▸ hremoved), rfl, rfl, ?_⟩
  exact fun location hout => (hchange hrooted).node?_eq fun hmem => hout (hplaces location hmem)

theorem allowsEvents (hrooted : ".." ∉ here) (hfits : Fits run) :
    (aftermath host here run).AllowsFiles { written := {run.events.path.normal here} } := by
  refine allowsFiles hrooted (Set.notMem_empty _) fun location hmem => ?_
  have hevents : location = run.events.path.normal here := by simpa [Footprint.places] using hmem
  rw [hevents, hfits.normal_events]
  exact List.prefix_append _ _

theorem allowsReport (hrooted : ".." ∉ here) :
    (aftermath host here run).AllowsFiles
      { written := {(reportPath run.workspace run.id).normal here} } := by
  refine allowsFiles hrooted (Set.notMem_empty _) fun location hmem => ?_
  have hreport : location = (reportPath run.workspace run.id).normal here := by
    simpa [Footprint.places] using hmem
  rw [hreport, normal_report]
  exact List.prefix_append _ _

/-- The directory of the run is there already. -/
theorem allowsDirectory (hrooted : ".." ∉ here) : (aftermath host here run).AllowsFiles
    { made := (reportPath run.workspace run.id).parent.trail here } := by
  intro world files hhere hkept _ hchange
  have hchange := hchange hrooted
  refine ⟨fun hkept => hkept.mono hchange (Set.notMem_empty _), rfl, rfl, fun location _ => ?_⟩
  by_cases hmade : location ∈ (reportPath run.workspace run.id).parent.trail here
  · have hthere : world.files.node? location = some .directory := by
      rw [reportPath, isName_report.parent_div] at hmade
      exact hkept.directory.node_of_mem_trail (hhere ▸ hmade)
    exact (hchange.directory location hthere).trans hthere.symm
  · exact hchange.node?_eq (by simpa [Footprint.places] using hmade)

end aftermath

end Pipeline

end JarRefinery
