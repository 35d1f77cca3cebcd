import JarRefinery.Proofs.EventLog

/-!
# Opening a run

In a workspace that is ready, a run whose directory is new and can be made begins: its directory is
made, its event log holds the first two events, and nothing else is in the directory.
-/

namespace JarRefinery

open Action (any)

namespace Path

/-- What leads to something in a directory leads to the directory or is that. -/
theorem mem_trail_div {path : Path} {name : String} (hname : FileTree.IsName name)
    {here location : Location} (hlocation : location ∈ (path / name).trail here) :
    location ∈ path.trail here ∨ location = path.normal here ++ [name] := by
  rw [hname.div_eq] at hlocation
  obtain ⟨front, back, hparts, rfl⟩ := hlocation
  rcases List.eq_nil_or_concat back with rfl | ⟨rest, last, rfl⟩
  · right
    rw [List.append_nil] at hparts
    have hnormal : (path / name).normal here = path.normal here ++ [name] := hname.normal_div here
    rw [hname.div_eq] at hnormal
    exact hparts ▸ hnormal
  · left
    have hfront : path.parts ++ [name] = (front ++ rest) ++ [last] := by simpa using hparts
    exact ⟨front, rest, (List.append_inj' hfront rfl).1, rfl⟩

end Path

theorem Workspace.isName_runs : FileTree.IsName "runs" :=
  ⟨by decide, by decide, by decide, by decide⟩

theorem Workspace.isName_libraries : FileTree.IsName "libraries" :=
  ⟨by decide, by decide, by decide, by decide⟩

namespace Pipeline

theorem isName_side {side : String} (hside : side ∈ Settings.sides) :
    FileTree.IsName (side ++ ".jar") ∧ FileTree.IsName (side ++ "-stripped.jar") ∧
      FileTree.IsName (side ++ "-" ++ officialNamespace ++ "-" ++ namedNamespace ++ ".txt") := by
  have hcases : side = "server" ∨ side = "client" := by simpa [Settings.sides] using hside
  rcases hcases with rfl | rfl <;>
    exact ⟨⟨by decide, by decide, by decide, by decide⟩, ⟨by decide, by decide, by decide, by decide⟩,
      ⟨by decide, by decide, by decide, by decide⟩⟩

/-- With direct mappings no stage makes a directory that has a run above it. -/
theorem Way.avoids {run : Run} {here : Location} {path : Path} (hway : Way run here path)
    (hrooted : ".." ∉ here) (hside : run.side ∈ Settings.sides) (hdirect : run.provider = .direct)
    {rest : List String} (hrest : rest ≠ [])
    (hroot : run.workspace.runsDirectory.normal here ++ rest ∉ run.workspace.root.trail here) :
    run.workspace.runsDirectory.normal here ++ rest ∉ path.trail here := by
  have hruns : run.workspace.runsDirectory.normal here = run.workspace.root.normal here ++ ["runs"] :=
    Workspace.isName_runs.normal_div here
  have hbelow : ∀ name, FileTree.IsName name →
      run.workspace.runsDirectory.normal here ++ rest ∉ (run.workspace.root / name).trail here := by
    intro name hname hmem
    rcases Path.mem_trail_div hname hmem with htrail | heq
    · exact hroot htrail
    · have hlength := congrArg List.length heq
      have hlong := List.length_pos_iff.mpr hrest
      simp only [hruns, List.length_append, List.length_singleton] at hlength
      omega
  obtain ⟨hprimary, hstripped, hdocument⟩ := isName_side hside
  cases hway with
  | primary => rwa [Workspace.primary, hprimary.parent_div]
  | @library other hdots =>
    intro hmem
    obtain ⟨front, back, hparts, heq⟩ := Path.trail_parent_subset _ _ hmem
    change run.workspace.librariesDirectory.normal here ++ other = front ++ back at hparts
    change run.workspace.runsDirectory.normal here ++ rest = Path.walk [] front at heq
    have hlibraries : run.workspace.librariesDirectory.normal here =
        run.workspace.root.normal here ++ ["libraries"] :=
      Workspace.isName_libraries.normal_div here
    have hplain : ".." ∉ front := fun hfront => by
      have hall : ".." ∈ run.workspace.librariesDirectory.normal here ++ other :=
        hparts ▸ List.mem_append_left back hfront
      rcases List.mem_append.mp hall with hbase | hother
      · exact Path.dots_notMem_normal hrooted _ hbase
      · exact hdots hother
    rw [Path.walk_eq_append hplain] at heq
    rw [List.nil_append] at heq
    rw [← heq, hruns, hlibraries] at hparts
    simp at hparts
  | unpacked => exact hbelow _ ⟨by decide, by decide, by decide, by decide⟩
  | stripped => rwa [Workspace.stripped, hstripped.parent_div]
  | document hpath =>
    rw [hdirect] at hpath
    rw [hpath, Workspace.mapping, hdocument.parent_div]
    exact hbelow _ ⟨by decide, by decide, by decide, by decide⟩
  | built hset =>
    rw [Remapper.passOutput, Workspace.mapped, (isName_passOutput hset).1.parent_div]
    exact hbelow _ ⟨by decide, by decide, by decide, by decide⟩
  | sources => exact hbelow _ ⟨by decide, by decide, by decide, by decide⟩

/-- The directory of the run that a request asks for is new and can be made, below the one for runs,
and the files in it can be named. -/
structure Request.Fresh (request : Request) (files : FileTree) : Prop where
  relative : (Path.ofString request.runId).root = ""
  plain : ".." ∉ (Path.ofString request.runId).parts
  events : (eventsPath request.workspaceOf request.runId).toString.utf8ByteSize ≤ FileTree.pathLimit
  report : (reportPath request.workspaceOf request.runId).toString.utf8ByteSize ≤ FileTree.pathLimit
  new : ∀ location, (runDirectory request.workspaceOf request.runId).normal files.here <+: location →
    files.node? location = none
  made : ((FileTree.ensureDirectories (runDirectory request.workspaceOf request.runId)).eval
    files).1 = .ok ()

/-- The event that tells where a run takes place. -/
def placeOf (host : Host) (here : Location) : Event :=
  ⟨"run.env", "__init__", .null, [("hostname", .text host.hostName),
    ("pid", .ofNat host.processId), ("cwd", .text (Path.ofLocation here).toString)]⟩

/-- The event that a run begins. -/
def startEvent (run : Run) (notes : Json.Fields) : Event :=
  ⟨"run.start", run.id, .null,
    [("version", .text run.version), ("mappings", .text run.provider.kind)] ++ notes⟩

namespace Request.Fresh

variable {request : Request} {files : FileTree} (hfresh : request.Fresh files)

include hfresh

theorem fits (provider : MappingProvider) : Fits (request.runWith provider) :=
  ⟨rfl, hfresh.relative, hfresh.plain, hfresh.events, hfresh.report⟩

/-- No path to the directory of the run passes what is to be in it. -/
theorem notMem_trail (hroot : files.HasDirectory request.workspaceOf.root) {rest : List String}
    (hrest : rest ≠ []) :
    (runDirectory request.workspaceOf request.runId).normal files.here ++ rest ∉
      (runDirectory request.workspaceOf request.runId).trail files.here := by
  have hfits := hfresh.fits .direct
  have hnormal := hfits.normal_runDirectory files.here
  intro hmem
  have htoo : ∀ front, front <+: (Path.ofString request.runId).parts →
      (runDirectory request.workspaceOf request.runId).normal files.here ++ rest ≠
        request.workspaceOf.runsDirectory.normal files.here ++ front := by
    intro front hfront heq
    have hlength := congrArg List.length heq
    have hshort := hfront.length_le
    have hlong := List.length_pos_iff.mpr hrest
    rw [show (runDirectory request.workspaceOf request.runId).normal files.here = _ from hnormal]
      at hlength
    simp only [List.length_append, Request.runWith] at hlength
    omega
  rcases hfits.trail_runDirectory hmem with htrail | ⟨front, hfront, heq⟩
  · rcases Path.mem_trail_div Workspace.isName_runs htrail with hroots | hruns
    · have hthere := hroot.node_of_mem_trail hroots
      rw [hfresh.new _ (List.prefix_append _ _)] at hthere
      cases hthere
    · refine htoo [] List.nil_prefix ?_
      rw [List.append_nil]
      exact hruns.trans (Workspace.isName_runs.normal_div files.here).symm
  · exact htoo front hfront heq

/-- The directory is made, and nothing is in it. -/
theorem made_directory (hroot : files.HasDirectory request.workspaceOf.root) {after : FileTree}
    (hafter : (FileTree.ensureDirectories
      (runDirectory request.workspaceOf request.runId)).eval files = (.ok (), after)) :
    after.here = files.here ∧
      after.HasDirectory (runDirectory request.workspaceOf request.runId) ∧
      ∀ rest, rest ≠ [] → after.node?
        ((runDirectory request.workspaceOf request.runId).normal files.here ++ rest) = none := by
  obtain ⟨hchange, hmade⟩ := FileTree.ensureDirectories_spec files
    (runDirectory request.workspaceOf request.runId)
  rw [hafter] at hchange hmade
  refine ⟨hchange.here, hmade rfl, fun rest hrest => ?_⟩
  exact hchange.node?_none (hfresh.notMem_trail hroot hrest) (Set.notMem_empty _)
    (hfresh.new _ (List.prefix_append _ _))

omit hfresh in
/-- In a directory without an event log one is begun. -/
theorem eval_start (host : Host) (world : World) {workspace : Workspace} {runId : String}
    (hdirectory : world.files.HasDirectory (runDirectory workspace runId))
    (hlength : (eventsPath workspace runId).toString.utf8ByteSize ≤ FileTree.pathLimit)
    (hnone : world.files.node? ((eventsPath workspace runId).normal world.files.here) = none) :
    (EventLog.start (eventsPath workspace runId)).eval host world =
      (.ok ⟨eventsPath workspace runId⟩, { world with
        files := world.files.put ((eventsPath workspace runId).normal world.files.here)
          (.file (line host (placeOf host world.files.here)) FileTree.defaultMode) }) := by
  have hparent : (eventsPath workspace runId).parent = runDirectory workspace runId :=
    isName_events.parent_div
  have hensure : (Action.onFiles (FileTree.ensureDirectories
      (eventsPath workspace runId).parent)).eval host world = (.ok (), world) := by
    rw [hparent, Action.eval_onFiles, hdirectory.eval_ensureDirectories]
    rfl
  have hreach : world.files.Reachable (eventsPath workspace runId) :=
    isName_events.reachable_div hdirectory hlength
  have habove : world.files.node?
      ((eventsPath workspace runId).normal world.files.here).dropLast = some .directory := by
    rw [eventsPath, isName_events.normal_div, List.dropLast_concat]
    exact hdirectory.node
  unfold EventLog.start EventLog.placeEvent EventLog.append
  simp only [bind_assoc, pure_bind]
  rw [Action.eval_bind_ok hensure, Action.eval_bind_ok (Action.eval_read _ _),
    Action.eval_bind_ok (Action.eval_get _ _), Action.eval_bind_ok (Action.eval_read _ _),
    Action.eval_bind, Action.eval_onFiles, hreach.eval_appendFile_new hnone habove]
  rfl

theorem eval_openRun (host : Host) (provider : MappingProvider) (world : World)
    (hworld : world.files = files) (hroot : files.HasDirectory request.workspaceOf.root) :
    ∃ opened, (openRun request.workspaceOf request.runId request.version request.settings
        provider).eval host world = (.ok (request.runWith provider), opened) ∧
      opened.files.here = files.here ∧ opened.state = world.state ∧
      Kept (request.runWith provider) opened.files ∧
      opened.files.node? ((eventsPath request.workspaceOf request.runId).normal files.here) =
        some (.file (line host (placeOf host files.here)) FileTree.defaultMode) ∧
      opened.files.node? ((reportPath request.workspaceOf request.runId).normal files.here) =
        none := by
  subst hworld
  obtain ⟨tree, hmade⟩ : ∃ tree, (FileTree.ensureDirectories (runDirectory request.workspaceOf
      request.runId)).eval world.files = (.ok (), tree) := ⟨_, Prod.ext hfresh.made rfl⟩
  obtain ⟨hhere, hdirectory, hempty⟩ := hfresh.made_directory hroot hmade
  have hensure : (Action.onFiles (FileTree.ensureDirectories (runDirectory request.workspaceOf
      request.runId))).eval host world = (.ok (), { world with files := tree }) := by
    rw [Action.eval_onFiles, hmade]
    rfl
  have hevents : (eventsPath request.workspaceOf request.runId).normal tree.here =
      (runDirectory request.workspaceOf request.runId).normal world.files.here ++
        ["events.jsonl"] := by
    rw [hhere]
    exact isName_events.normal_div _
  have hnone : tree.node? ((eventsPath request.workspaceOf request.runId).normal tree.here) =
      none := by
    rw [hevents]
    exact hempty _ (List.cons_ne_nil _ _)
  have hstart := eval_start host { world with files := tree } hdirectory hfresh.events hnone
  rw [show ({ world with files := tree } : World).files.here = world.files.here from hhere] at hstart
  rw [hhere] at hnone hevents
  generalize line host (placeOf host world.files.here) = contents at hstart ⊢
  have hchange : Change _ tree (tree.put ((eventsPath request.workspaceOf request.runId).normal
      world.files.here) (.file contents FileTree.defaultMode)) := .putFile (by simp [hnone])
  have hfile : (tree.put ((eventsPath request.workspaceOf request.runId).normal world.files.here)
      (.file contents FileTree.defaultMode)).node?
        ((eventsPath request.workspaceOf request.runId).normal world.files.here) =
          some (.file contents FileTree.defaultMode) := by
    rw [FileTree.node?_put, if_neg (by simp [hevents]), if_pos rfl]
  unfold openRun
  rw [Action.eval_bind_ok hensure, Action.eval_bind_ok hstart]
  refine ⟨_, rfl, hhere, rfl, ⟨hdirectory.mono hchange, contents, FileTree.defaultMode, ?_⟩, hfile, ?_⟩
  · change (tree.put _ _).node? ((eventsPath request.workspaceOf request.runId).normal tree.here) = _
    rw [hhere]
    exact hfile
  · change (tree.put _ _).node? _ = none
    rw [normal_report, FileTree.node?_put, if_neg (by simp), if_neg (by simp [hevents])]
    exact hempty _ (List.cons_ne_nil _ _)

end Request.Fresh

/-- The notes of a request can stand in an event. -/
theorem make_start (request : Request) (run : Run) :
    Event.make "run.start" run.id
      [("version", .text run.version), ("mappings", .text run.provider.kind)] request.notes =
        .ok (startEvent run request.notes) :=
  rfl

theorem announceStart_succeeds {d : Discipline} {run : Run}
    (htells : ∀ event, (run.events.append event).Succeeds d any) (hlog : d.AllowsLog)
    (request : Request) (stages : List Stage) :
    (announceStart run stages request.notes).Succeeds d any := by
  unfold announceStart
  refine (Run.log_succeeds hlog _ _ _).andThen fun _ => ?_
  simp only [make_start]
  exact .andThen (.pure trivial) fun event => htells event

theorem announceStart_tells {run : Run} {host : Host} {here : Location} (hrooted : ".." ∉ here)
    (hfits : Fits run) (request : Request) (stages : List Stage) :
    Action.Says host here run [startEvent run request.notes]
      (announceStart run stages request.notes) any := by
  unfold announceStart
  simp only [make_start]
  exact (Action.Says.log _ _ _).andThen fun _ =>
    (Action.Says.pure rfl).bind fun event hevent => hevent ▸ .append hrooted hfits _

/-- A run whose directory is new begins. Where its report is to be there is nothing. -/
theorem Request.Fresh.begins {request : Request} {ready : World}
    (hfresh : request.Fresh ready.files) (hroot : ready.files.HasDirectory request.workspaceOf.root)
    (hrooted : ".." ∉ ready.files.here) (host : Host) (provider : MappingProvider) :
    ∃ begun, (beginRun Stage.all request.workspaceOf request.runId request.version
        request.settings provider request.notes).eval host ready =
          (.ok (request.runWith provider), begun) ∧
      begun.files.here = ready.files.here ∧
      Reporting (request.runWith provider)
        {(reportPath request.workspaceOf request.runId).normal ready.files.here} begun ∧
      Logs host ready.files.here (request.runWith provider) [placeOf host ready.files.here,
        startEvent (request.runWith provider) request.notes] begun := by
  obtain ⟨opened, hopened, hhere, hstate, hkept, hfile, hreport⟩ :=
    hfresh.eval_openRun host provider { ready with state := {} } rfl hroot
  have hhanded : Handed (request.runWith provider) opened.state := by
    rw [hstate]
    exact Handed.empty _
  have hready : (reporting host ready.files.here (request.runWith provider)
      {(reportPath request.workspaceOf request.runId).normal ready.files.here}).Ready opened := by
    refine ⟨hhere, hkept, hhanded, ?_⟩
    rintro _ rfl
    simp [hreport]
  have hlogs : Logs host ready.files.here (request.runWith provider)
      [placeOf host ready.files.here] opened := by
    refine ⟨⟨FileTree.defaultMode, ?_⟩, hhere, hkept, hhanded, by simp⟩
    rw [List.flatMap_singleton]
    exact hfile
  have hfits := hfresh.fits provider
  obtain ⟨value, begun, hannounced, -, hbegun, -⟩ := (announceStart_succeeds
    (reporting.append_succeeds hrooted hfits) reporting.allowsLog request Stage.all).value hready
  obtain ⟨value', begun', hannounced', -, hlogs'⟩ :=
    announceStart_tells hrooted hfits request Stage.all _ _ hlogs
  obtain ⟨-, rfl⟩ := Prod.mk.inj (hannounced.symm.trans hannounced')
  refine ⟨begun, ?_, hbegun.here, hbegun.inv, hlogs'⟩
  rw [eval_beginRun, Action.eval_bind_ok hopened]
  exact Action.eval_bind_ok hannounced

end Pipeline

end JarRefinery
