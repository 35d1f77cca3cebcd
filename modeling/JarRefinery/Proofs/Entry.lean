import JarRefinery.Proofs.Course

/-!
# How a run is entered, begun and finished

The check comes first and changes nothing; then the directories of the workspace are made. A run
begins with a directory, an event log and nothing handed on. It ends with its report and an event.
-/

namespace JarRefinery

open Action (any)

/-! ### The check -/

/-- A check of the settings that changes nothing. -/
structure Preflight where
  check : Settings → Action Unit
  unchanged : ∀ settings host world, ((check settings).eval host world).2 = world

/-- A check that everything passes. -/
def Preflight.lenient : Preflight where
  check := fun _ => pure ()
  unchanged := fun _ _ _ => rfl

/-- Nothing changes. -/
def Discipline.unchanged (host : Host) (here : Location) : Discipline where
  host := host
  here := here
  inv := fun _ => True
  step := fun before after => after = before
  faults := fun _ => True
  refl := fun _ => rfl
  trans := fun hfirst hsecond => hsecond.trans hfirst
  keep := fun _ _ => trivial
  ordinary := fun _ _ => trivial

variable {d : Discipline}

theorem Action.Keeps.anyM {α : Type} {items : List α} {test : α → Action Bool}
    (htest : ∀ item, (test item).Keeps d any) : Action.Keeps d (items.anyM test) any := by
  induction items with
  | nil => exact .pure trivial
  | cons item rest ih =>
    unfold List.anyM
    refine (htest item).andThen fun found => ?_
    cases found with
    | true => exact .pure trivial
    | false => exact ih

namespace Tool

theorem isExecutable_keeps (text : String) : (isExecutable text).Keeps d any := by
  unfold isExecutable
  split
  · exact .pure trivial
  have hfind : (Action.onFiles (FileTree.find? (Path.ofString text))).Keeps d any :=
    .look (fun tree => FileTree.eval_find?_snd tree _) fun _ _ _ _ => trivial
  refine .andThen hfind.outcome.anyway fun found => ?_
  split <;> exact .pure trivial

theorem isOnPath_keeps (command : String) : (isOnPath command).Keeps d any := by
  unfold isOnPath
  split
  · exact isExecutable_keeps command
  · exact .andThen (.read trivial) fun host => .anyM fun directory => isExecutable_keeps _

theorem missingJar_keeps (label : String) (jar : Path) : (missingJar label jar).Keeps d any := by
  unfold missingJar
  refine (isFile_keeps jar).andThen fun found => ?_
  split <;> exact .pure trivial

theorem checkTools_keeps (settings : Settings) : (checkTools settings).Keeps d any := by
  unfold checkTools
  refine (isOnPath_keeps _).andThen fun found => ?_
  split <;>
    exact (missingJar_keeps _ _).andThen fun remapper =>
      (missingJar_keeps _ _).andThen fun decompiler =>
        (Action.Keeps.refuse fun _ => d.ordinary _ rfl).anyway

/-- The check for the tools. -/
def preflight : Preflight where
  check := checkTools
  unchanged settings host world :=
    (checkTools_keeps (d := .unchanged host world.files.here) settings).step rfl trivial

end Tool

/-! ### The workspace -/

theorem Workspace.prepare_keeps {workspace : Workspace}
    (hdirectories : ∀ directory ∈ workspace.startDirectories,
      d.AllowsFiles { made := directory.trail d.here }) : workspace.prepare.Keeps d any := by
  unfold Workspace.prepare
  refine .andThen (.explain (.forM fun directory hdirectory =>
    ensureDirectories_keeps (hdirectories directory hdirectory)) fun _ => rfl) fun _ => ?_
  exact (isDirectory_keeps _).andThen fun made =>
    (Action.Keeps.refuse fun _ => d.ordinary _ rfl).anyway

namespace Workspace

variable {host : Host} {workspace : Workspace} {world : World}

theorem hasDirectory_of_forM {directories : List Path} {after : World}
    (heval : (directories.forM fun directory =>
      Action.onFiles (FileTree.ensureDirectories directory)).eval host world = (.ok (), after)) :
    (∀ path, world.files.HasDirectory path → after.files.HasDirectory path) ∧
      ∀ directory ∈ directories, after.files.HasDirectory directory := by
  induction directories generalizing world with
  | nil =>
    obtain ⟨-, rfl⟩ := Prod.mk.inj heval
    exact ⟨fun _ hdirectory => hdirectory, by simp⟩
  | cons directory rest ih =>
    obtain ⟨_, middle, hmake, hrest⟩ := Action.of_eval_bind_ok heval
    obtain ⟨files, hfiles, rfl⟩ := Action.of_eval_onFiles_ok hmake
    obtain ⟨hchange, hmade⟩ := FileTree.ensureDirectories_spec world.files directory
    rw [hfiles] at hchange hmade
    obtain ⟨hkept, hothers⟩ := ih hrest
    exact ⟨fun path hdirectory => hkept path (hdirectory.mono hchange),
      List.forall_mem_cons.mpr ⟨hkept directory (hmade rfl), hothers⟩⟩

/-- A workspace that was prepared has all the directories that a run needs. -/
theorem hasDirectory_of_prepare {ready : World}
    (hprepare : workspace.prepare.eval host world = (.ok (), ready)) :
    ∀ directory ∈ workspace.startDirectories, ready.files.HasDirectory directory := by
  unfold prepare at hprepare
  obtain ⟨_, made, hmade, hprepare⟩ := Action.of_eval_bind_ok hprepare
  obtain ⟨found, looked, hlook, hrefuse⟩ := Action.of_eval_bind_ok hprepare
  obtain ⟨-, rfl⟩ := Action.of_eval_refuse_ok hrefuse
  obtain ⟨files, hfiles, rfl⟩ := Action.of_eval_onFiles_ok hlook
  have hsame := FileTree.eval_isDirectory_snd made.files workspace.root
  rw [hfiles] at hsame
  obtain rfl : files = made.files := hsame
  exact (hasDirectory_of_forM (Action.of_eval_explain_ok hmade)).2

theorem eval_forM_state {directories : List Path} {after : World} (state : RunState)
    (heval : (directories.forM fun directory =>
      Action.onFiles (FileTree.ensureDirectories directory)).eval host world = (.ok (), after)) :
    (directories.forM fun directory =>
      Action.onFiles (FileTree.ensureDirectories directory)).eval host { world with state } =
        (.ok (), { after with state }) := by
  induction directories generalizing world with
  | nil =>
    obtain ⟨-, rfl⟩ := Prod.mk.inj heval
    rfl
  | cons directory rest ih =>
    obtain ⟨_, middle, hmake, hrest⟩ := Action.of_eval_bind_ok heval
    obtain ⟨files, hfiles, rfl⟩ := Action.of_eval_onFiles_ok hmake
    have hmake' : (Action.onFiles (FileTree.ensureDirectories directory)).eval host
        { world with state } = (.ok (), { world with files, state }) := by
      rw [Action.eval_onFiles, hfiles]
      rfl
    exact (Action.eval_bind_ok hmake').trans (ih hrest)

/-- What was handed on before is not looked at. -/
theorem eval_prepare_state {ready : World} (state : RunState)
    (hprepare : workspace.prepare.eval host world = (.ok (), ready)) :
    workspace.prepare.eval host { world with state } = (.ok (), { ready with state }) := by
  unfold prepare at hprepare ⊢
  obtain ⟨_, made, hmade, hprepare⟩ := Action.of_eval_bind_ok hprepare
  obtain ⟨found, looked, hlook, hrefuse⟩ := Action.of_eval_bind_ok hprepare
  obtain ⟨hfound, rfl⟩ := Action.of_eval_refuse_ok hrefuse
  obtain ⟨files, hfiles, rfl⟩ := Action.of_eval_onFiles_ok hlook
  have hmade' := eval_forM_state state (Action.of_eval_explain_ok hmade)
  have hlook' : (Action.onFiles (FileTree.isDirectory workspace.root)).eval host
      { made with state } = (.ok found, { made with files, state }) := by
    rw [Action.eval_onFiles, hfiles]
    rfl
  dsimp only
  rw [Action.eval_bind, Action.eval_explain, hmade']
  dsimp only
  rw [Action.eval_bind_ok hlook', hfound, Action.eval_refuse_false]

end Workspace

theorem Event.make_ordinary (kind runId : String) (own others : Json.Fields) :
    Ordinary (Event.make kind runId own others) := by
  unfold Event.make
  refine .bind ?_ fun _ => .pure _
  unfold Event.checkNames
  split
  · exact .ok _
  · exact .error rfl

theorem RunReport.statusOf_eq_success_iff (results : List StageResult) :
    RunReport.statusOf results = .success ↔ ∀ result ∈ results, result.status ≠ .failed := by
  simp [RunReport.statusOf, RunReport.hasFailed]

theorem RunReport.write_keeps {path : Path}
    (hparent : d.AllowsFiles { made := path.parent.trail d.here })
    (hfile : d.AllowsFiles { written := {path.normal d.here} }) (report : RunReport) :
    (report.write path).Keeps d any := by
  unfold RunReport.write
  exact (ensureDirectories_keeps hparent).andThen fun _ => writeFile_keeps hfile _

namespace Pipeline

theorem enter_keeps (preflight : Preflight) (request : Request)
    (hdirectories : ∀ directory ∈ request.workspaceOf.startDirectories,
      d.AllowsFiles { made := directory.trail d.here })
    (hfaults : ∀ fault, d.faults fault) :
    (enter preflight.check request).Keeps d fun provider => request.provider = .ok provider := by
  unfold enter
  have hcheck : (preflight.check request.settings).Keeps d any := by
    intro world hhere _
    rw [preflight.unchanged]
    refine ⟨d.refl world, hhere, ?_⟩
    split
    · trivial
    · exact hfaults _
  refine hcheck.andThen fun _ => (Workspace.prepare_keeps hdirectories).andThen fun _ => ?_
  exact .ofResult (fun fault _ => hfaults fault) fun provider hprovider => hprovider

/-- Nothing is asked for and no tool is called. -/
def entering (host : Host) (here : Location) : Discipline where
  host := host
  here := here
  inv := fun _ => True
  step := fun before after => after.requests = before.requests ∧ after.calls = before.calls
  faults := fun _ => True
  refl := fun _ => ⟨rfl, rfl⟩
  trans := fun hfirst hsecond => ⟨hsecond.1.trans hfirst.1, hsecond.2.trans hfirst.2⟩
  keep := fun _ _ => trivial
  ordinary := fun _ _ => trivial

theorem enter_quiet (preflight : Preflight) (request : Request) (host : Host) (world : World) :
    let entered := ((enter preflight.check request).eval host world).2
    entered.files.here = world.files.here ∧ entered.requests = world.requests ∧
      entered.calls = world.calls := by
  have hkeeps := enter_keeps (d := entering host world.files.here) preflight request
    (fun _ _ _ _ _ _ _ _ => ⟨rfl, rfl⟩) fun _ => trivial
  obtain ⟨hstep, hhere, -⟩ := hkeeps world rfl trivial
  exact ⟨hhere, hstep⟩

/-- Requests name a provider by its kind. -/
theorem Request.provider_ne_fixed {request : Request} {provider : MappingProvider}
    (hprovider : request.provider = .ok provider) (word : String)
    (sets : Except Fault (List MappingSet)) : provider ≠ .fixed word sets := by
  rintro rfl
  unfold Request.provider MappingProvider.ofKind at hprovider
  split at hprovider <;> cases hprovider

theorem enter_provider {preflight : Preflight} {request : Request} {host : Host} {world ready : World}
    {provider : MappingProvider}
    (henter : (enter preflight.check request).eval host world = (.ok provider, ready)) :
    request.provider = .ok provider := by
  unfold enter at henter
  obtain ⟨_, checked, -, henter⟩ := Action.of_eval_bind_ok henter
  obtain ⟨_, prepared, -, henter⟩ := Action.of_eval_bind_ok henter
  rw [Action.eval_ofResult] at henter
  exact (Prod.mk.inj henter).1

/-- The check has changed nothing before the workspace was prepared. -/
theorem of_eval_enter_ok {preflight : Preflight} {request : Request} {host : Host} {world ready : World}
    {provider : MappingProvider}
    (henter : (enter preflight.check request).eval host world = (.ok provider, ready)) :
    request.workspaceOf.prepare.eval host world = (.ok (), ready) := by
  unfold enter at henter
  obtain ⟨_, checked, hcheck, henter⟩ := Action.of_eval_bind_ok henter
  obtain ⟨_, prepared, hprepare, henter⟩ := Action.of_eval_bind_ok henter
  rw [Action.eval_ofResult] at henter
  obtain ⟨-, rfl⟩ := Prod.mk.inj henter
  have hsame := preflight.unchanged request.settings host world
  rw [hcheck] at hsame
  obtain rfl : checked = world := hsame
  exact hprepare

/-! ### The beginning of a run -/

/-- The run that a request asks for. -/
def Request.runWith (request : Request) (provider : MappingProvider) : Run :=
  ⟨request.runId, request.version, request.workspaceOf, request.settings, provider,
    ⟨eventsPath request.workspaceOf request.runId⟩⟩

/-- The stages of a run have different names. -/
theorem checkNames_all : checkNames Stage.all = .ok () := by
  have hnone : ((Stage.all.map (·.name)).eraseDups.filter fun name =>
      1 < (Stage.all.map (·.name)).count name) = [] := by decide
  unfold checkNames repeatedNames
  simp only [hnone, List.mergeSort_nil]

/-- Once what was handed on before is forgotten, a run is opened and announced. -/
theorem eval_beginRun (request : Request) (provider : MappingProvider) (host : Host)
    (world : World) :
    (beginRun Stage.all request.workspaceOf request.runId request.version request.settings provider
      request.notes).eval host world =
    (do let run ← openRun request.workspaceOf request.runId request.version request.settings provider
        announceStart run Stage.all request.notes
        pure run : Action Run).eval host { world with state := {} } := by
  unfold beginRun
  rw [checkNames_all, Action.eval_bind, Action.eval_ofResult]
  simp only
  rw [Action.eval_bind, Action.eval_modify]

/-- What a run does before its stages. -/
def starting (run : Run) (notes : Json.Fields) : Action Unit := do
  Action.onFiles (FileTree.ensureDirectories (runDirectory run.workspace run.id))
  let _ ← EventLog.start run.events.path
  announceStart run Stage.all notes

theorem eval_beginRun_starting (request : Request) (provider : MappingProvider) (host : Host)
    (world : World) :
    (beginRun Stage.all request.workspaceOf request.runId request.version request.settings provider
      request.notes).eval host world =
    (do starting (request.runWith provider) request.notes
        pure (request.runWith provider) : Action Run).eval host { world with state := {} } := by
  rw [eval_beginRun]
  unfold openRun starting EventLog.start
  simp only [bind_assoc, pure_bind]
  rfl

section

variable {run : Run} (hparent : d.AllowsFiles { made := run.events.path.parent.trail d.here })
  (hevents : d.AllowsFiles { written := {run.events.path.normal d.here} }) (hlog : d.AllowsLog)

include hevents hlog

theorem announceStart_keeps (stages : List Stage) (notes : Json.Fields) :
    (announceStart run stages notes).Keeps d any := by
  unfold announceStart
  refine (Run.log_keeps hlog _ _ _).andThen fun _ => ?_
  refine .andThen (.ofOrdinary (Event.make_ordinary _ _ _ _)) fun event => ?_
  exact EventLog.append_keeps hevents event

theorem announceFinish_keeps (report : RunReport) : (announceFinish run report).Keeps d any := by
  unfold announceFinish
  exact (EventLog.append_keeps hevents _).andThen fun _ => Run.log_keeps hlog _ _ _

include hparent

omit hlog in
theorem start_keeps : (EventLog.start run.events.path).Keeps d (· = run.events) := by
  unfold EventLog.start EventLog.placeEvent
  simp only [bind_assoc, pure_bind]
  refine (ensureDirectories_keeps hparent).andThen fun _ => ?_
  refine .andThen (.read trivial) fun host => .andThen (.get fun _ _ _ => trivial) fun world => ?_
  exact (EventLog.append_keeps hevents _).andThen fun _ => .pure rfl

omit hlog in
theorem openRun_keeps
    (hdirectory : d.AllowsFiles { made := (runDirectory run.workspace run.id).trail d.here })
    (hpath : run.events.path = eventsPath run.workspace run.id) :
    (openRun run.workspace run.id run.version run.settings run.provider).Keeps d (· = run) := by
  unfold openRun
  rw [← hpath]
  refine (ensureDirectories_keeps hdirectory).andThen fun _ => ?_
  refine (start_keeps hparent hevents).bind ?_
  rintro _ rfl
  exact .pure rfl

variable (run) in
/-- What begins a run comes to the run that was asked for. -/
theorem opened_keeps
    (hdirectory : d.AllowsFiles { made := (runDirectory run.workspace run.id).trail d.here })
    (hpath : run.events.path = eventsPath run.workspace run.id) (stages : List Stage)
    (notes : Json.Fields) :
    (do let run ← openRun run.workspace run.id run.version run.settings run.provider
        announceStart run stages notes
        pure run : Action Run).Keeps d (· = run) := by
  refine (openRun_keeps hparent hevents hdirectory hpath).bind ?_
  rintro _ rfl
  exact (announceStart_keeps hevents hlog stages notes).andThen fun _ => .pure rfl

theorem starting_keeps
    (hdirectory : d.AllowsFiles { made := (runDirectory run.workspace run.id).trail d.here })
    (notes : Json.Fields) : (starting run notes).Keeps d any := by
  unfold starting
  refine (ensureDirectories_keeps hdirectory).andThen fun _ => ?_
  exact (start_keeps hparent hevents).anyway.andThen fun _ =>
    announceStart_keeps hevents hlog Stage.all notes

end

/-! ### The end of a run -/

/-- What a run with these results leaves. -/
structure Ends (run : Run) (results : List StageResult) (outcome : RunOutcome) : Prop where
  exitCode : outcome.exitCode = if RunReport.statusOf results = .success then 0 else 1
  run : outcome.run = run
  stages : outcome.report.stages = results
  status : outcome.report.status = RunReport.statusOf results

theorem finishRun_keeps (run : Run) (hlog : d.AllowsLog)
    (hevents : d.AllowsFiles { written := {run.events.path.normal d.here} })
    (hparent : d.AllowsFiles { made := (reportPath run.workspace run.id).parent.trail d.here })
    (hfile : d.AllowsFiles { written := {(reportPath run.workspace run.id).normal d.here} })
    (notes : Json.Fields) (startedAt : String) (results : List StageResult) :
    (finishRun run notes startedAt results).Keeps d fun outcome =>
      Ends run results outcome ∧ ∃ world, d.inv world ∧ world.state = outcome.state := by
  unfold finishRun
  refine .andThen (.read trivial) fun host => ?_
  refine (RunReport.write_keeps hparent hfile _).andThen fun _ => ?_
  refine (announceFinish_keeps hevents hlog _).andThen fun _ => ?_
  refine Run.handed_keeps.bind fun state hstate => .pure ⟨⟨rfl, rfl, rfl, rfl⟩, hstate⟩

theorem Settled.success_or_failed {stages : List Stage} {results : List StageResult}
    (hsettled : Settled stages results) :
    ∀ result ∈ results, result.status = .success ∨ result.status = .failed := by
  induction hsettled with
  | done => simp
  | failed _ hfailed => simpa using .inr hfailed
  | passed _ hsuccess _ ih => simpa [hsuccess] using ih

/-- A run that failed nowhere succeeded everywhere. -/
theorem Settled.all_success {stages : List Stage} {results : List StageResult}
    (hsettled : Settled stages results) (hstatus : RunReport.statusOf results = .success) :
    ∀ result ∈ results, result.status = .success := by
  intro result hresult
  have hnot := (RunReport.statusOf_eq_success_iff results).mp hstatus result hresult
  exact (hsettled.success_or_failed result hresult).resolve_right hnot

/-! ### Whole runs -/

/-- The stages of a run from its beginning to its end. -/
def staging (run : Run) (notes : Json.Fields) (startedAt : String) : Action RunOutcome := do
  starting run notes
  let results ← executeFrom run Stage.all.length 0 Stage.all
  finishRun run notes startedAt results

theorem eval_runStages (request : Request) (provider : MappingProvider) (host : Host)
    (world : World) :
    (runStages Stage.all request.workspaceOf request.runId request.version request.settings provider
      request.notes).eval host world =
    (staging (request.runWith provider) request.notes host.clock).eval host
      { world with state := {} } := by
  unfold runStages staging
  rw [Action.eval_bind_ok (Action.eval_read host world), Action.eval_bind, eval_beginRun_starting,
    Action.eval_bind, Action.eval_bind]
  rcases (starting (request.runWith provider) request.notes).eval host { world with state := {} } with
    ⟨fault | value, begun⟩
  · rfl
  · rfl

/-- Once the stages came to results, the run is brought to its end with them. -/
theorem eval_runStages_finish {request : Request} {provider : MappingProvider} {host : Host}
    {world begun last : World} {run : Run} {results : List StageResult}
    (hbegin : (beginRun Stage.all request.workspaceOf request.runId request.version request.settings
      provider request.notes).eval host world = (.ok run, begun))
    (hstages : (executeFrom run Stage.all.length 0 Stage.all).eval host begun = (.ok results, last)) :
    (runStages Stage.all request.workspaceOf request.runId request.version request.settings provider
      request.notes).eval host world =
    (finishRun run request.notes host.clock results).eval host last := by
  unfold runStages
  rw [Action.eval_bind_ok (Action.eval_read host world)]
  simp only
  rw [Action.eval_bind_ok hbegin, Action.eval_bind_ok hstages]

/-- A run keeps to a discipline that allows what begins and ends it and that its stages keep to. -/
theorem staging_keeps {run : Run} (hlog : d.AllowsLog)
    (hdirectory : d.AllowsFiles { made := (runDirectory run.workspace run.id).trail d.here })
    (hparent : d.AllowsFiles { made := run.events.path.parent.trail d.here })
    (hevents : d.AllowsFiles { written := {run.events.path.normal d.here} })
    (hreports : d.AllowsFiles { made := (reportPath run.workspace run.id).parent.trail d.here })
    (hreport : d.AllowsFiles { written := {(reportPath run.workspace run.id).normal d.here} })
    (hperform : ∀ stage ∈ Stage.all, (stage.perform run).Keeps d any) (notes : Json.Fields)
    (startedAt : String) : (staging run notes startedAt).Keeps d any := by
  unfold staging
  refine (starting_keeps hparent hevents hlog hdirectory notes).andThen fun _ => ?_
  refine (executeFrom_keeps hevents hlog hperform _ _).andThen fun results => ?_
  exact (finishRun_keeps run hlog hevents hreports hreport notes startedAt results).anyway

/-- How a request ends, and the world that it leaves. -/
def Request.ending (request : Request) (preflight : Preflight) (host : Host) (world : World) :
    Except Fault RunOutcome × World :=
  (Pipeline.run preflight.check request).eval host world

/-- A workspace that could not be entered is all that there is to a run. -/
theorem Request.ending_of_refused {request : Request} {preflight : Preflight} {host : Host}
    {world failed : World} {fault : Fault}
    (henter : (enter preflight.check request).eval host world = (.error fault, failed)) :
    request.ending preflight host world = (.error fault, failed) :=
  Action.eval_bind_error henter

theorem Request.ending_of_entered {request : Request} {preflight : Preflight} {host : Host}
    {world ready : World} {provider : MappingProvider}
    (henter : (enter preflight.check request).eval host world = (.ok provider, ready)) :
    request.ending preflight host world =
      (staging (request.runWith provider) request.notes host.clock).eval host
        { ready with state := {} } :=
  (Action.eval_bind_ok henter).trans (eval_runStages request provider host ready)

/-- The stage that has `n` stages before it has begun in this world. -/
def Request.Performing (request : Request) (preflight : Preflight) (host : Host) (world : World)
    (n : Nat) (started : World) : Prop :=
  ∃ provider ready run begun,
    (enter preflight.check request).eval host world = (.ok provider, ready) ∧
    (beginRun Stage.all request.workspaceOf request.runId request.version request.settings provider
      request.notes).eval host ready = (.ok run, begun) ∧
    Pipeline.Performing host run Stage.all begun n started

theorem Request.Performing.unique {request : Request} {preflight : Preflight} {host : Host}
    {world started other : World} {n : Nat} (hstarted : request.Performing preflight host world n started)
    (hother : request.Performing preflight host world n other) : started = other := by
  obtain ⟨provider, ready, run, begun, henter, hbegin, hperforming⟩ := hstarted
  obtain ⟨provider', ready', run', begun', henter', hbegin', hperforming'⟩ := hother
  obtain ⟨hprovider, rfl⟩ := Prod.mk.inj (henter.symm.trans henter')
  obtain rfl := Except.ok.inj hprovider
  obtain ⟨hrun, rfl⟩ := Prod.mk.inj (hbegin.symm.trans hbegin')
  obtain rfl := Except.ok.inj hrun
  exact hperforming.unique hperforming'

/-! ### A small request -/

/-- A request for a version with direct mappings in the directory `ws`. -/
def Request.plain : Request where
  version := "1.0"
  settings :=
    { workspaceRoot := ⟨"", ["workspaces"]⟩, side := "server", mappings := "direct",
      manifestUrl := "", fabricMetaUrl := "", fabricMavenUrl := "", javaBin := "java",
      toolsDir := ⟨"", ["tools"]⟩, remapperJar := ⟨"", ["remapper"]⟩,
      decompilerJar := ⟨"", ["decompiler"]⟩, remapperArgs := [], decompilerArgs := [],
      toolTimeout := none, httpMaxAttempts := 1, httpTimeout := .zero false, libraryWorkers := 1,
      logLevel := "INFO", logFormat := "json" }
  workspace := some ⟨"", ["ws"]⟩
  mappings := none
  runId := "run0"

end Pipeline

end JarRefinery
