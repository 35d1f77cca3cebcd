import JarRefinery.Proofs.Fetching
import JarRefinery.Proofs.LikeStages
import JarRefinery.Proofs.Opening

/-!
# Runs that differ in the version

A run for a word and a run for the version that the word stands for begin alike, execute their stages
alike and end alike. Only what they tell of the version in their records differs.
-/

namespace JarRefinery

open Action (any)

variable {l : Likeness} {run : Run}

/-! ### What is told of the version -/

/-- What goes to a hidden log need not be the same. -/
theorem EventLog.append_matches {log : EventLog} (hclear : l.Clear log.path)
    (hhidden : log.path.normal l.here ∈ l.hidden) (event other : Event) :
    (log.append event).Matches l (log.append other) any := by
  unfold append
  exact .reading rfl (.onFiles (FileTree.appendFile_matches hclear
    fun hseen => absurd hhidden hseen) fun _ _ _ _ => trivial)

theorem EventLog.start_blind {path : Path} (hclear : l.Clear path) : (start path).Blind l any := by
  unfold start placeEvent
  simp only [bind_assoc, pure_bind]
  refine .andThen (.files (FileTree.ensureDirectories_blind hclear.parent)) fun _ => ?_
  have happend : ∀ event, Action.Blind l ((EventLog.mk path).append event >>= fun _ =>
      pure (EventLog.mk path)) any :=
    fun event => (append_blind hclear event).andThen fun _ => .pure trivial
  refine .reading rfl (.getting (fun _ _ => (happend _).keeps) fun world other halike => ?_)
  rw [halike.files.here_eq]
  exact (happend _).agrees world other halike

/-- A report at a hidden place need not be the same. -/
theorem RunReport.write_matches {path : Path} (hclear : l.Clear path)
    (hhidden : path.normal l.here ∈ l.hidden) (report other : RunReport) :
    (report.write path).Matches l (other.write path) any := by
  unfold RunReport.write
  refine .andThen (.files (FileTree.ensureDirectories_blind hclear.parent)) fun _ => ?_
  exact .onFiles (FileTree.writeFile_matches hclear fun hseen => absurd hhidden hseen)
    fun _ _ _ _ => trivial

/-! ### What does not depend on the version -/

section

variable (run) (word : String)

theorem Run.side_version : ({ run with version := word } : Run).side = run.side :=
  rfl

theorem Run.maxAttempts_version : ({ run with version := word } : Run).maxAttempts = run.maxAttempts :=
  rfl

theorem Run.emit_version : ({ run with version := word } : Run).emit = run.emit :=
  rfl

theorem Run.recordArtifact_version :
    ({ run with version := word } : Run).recordArtifact = run.recordArtifact :=
  rfl

theorem MappingProvider.provideDirect_version (metadata : VersionMetadata) (stripped : Artifact) :
    provideDirect { run with version := word } metadata stripped =
      provideDirect run metadata stripped := by
  unfold provideDirect
  simp only [Run.side_version, Run.maxAttempts_version]

namespace Stage

theorem fetch_version : fetch { run with version := word } = fetch run := by
  unfold fetch announceLibrary
  simp only [Run.side_version, Run.maxAttempts_version, Run.emit_version, Run.recordArtifact_version]

theorem unpack_version : unpack { run with version := word } = unpack run := by
  unfold unpack
  simp only [Run.emit_version, Run.recordArtifact_version]

theorem sanitize_version : sanitize { run with version := word } = sanitize run := by
  unfold sanitize
  simp only [Run.side_version, Run.recordArtifact_version]

theorem remap_version : remap { run with version := word } = remap run := by
  unfold remap announcePass
  simp only [Run.emit_version, Run.recordArtifact_version]

theorem decompile_version : decompile { run with version := word } = decompile run := by
  unfold decompile
  simp only [Run.emit_version]

/-- Direct mappings do not depend on the version either. -/
theorem mappings_version (hdirect : run.provider = .direct) :
    mappings { run with version := word } = mappings run := by
  have hprovide : MappingProvider.provide { run with version := word } =
      MappingProvider.provide run := by
    refine congrArg (Run.handed >>= ·) (funext fun state => ?_)
    rw [hdirect]
    rcases state.metadata with _ | metadata <;> rcases state.stripped with _ | stripped
    · rfl
    · rfl
    · rfl
    · exact MappingProvider.provideDirect_version run word metadata stripped
  unfold mappings providedChain
  simp only [hprovide, Run.emit_version, Run.recordArtifact_version]

end Stage

end

/-! ### The execution of a stage -/

namespace Stage

section

variable (hevents : l.Clear run.events.path)

include hevents

theorem begin_blind (stage : Stage) (position : Json) : (stage.begin run position).Blind l any := by
  unfold begin
  exact (Run.emit_blind hevents _ _ _).andThen fun _ => Run.log_blind _ _ _

theorem announce_blind (stage : Stage) (output : StageOutput) :
    (announce run stage output).Blind l any := by
  unfold announce
  refine .andThen (.forM fun warning _ => ?_) fun _ => ?_
  · exact (Run.emit_blind hevents _ _ _).andThen fun _ => Run.log_blind _ _ _
  dsimp only
  split
  · exact (Run.emit_blind hevents _ _ _).andThen fun _ => Run.emit_blind hevents _ _ _
  · exact Run.emit_blind hevents _ _ _

omit hevents in
theorem result_blind (stage : Stage) (status : StageStatus) (output : StageOutput)
    (error : Option StageError) : (stage.result status output error).Blind l any := by
  unfold result
  exact .reading rfl (.pure trivial)

theorem fail_blind (stage : Stage) (position : Json) (fault : Fault) (sofar : StageOutput) :
    (fail run stage position fault sofar).Blind l any := by
  unfold fail announceFailure
  refine .andThen ((Run.emit_blind hevents _ _ _).andThen fun _ => Run.log_blind _ _ _) fun _ => ?_
  exact result_blind _ _ _ _

omit hevents in
theorem caught_matches {α : Type} {first second : Action α} (hmatches : first.Matches l second any) :
    (caught first).Matches l (caught second) any := by
  unfold caught
  exact .handle (.map hmatches.anyway) fun _ _ => .pure trivial

theorem finish_blind (stage : Stage) (position : Json) (output : StageOutput) :
    (stage.finish run position output).Blind l any := by
  unfold finish
  refine (caught_matches (announce_blind hevents stage output)).andThen fun result => ?_
  cases result with
  | error fault => exact fail_blind hevents _ _ _ _
  | ok value => exact (Run.log_blind _ _ _).andThen fun _ => result_blind _ _ _ _

/-- Apart from what it performs, the execution of a stage does not depend on the version. -/
theorem execute_matches {stage : Stage} {word : String} (position : Option String)
    (hperform : (stage.perform { run with version := word }).Matches l (stage.perform run) any) :
    (stage.execute { run with version := word } position).Matches l (stage.execute run position)
      any := by
  unfold execute
  refine .andThen (begin_blind hevents stage _) fun _ => ?_
  refine (caught_matches hperform).andThen fun result => ?_
  cases result with
  | error fault => exact fail_blind hevents _ _ _ _
  | ok output => exact finish_blind hevents _ _ _

end

/-! ### The stages of a run -/

section

variable (hcovers : l.Covers run) (hfixed : ∀ word sets, run.provider ≠ .fixed word sets)
  (hlists : ∀ metaUrl mavenUrl, run.provider = .chained metaUrl mavenUrl →
    ∀ release, l.host.Lists release → MappingRelease.Steady release.version)

include hcovers hfixed hlists

/-- The libraries are all that a stage does not overlook. -/
theorem perform_blind {n : Nat} {stage : Stage} (hstage : all[n]? = some stage)
    (hlibraries : n = 1 → l.gone = ∅) : (stage.perform run).Blind l any := by
  match n, hstage with
  | 0, hstage =>
    cases hstage
    exact resolve_blind hcovers
  | 1, hstage =>
    cases hstage
    exact fetch_blind hcovers (hlibraries rfl)
  | 2, hstage =>
    cases hstage
    exact unpack_blind hcovers
  | 3, hstage =>
    cases hstage
    exact sanitize_blind hcovers
  | 4, hstage =>
    cases hstage
    exact mappings_blind hcovers hfixed hlists
  | 5, hstage =>
    cases hstage
    exact remap_blind hcovers
  | 6, hstage =>
    cases hstage
    exact decompile_blind hcovers
  | n + 7, hstage => simp [all] at hstage

end

section

variable (hcovers : l.Covers run) (hnone : l.gone = ∅) {word : String}
  (hdeclares : ∀ world manifest, ((source run).manifest.eval l.host world).1 = .ok manifest →
    manifest.Declares word run.version)

include hcovers hnone hdeclares

/-- No stage but that of chained mappings tells the word from the version. -/
theorem perform_matches {n : Nat} {stage : Stage} (hstage : all[n]? = some stage)
    (hdirect : n = 4 → run.provider = .direct) :
    (stage.perform { run with version := word }).Matches l (stage.perform run) any := by
  match n, hstage with
  | 0, hstage =>
    cases hstage
    exact resolve_matches hcovers hdeclares
  | 1, hstage =>
    cases hstage
    exact .congr (fetch_version run word) (fetch_blind hcovers hnone)
  | 2, hstage =>
    cases hstage
    exact .congr (unpack_version run word) (unpack_blind hcovers)
  | 3, hstage =>
    cases hstage
    exact .congr (sanitize_version run word) (sanitize_blind hcovers)
  | 4, hstage =>
    cases hstage
    have hprovider := hdirect rfl
    exact .congr (mappings_version run word hprovider) (mappings_blind hcovers
      (by simp [hprovider]) (by simp [hprovider]))
  | 5, hstage =>
    cases hstage
    exact .congr (remap_version run word) (remap_blind hcovers)
  | 6, hstage =>
    cases hstage
    exact .congr (decompile_version run word) (decompile_blind hcovers)
  | n + 7, hstage => simp [all] at hstage

end

/-- A stage succeeds or fails. -/
theorem status_of_eval_execute {host : Host} {stage : Stage} {position : Option String}
    {world after : World} {result : StageResult}
    (heval : (stage.execute run position).eval host world = (.ok result, after)) :
    result.status = .success ∨ result.status = .failed := by
  rw [eval_execute] at heval
  rcases hbegin : (stage.begin run (.ofOption position)).eval host world with
    ⟨fault | value, started⟩ <;> simp only [hbegin] at heval
  · cases heval
  rcases hperform : (stage.perform run).eval host started with ⟨fault | output, performed⟩ <;>
    simp only [hperform] at heval
  · split at heval
    · exact .inr ((fail_keeps (d := .quiet host performed.files.here fun _ => True)
        (Discipline.quiet.allowsFiles _) Discipline.quiet.allowsLog stage _ fault {}).value rfl
          trivial heval).2
    · cases heval
  · exact ((finish_keeps (d := .quiet host performed.files.here fun _ => True)
      (Discipline.quiet.allowsFiles _) Discipline.quiet.allowsLog stage _ output).value rfl
        trivial heval).2

end Stage

namespace Pipeline

/-! ### The stages one after the other -/

section

variable (hcovers : l.Covers run) (hnone : l.gone = ∅) (hall : ∀ address, address ∈ l.shared)
  {word : String}
  (hdeclares : ∀ world manifest, ((Stage.source run).manifest.eval l.host world).1 = .ok manifest →
    manifest.Declares word run.version)
  {begun reached other : World} {n : Nat}
  (happlies : run.provider = .direct ∨
    ∀ started, ¬Performing l.other run Stage.all begun 4 started)
  (hreaches : Reaches l.other run Stage.all begun n reached) (halike : l.Alike other reached)

include hcovers hnone hall hdeclares happlies hreaches halike

/-- The stage of chained mappings does not get to be performed. -/
theorem execute_agrees {stage : Stage} (hstage : Stage.all[n]? = some stage) :
    l.Agrees ((stage.execute { run with version := word }
        (some (position n Stage.all.length))).eval l.host other)
      ((stage.execute run (some (position n Stage.all.length))).eval l.other reached) := by
  by_cases hdirect : n = 4 → run.provider = .direct
  · exact (Stage.execute_matches hcovers.events _
      (Stage.perform_matches hcovers hnone hdeclares hstage hdirect)).agrees other reached halike
  obtain ⟨rfl, hchained⟩ := Classical.not_imp.mp hdirect
  have hnever := happlies.resolve_left hchained
  unfold Stage.execute
  refine Likeness.Agrees.bind hall ((Stage.begin_blind hcovers.events stage _).agrees other reached
    halike) fun value after started _ hbegin _ => ?_
  exact absurd ⟨reached, stage, hreaches, hstage, hbegin⟩ (hnever started)

theorem executeFrom_agrees {rest : List Stage} (hrest : Stage.all.drop n = rest) :
    l.Agrees ((executeFrom { run with version := word } Stage.all.length n rest).eval l.host other)
      ((executeFrom run Stage.all.length n rest).eval l.other reached) := by
  induction rest generalizing n reached other with
  | nil => exact .inr ⟨rfl, halike⟩
  | cons stage rest ih =>
    obtain ⟨hstage, hdrop⟩ := drop_eq_cons_iff.mp hrest
    unfold executeFrom
    refine Likeness.Agrees.bind hall
      (execute_agrees hcovers hnone hall hdeclares happlies hreaches halike hstage)
      fun result after after' _ heval hafter => ?_
    rcases Stage.status_of_eval_execute heval with hsuccess | hfailed
    · simp only [RunReport.hasFailed, hsuccess, reduceCtorEq, decide_false, Bool.false_eq_true,
        if_false]
      exact Likeness.Agrees.bind hall (ih (hreaches.next hstage heval hsuccess) hafter hdrop)
        fun results last last' _ _ hlast => .inr ⟨rfl, hlast⟩
    · simp only [RunReport.hasFailed, hfailed, decide_true, if_true]
      exact Likeness.Agrees.bind hall ((Run.log_blind _ _ _).agrees after after' hafter)
        fun _ last last' _ _ hlast => .inr ⟨rfl, hlast⟩

end

/-! ### The beginning and the end -/

theorem starting_matches (hcovers : l.Covers run)
    (hhidden : run.events.path.normal l.here ∈ l.hidden) (word : String) (request : Request) :
    (starting { run with version := word } request.notes).Matches l (starting run request.notes)
      any := by
  have hother := make_start request { run with version := word }
  unfold starting announceStart
  refine .andThen (.files (FileTree.ensureDirectories_blind hcovers.directory)) fun _ => ?_
  refine (EventLog.start_blind hcovers.events).andThen fun _ => ?_
  refine (Run.log_matches _ _ _ _ _ _).andThen fun _ => ?_
  have hpure : ∀ event : Event, Action.ofResult (.ok event) = pure event := fun _ => rfl
  simp only [make_start, hother, hpure, pure_bind]
  exact EventLog.append_matches hcovers.events hhidden _ _

/-- What is seen of an outcome besides the notes of its report. -/
def RunOutcome.seen (outcome : RunOutcome) : Nat × List StageResult × RunState :=
  (outcome.exitCode, outcome.report.stages, outcome.state)

/-- The same, with no more of the results of stages than `see` leaves. -/
def RunOutcome.seenAs {γ : Type} (see : List StageResult → γ) (outcome : RunOutcome) :
    Nat × γ × RunState :=
  (outcome.exitCode, see outcome.report.stages, outcome.state)

/-- The end of a run depends on how its stages ended, not on what else is told of them. -/
theorem finishRun_matches {γ : Type} (hcovers : l.Covers run)
    (hhidden : (reportPath run.workspace run.id).normal l.here ∈ l.hidden) (word : String)
    (notes : Json.Fields) (startedAt : String) (see : List StageResult → γ)
    {results others : List StageResult} (hsee : see results = see others)
    (hstatus : RunReport.statusOf results = RunReport.statusOf others) :
    Action.Matches l
      (RunOutcome.seenAs see <$> finishRun { run with version := word } notes startedAt results)
      (RunOutcome.seenAs see <$> finishRun run notes startedAt others) any := by
  unfold finishRun announceFinish
  simp only [map_bind, map_pure]
  refine .reading rfl ?_
  refine (RunReport.write_matches hcovers.report hhidden _ _).andThen fun _ => ?_
  have hevent : finishEvent { run with version := word }
      (report { run with version := word } notes startedAt l.host.clock results) =
        finishEvent run (report run notes startedAt l.host.clock others) := by
    simp only [finishEvent, report, hstatus]
  rw [hevent]
  refine .andThen ((EventLog.append_blind hcovers.events _).andThen fun _ =>
    Run.log_matches _ _ _ _ _ _) fun _ => ?_
  have hexit := congrArg (· = StageStatus.success) hstatus
  exact Run.handed_blind.bind fun state _ => .congr
    (congrArg pure (Prod.ext (if_congr (iff_of_eq hexit) rfl rfl) (Prod.ext hsee rfl)))
    (.pure trivial)

/-! ### Whole runs -/

/-- The same request for another word. -/
def Request.asking (request : Request) (word : String) : Request :=
  { request with version := word }

/-- The places of the records of the run that a request asks for. -/
def Request.records (request : Request) (here : Location) : List Location :=
  [(eventsPath request.workspaceOf request.runId).normal here,
    (reportPath request.workspaceOf request.runId).normal here]

theorem Request.records_named (request : Request) (here : Location) :
    ∀ location ∈ request.records here,
      ∃ name ∈ recordNames, location.getLast? = some name := by
  have hlast : ∀ {name : String}, FileTree.IsName name →
      ((runDirectory request.workspaceOf request.runId / name).normal here).getLast? = some name :=
    fun hname => by rw [hname.normal_div, List.getLast?_concat]
  intro location hlocation
  obtain rfl | rfl : location = (eventsPath request.workspaceOf request.runId).normal here ∨
      location = (reportPath request.workspaceOf request.runId).normal here := by
    simpa [Request.records] using hlocation
  · exact ⟨"events.jsonl", by decide, hlast isName_events⟩
  · exact ⟨"run_report.json", by decide, hlast isName_report⟩

/-- Runs end with the same exit status, stages and state or with the same fault. They have asked for
the same, called the same tools, and left the same files, apart from what those at the hidden places
hold. -/
structure EndsAlike (hidden : List Location) (first second : Except Fault RunOutcome × World) :
    Prop where
  result : first.1.map RunOutcome.seen = second.1.map RunOutcome.seen
  requests : first.2.requests = second.2.requests
  calls : first.2.calls = second.2.calls
  files : first.2.files.veiled hidden = second.2.files.veiled hidden

section

variable {request : Request} (hworkspace : request.workspace.isSome) (word : String)

include hworkspace

theorem Request.workspaceOf_asking : (request.asking word).workspaceOf = request.workspaceOf := by
  obtain ⟨path, hpath⟩ := Option.isSome_iff_exists.mp hworkspace
  simp [workspaceOf, workspaceRoot, asking, hpath]

theorem Request.runWith_asking (provider : MappingProvider) :
    (request.asking word).runWith provider = { request.runWith provider with version := word } := by
  unfold runWith
  rw [workspaceOf_asking hworkspace]
  rfl

theorem enter_asking (check : Settings → Action Unit) :
    enter check (request.asking word) = enter check request := by
  unfold enter
  rw [Request.workspaceOf_asking hworkspace]
  rfl

end

section

variable (hcovers : l.Covers run) (hnone : l.gone = ∅) (hall : ∀ address, address ∈ l.shared)
  (word : String)
  (hdeclares : ∀ world manifest, ((Stage.source run).manifest.eval l.host world).1 = .ok manifest →
    manifest.Declares word run.version)
  (hevents : run.events.path.normal l.here ∈ l.hidden)
  (hreport : (reportPath run.workspace run.id).normal l.here ∈ l.hidden)

include hcovers hnone hall hdeclares hevents hreport

theorem staging_agrees (request : Request) (startedAt : String) {world other : World}
    (halike : l.Alike other world)
    (happlies : run.provider = .direct ∨ ∀ begun,
      (starting run request.notes).eval l.other world = (.ok (), begun) →
        ∀ started, ¬Performing l.other run Stage.all begun 4 started) :
    l.Agrees
      ((RunOutcome.seen <$> staging { run with version := word } request.notes startedAt).eval
        l.host other)
      ((RunOutcome.seen <$> staging run request.notes startedAt).eval l.other world) := by
  unfold staging
  simp only [map_bind]
  refine Likeness.Agrees.bind hall ((starting_matches hcovers hevents word request).agrees other
    world halike) fun _ after begun _ hbegin hbegun => ?_
  have hperforms := happlies.imp id fun hnever => hnever begun hbegin
  refine Likeness.Agrees.bind hall
    (executeFrom_agrees hcovers hnone hall hdeclares hperforms .start hbegun rfl)
    fun results last last' _ _ hlast => ?_
  exact (finishRun_matches hcovers hreport word request.notes startedAt id rfl rfl).agrees
    last last' hlast

end

/-- Where a run finds the versions. -/
def Request.source (request : Request) : ReleaseSource :=
  ⟨request.settings.manifestUrl, request.settings.httpMaxAttempts⟩

/-- **Aliases.** With direct mappings a run for a word ends as the run for the version that the word
stands for, whatever the network and the tools do. With chained mappings it does so as long as no
mappings are looked for. -/
theorem run_alias (request : Request) (word : String) (preflight : Preflight) (host : Host)
    (world : World) (hworkspace : request.workspace.isSome)
    (hside : request.settings.side ∈ Settings.sides)
    (htools : host.IsBlindTo (request.records world.files.here))
    (hdeclares : ∀ world manifest, (request.source.manifest.eval host world).1 = .ok manifest →
      manifest.Declares word request.version)
    (happlies : request.provider = .ok .direct ∨
      ∀ started, ¬request.Performing preflight host world 4 started) :
    EndsAlike (request.records world.files.here)
      ((request.asking word).ending preflight host world)
      (request.ending preflight host world) := by
  have henters := enter_asking hworkspace word preflight.check
  unfold Request.ending Pipeline.run
  rw [henters]
  obtain ⟨hhere, -, -⟩ := enter_quiet preflight request host world
  rcases henter : (enter preflight.check request).eval host world with ⟨fault | provider, ready⟩
  · rw [Action.eval_bind_error henter, Action.eval_bind_error henter]
    exact ⟨rfl, rfl, rfl, rfl⟩
  rw [henter] at hhere
  rw [Action.eval_bind_ok henter, Action.eval_bind_ok henter, eval_runStages, eval_runStages,
    show (request.asking word).notes = request.notes from rfl]
  simp only [Request.runWith_asking hworkspace]
  obtain ⟨l, hhost, hother, hnone, hall, hasked, hplace, hhidden⟩ : ∃ l : Likeness, l.host = host ∧
      l.other = host ∧ l.gone = ∅ ∧ (∀ address, address ∈ l.shared) ∧
      (l.asked = [] ∧ l.askedOther = []) ∧ l.here = world.files.here ∧
      l.hidden = request.records world.files.here :=
    ⟨.veiling host world.files.here (request.records world.files.here) (request.records_named _)
      htools, rfl, rfl, rfl, Set.mem_univ, ⟨rfl, rfl⟩, rfl, rfl⟩
  have hrecords : ∀ location ∈ request.records l.here, location ∈ l.hidden := by
    rw [hhidden, hplace]
    exact fun _ hlocation => hlocation
  have hcovers : l.Covers (request.runWith provider) := .of_none hnone hside
  have halike : l.Alike { ready with state := {} } { ready with state := {} } :=
    { files := ⟨rfl, hhere.trans hplace.symm, by simp [hnone]⟩
      requests := ⟨ready.requests, by simp [hasked]⟩
      calls := rfl
      state := rfl
      legible := .empty }
  have hperforms : provider = .direct ∨ ∀ begun,
      (starting (request.runWith provider) request.notes).eval l.other { ready with state := {} } =
        (.ok (), begun) →
      ∀ started, ¬Performing l.other (request.runWith provider) Stage.all begun 4 started := by
    rw [hother]
    refine happlies.imp (fun hdirect => ?_) fun hnever begun hbegin started hperforming => ?_
    · exact Except.ok.inj ((enter_provider henter).symm.trans hdirect)
    · refine hnever started ⟨provider, ready, request.runWith provider, begun, henter, ?_, hperforming⟩
      rw [eval_beginRun_starting, Action.eval_bind_ok hbegin]
      rfl
  have hdeclares : ∀ world manifest, (request.source.manifest.eval l.host world).1 = .ok manifest →
      manifest.Declares word request.version := by
    rw [hhost]
    exact hdeclares
  have hagrees := staging_agrees hcovers hnone hall word hdeclares (hrecords _ List.mem_cons_self)
    (hrecords _ (List.mem_cons_of_mem _ List.mem_cons_self)) request host.clock halike hperforms
  obtain ⟨hresult, hafter⟩ := hagrees.alike hall
  rw [hhost, hother, Action.eval_map, Action.eval_map] at hresult hafter
  dsimp only at hresult hafter
  obtain ⟨past, hfirst, hsecond⟩ := hafter.requests
  refine ⟨hresult, ?_, hafter.calls, ?_⟩
  · rw [hasked.1] at hfirst
    rw [hasked.2] at hsecond
    exact hfirst.trans hsecond.symm
  · have hshown := hafter.files.shown
    unfold FileTree.View.shown at hshown
    rwa [hnone, FileTree.without_empty, FileTree.without_empty, hhidden] at hshown

/-- A manifest that declares the version to be the latest one. -/
def smallManifest : VersionManifest :=
  ⟨⟨some "1.0", none⟩, [⟨"1.0", none, "http://m", none⟩]⟩

/-- Every address answers with the manifest. -/
def smallIndex : Host :=
  { Host.idle with
    network := fun _ _ => .response 200 none (Text.Utf8.encode smallManifest.toJson.print) none }

/-- A request that finds the versions in the manifest. -/
def Request.listed : Request :=
  { Request.plain with settings := { Request.plain.settings with manifestUrl := "http://m" } }

theorem smallIndex_declares (world : World) (manifest : VersionManifest)
    (hmanifest : (Request.listed.source.manifest.eval smallIndex world).1 = .ok manifest) :
    manifest.Declares "latest" Request.listed.version := by
  have hread : ((Text.decodeDocument (Text.Utf8.encode smallManifest.toJson.print)).toOption.bind
      fun chars => (Json.read chars).toOption.bind fun json =>
        (VersionManifest.ofJson json).toOption) = some smallManifest := by decide +kernel
  have haddress : (Url.parse "http://m").toOption.map (·.isAbsolute) = some true := by
    decide +kernel
  obtain ⟨chars, hchars, hread⟩ := Option.bind_eq_some_iff.mp hread
  obtain ⟨json, hjson, hof⟩ := Option.bind_eq_some_iff.mp hread
  obtain ⟨url, hurl, habsolute⟩ := Option.map_eq_some_iff.mp haddress
  have hget : (Http.getJson 1 "http://m").eval smallIndex world = _ := Http.eval_getJson_of_reply
    (Action.ok_of_toOption hurl) habsolute (fun _ => rfl) (Action.ok_of_toOption hchars)
    (Action.ok_of_toOption hjson) 1 world
  have hmanifest' : (Request.listed.source.manifest.eval smallIndex world).1 = .ok smallManifest := by
    change ((ReleaseSource.manifest ⟨"http://m", 1⟩).eval smallIndex world).1 = _
    unfold ReleaseSource.manifest ReleaseSource.document
    rw [Action.eval_explain, Action.eval_bind_ok hget, Action.ok_of_toOption hof]
    rfl
  obtain rfl := Except.ok.inj (hmanifest.symm.trans hmanifest')
  exact ⟨rfl, rfl, rfl⟩

theorem run_alias_small : EndsAlike (Request.listed.records FileTree.bare.here)
    ((Request.listed.asking "latest").ending .lenient smallIndex { files := .bare })
    (Request.listed.ending .lenient smallIndex { files := .bare }) :=
  run_alias Request.listed "latest" .lenient smallIndex { files := .bare } rfl (by decide)
    (fun _ _ _ _ hsame => ⟨rfl, hsame⟩) smallIndex_declares (.inl rfl)

end Pipeline

end JarRefinery
