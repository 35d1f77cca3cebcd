import JarRefinery.Proofs.Outcome

/-!
# A run stops at the first fault

If a run cannot be entered nothing is asked for and no tool is called. A run stops at the first stage
that fails; after its fault nothing is asked for either, and only the directory of the run changes.
-/

namespace JarRefinery

open Action (any)

namespace Pipeline

variable {run : Run}

/-! ### Entering -/

/-- A workspace that was entered is a directory. -/
theorem enter_ready {preflight : Preflight} {request : Request} {host : Host} {world ready : World}
    {provider : MappingProvider}
    (henter : (enter preflight.check request).eval host world = (.ok provider, ready)) :
    request.provider = .ok provider ∧ ready.files.HasDirectory request.workspaceOf.root :=
  ⟨enter_provider henter,
    Workspace.hasDirectory_of_prepare (of_eval_enter_ok henter) _ List.mem_cons_self⟩

/-! ### After the fault of a stage -/

theorem Reaches.ready {d : Discipline} {stages : List Stage} {start reached : World} {n : Nat}
    (hkeeps : ∀ stage ∈ stages, ∀ position, (stage.execute run position).Keeps d any)
    (hstart : d.Ready start) (hreaches : Reaches d.host run stages start n reached) :
    d.Ready reached := by
  induction hreaches with
  | start => exact hstart
  | @next n reached after stage result _ hstage heval _ ih =>
    have hready := ih.after (hkeeps stage (List.mem_of_getElem? hstage)
      (some (position n stages.length)))
    rwa [heval] at hready

section Aftermath

variable {host : Host} {here : Location} (hrooted : ".." ∉ here) (hfits : Fits run)

include hrooted hfits

theorem aftermath.append_succeeds (event : Event) :
    (run.events.append event).Succeeds (aftermath host here run) any where
  keeps := EventLog.append_keeps (allowsEvents hrooted hfits) event
  returns := by
    intro world hready
    obtain ⟨contents, mode, -, heval⟩ := hready.inv.eval_append hfits host event
    exact ⟨(), congrArg Prod.fst heval⟩

/-- Once a stage has failed, the stages end without asking for anything. -/
theorem executeFrom_aftermath {stage : Stage} {rest : List Stage} {total n : Nat}
    {reached started performed : World} {fault : Fault}
    (hbegin : (stage.begin run (.ofOption (some (position n total)))).eval host reached =
      (.ok (), started))
    (hperform : (stage.perform run).eval host started = (.error fault, performed))
    (hfailure : Stage.isFailure fault = true) (hready : (aftermath host here run).Ready performed) :
    (aftermath host here run).step performed
        ((executeFrom run total n (stage :: rest)).eval host reached).2 ∧
      (aftermath host here run).Ready
        ((executeFrom run total n (stage :: rest)).eval host reached).2 := by
  have htells : ∀ event, (run.events.append event).Succeeds (aftermath host here run) any :=
    aftermath.append_succeeds hrooted hfits
  obtain ⟨result, failed, hfail, ⟨-, hstatus⟩, hfailed, hstep⟩ :=
    (Stage.fail_succeeds htells aftermath.allowsLog stage
      (.ofOption (some (position n total))) fault {}).value hready
  have hexecute : (stage.execute run (some (position n total))).eval host reached =
      (.ok result, failed) := by
    rw [Stage.eval_execute, hbegin]
    simp only [hperform, hfailure, if_true]
    exact hfail
  have hlog : Action.Keeps (aftermath host here run)
      (do Run.log .error "Stopping on first failure" [("stage", .text stage.name)]
          pure [result]) any :=
    (Run.log_keeps aftermath.allowsLog _ _ _).andThen fun _ => .pure trivial
  rw [eval_executeFrom_failed hexecute hstatus]
  exact ⟨(aftermath host here run).trans hstep (hlog.step hfailed.here hfailed.inv),
    hfailed.after hlog⟩

theorem finishRun_aftermath (notes : Json.Fields) (startedAt : String)
    (results : List StageResult) :
    (finishRun run notes startedAt results).Keeps (aftermath host here run) any :=
  (finishRun_keeps run aftermath.allowsLog (aftermath.allowsEvents hrooted hfits)
    (aftermath.allowsDirectory hrooted) (aftermath.allowsReport hrooted) notes startedAt
    results).anyway

end Aftermath

/-! ### The stages of a run -/

/-- If not all stages succeed then one of them was performed and ended with a fault. -/
theorem executeFrom_failing {d : Discipline}
    (htells : ∀ event, (run.events.append event).Succeeds d any) (hlog : d.AllowsLog)
    {stages : List Stage} (hperform : ∀ stage ∈ stages, (stage.perform run).Keeps d any)
    {start : World} {rest : List Stage} {n : Nat} (hrest : stages.drop n = rest) {reached last : World}
    (hreaches : Reaches d.host run stages start n reached) (hready : d.Ready reached)
    {results : List StageResult}
    (heval : (executeFrom run stages.length n rest).eval d.host reached = (.ok results, last))
    (hfailed : ∃ result ∈ results, result.status ≠ .success) :
    ∃ m stage started fault performed, Performing d.host run stages start m started ∧
      stages[m]? = some stage ∧
      (stage.perform run).eval d.host started = (.error fault, performed) := by
  induction rest generalizing n reached results with
  | nil =>
    obtain ⟨rfl, -⟩ := Prod.mk.inj heval |>.imp_left Except.ok.inj
    simp at hfailed
  | cons stage rest ih =>
    obtain ⟨hstage, hdrop⟩ := drop_eq_cons_iff.mp hrest
    have hmem := List.mem_of_getElem? hstage
    obtain ⟨_, started, hbegin, -, hstarted, -⟩ := (Stage.begin_succeeds htells hlog stage
      (.ofOption (some (position n stages.length)))).value hready
    have hperforming : Performing d.host run stages start n started :=
      ⟨reached, stage, hreaches, hstage, hbegin⟩
    rcases hperformed : (stage.perform run).eval d.host started with ⟨fault | output, performed⟩
    · exact ⟨n, stage, started, fault, performed, hperforming, hstage, hperformed⟩
    have hreadyPerformed := hstarted.after (hperform stage hmem)
    rw [hperformed] at hreadyPerformed
    obtain ⟨result, finished, hfinish, ⟨-, hsuccess⟩, hreadyFinished, -⟩ :=
      (Stage.finish_succeeds htells hlog stage (.ofOption (some (position n stages.length)))
        output).value hreadyPerformed
    have hexecute : (stage.execute run (some (position n stages.length))).eval d.host reached =
        (.ok result, finished) := by
      rw [Stage.eval_execute, hbegin]
      simp only [hperformed]
      exact hfinish
    have hgoes : RunReport.hasFailed result = false := by simp [RunReport.hasFailed, hsuccess]
    unfold executeFrom at heval
    rw [Action.eval_bind_ok hexecute] at heval
    simp only [hgoes, Bool.false_eq_true, if_false] at heval
    obtain ⟨others, later, hothers, hreturn⟩ := Action.of_eval_bind_ok heval
    obtain ⟨rfl, rfl⟩ := Prod.mk.inj hreturn |>.imp_left Except.ok.inj
    refine ih hdrop (hreaches.next hstage hexecute hsuccess) hreadyFinished hothers ?_
    obtain ⟨other, hother, hstatus⟩ := hfailed
    rcases List.mem_cons.mp hother with rfl | hother
    · exact absurd hsuccess hstatus
    · exact ⟨other, hother, hstatus⟩

section Reporting

variable {host : Host} {here : Location} {guarded : Set Location} (hrooted : ".." ∉ here)
  (hfits : Fits run) (hfixed : ∀ word sets, run.provider ≠ .fixed word sets)
  (hallows : (reporting host here run guarded).Allowances run any)

include hrooted hfits hfixed hallows

/-- The stages come to results, and the run is still kept. -/
theorem executeFrom_reports {begun : World} (hready : (reporting host here run guarded).Ready begun) :
    ∃ results last,
      (executeFrom run Stage.all.length 0 Stage.all).eval host begun = (.ok results, last) ∧
      Settled Stage.all results ∧ (reporting host here run guarded).Ready last := by
  obtain ⟨results, last, heval, hsettled, hlast, -⟩ := (executeFrom_succeeds
    (reporting.append_succeeds hrooted hfits) reporting.allowsLog (fun _ hfault => hfault)
    (fun stage hstage => Stage.perform_keeps hallows hfixed hstage) Stage.all.length 0).value hready
  exact ⟨results, last, heval, hsettled, hlast⟩

/-- A stage is performed in a world in which the run is kept. -/
theorem Performing.ready {begun started : World} {n : Nat}
    (hready : (reporting host here run guarded).Ready begun)
    (hperforming : Performing host run Stage.all begun n started) :
    (reporting host here run guarded).Ready started := by
  obtain ⟨reached, stage, hreaches, hstage, hbegin⟩ := hperforming
  have htells : ∀ event, (run.events.append event).Succeeds (reporting host here run guarded) any :=
    reporting.append_succeeds hrooted hfits
  have hreached := hreaches.ready (d := reporting host here run guarded)
    (fun stage hstage position => (Stage.execute_succeeds htells reporting.allowsLog
      (fun _ hfault => hfault) (Stage.perform_keeps hallows hfixed hstage) position).keeps.anyway)
    hready
  have hstarted := hreached.after (Stage.begin_succeeds htells reporting.allowsLog stage
    (.ofOption (some (position n Stage.all.length)))).keeps
  rwa [show (reporting host here run guarded).host = host from rfl, hbegin] at hstarted

end Reporting

/-! ### Whole runs -/

/-- How a run ends whose stages begin in the world `begun`, come to these results and leave the world
`last`. -/
structure Concludes (host : Host) (run : Run) (begun last : World) (results : List StageResult)
    (ending : Except Fault RunOutcome × World) : Prop where
  settled : Settled Stage.all results
  returns : (∃ outcome, ending.1 = .ok outcome) ↔
    last.files.node? ((reportPath run.workspace run.id).normal last.files.here) ≠ some .directory
  told : ∀ outcome, ending.1 = .ok outcome → outcome.report.stages = results ∧
    Agreement outcome ∧ Told host run last.files ending.2.files outcome.report
  failing : (∃ result ∈ results, result.status ≠ .success) →
    ∃ n stage started fault performed, Performing host run Stage.all begun n started ∧
      Stage.all[n]? = some stage ∧ (stage.perform run).eval host started = (.error fault, performed)
  aftermath : ∀ n stage started fault performed, Performing host run Stage.all begun n started →
    Stage.all[n]? = some stage → (stage.perform run).eval host started = (.error fault, performed) →
      ending.2.requests = performed.requests ∧ ending.2.calls = performed.calls ∧
        ∀ location, ¬(runDirectory run.workspace run.id).normal last.files.here <+: location →
          ending.2.files.node? location = performed.files.node? location

/-- What comes after the fault of a stage up to the end of the run. -/
theorem Performing.aftermath {host : Host} {here : Location} (hrooted : ".." ∉ here)
    (hfits : Fits run) {begun started performed last : World} {n : Nat} {stage : Stage} {fault : Fault}
    {results : List StageResult} (hperforming : Performing host run Stage.all begun n started)
    (hstage : Stage.all[n]? = some stage)
    (hperform : (stage.perform run).eval host started = (.error fault, performed))
    (hfailure : Stage.isFailure fault = true) (hready : (aftermath host here run).Ready performed)
    (hstages : (executeFrom run Stage.all.length 0 Stage.all).eval host begun = (.ok results, last))
    (notes : Json.Fields) (startedAt : String) :
    (Pipeline.aftermath host here run).step performed
      ((finishRun run notes startedAt results).eval host last).2 := by
  obtain ⟨reached, stage', hreaches, hstage', hbegin⟩ := hperforming
  obtain rfl := Option.some.inj (hstage.symm.trans hstage')
  obtain ⟨before, heval⟩ := hreaches.eval_executeFrom
  rw [hstages, drop_eq_cons_iff.mpr ⟨hstage, rfl⟩] at heval
  obtain ⟨hstep, hlast⟩ := @executeFrom_aftermath _ _ _ hrooted hfits _
    (Stage.all.drop (n + 1)) _ _ _ _ _ _ hbegin hperform hfailure hready
  have hends : last = _ := congrArg Prod.snd heval
  rw [← hends] at hstep hlast
  have hfinish := (finishRun_aftermath hrooted hfits notes startedAt results).step hlast.here hlast.inv
  rw [show (Pipeline.aftermath host here run).host = host from rfl] at hfinish
  exact (Pipeline.aftermath host here run).trans hstep hfinish

namespace Request.Fresh

variable {request : Request} {ready : World} (hfresh : request.Fresh ready.files)
  (hroot : ready.files.HasDirectory request.workspaceOf.root) (hrooted : ".." ∉ ready.files.here)
  {host : Host} (hnetwork : host.AnswersOrdinarily)
  (hspares : host.SparesRuns request.workspaceOf ready.files.here) {provider : MappingProvider}
  (hprovider : request.provider = .ok provider)

include hfresh hroot hrooted hnetwork hspares hprovider

theorem concludes : ∃ begun results last,
    (beginRun Stage.all request.workspaceOf request.runId request.version request.settings provider
      request.notes).eval host ready = (.ok (request.runWith provider), begun) ∧
    (executeFrom (request.runWith provider) Stage.all.length 0 Stage.all).eval host begun =
      (.ok results, last) ∧
    last.files.here = ready.files.here ∧
    Concludes host (request.runWith provider) begun last results
      ((runStages Stage.all request.workspaceOf request.runId request.version request.settings
        provider request.notes).eval host ready) := by
  have hfits := hfresh.fits provider
  have hfixed : ∀ word sets, (request.runWith provider).provider ≠ .fixed word sets :=
    request.provider_ne_fixed hprovider
  have hallows := reporting.allowances_empty hrooted hfits hnetwork hspares
  obtain ⟨begun, hbegin, hhere, hbegun, -⟩ := hfresh.begins hroot hrooted host provider
  have hready : (reporting host ready.files.here (request.runWith provider) ∅).Ready begun :=
    ⟨hhere, hbegun.kept, hbegun.handed, by simp⟩
  obtain ⟨results, last, hstages, hsettled, hlast⟩ :=
    executeFrom_reports hrooted hfits hfixed hallows hready
  have heval : (runStages Stage.all request.workspaceOf request.runId request.version
      request.settings provider request.notes).eval host ready =
        (finishRun (request.runWith provider) request.notes host.clock results).eval host last :=
    eval_runStages_finish hbegin hstages
  refine ⟨begun, results, last, hbegin, hstages, hlast.here, ?_⟩
  rw [heval]
  have hkept : Kept (request.runWith provider) last.files := hlast.inv.kept
  have hends := finishRun_cases host hkept hfits request.notes host.clock results
  refine
    { settled := hsettled
      returns := ?_
      told := ?_
      failing := ?_
      aftermath := ?_ }
  · rcases hends with ⟨hdirectory, fault, hfinish⟩ | ⟨hfree, outcome, after, hfinish, -⟩
    · simp [hfinish, hdirectory]
    · simp [hfinish, hfree]
  · intro outcome houtcome
    rcases hends with ⟨-, fault, hfinish⟩ | ⟨-, returned, after, hfinish, hreturned, htold⟩
    · simp [hfinish] at houtcome
    · rw [hfinish] at houtcome ⊢
      obtain rfl := Except.ok.inj houtcome
      exact ⟨hreturned.stages, hreturned.agreement hsettled, htold⟩
  · exact executeFrom_failing (reporting.append_succeeds hrooted hfits) reporting.allowsLog
      (fun stage hstage => Stage.perform_keeps hallows hfixed hstage) rfl .start hready hstages
  · intro n stage started fault performed hperforming hstage hperform
    have hstarted := hperforming.ready hrooted hfits hfixed hallows hready
    have hkeeps := Stage.perform_keeps hallows hfixed (List.mem_of_getElem? hstage)
    have hfailure := hkeeps.fault hstarted.here hstarted.inv hperform
    have hperformed := hstarted.after hkeeps
    rw [show (reporting host ready.files.here (request.runWith provider) ∅).host = host from rfl,
      hperform] at hperformed
    have hstep := hperforming.aftermath hrooted hfits hstage hperform hfailure
      ⟨hperformed.here, hperformed.inv.kept⟩ hstages request.notes host.clock
    obtain ⟨-, hrequests, hcalls, hframe⟩ := hstep
    refine ⟨hrequests, hcalls, fun location hout => hframe location ?_⟩
    rwa [hlast.here] at hout

/-- With direct mappings there is always an outcome. -/
theorem returns_direct (hdirect : provider = .direct) (hside : request.settings.side ∈ Settings.sides)
    {begun last : World} {results : List StageResult}
    (hbegin : (beginRun Stage.all request.workspaceOf request.runId request.version request.settings
      provider request.notes).eval host ready = (.ok (request.runWith provider), begun))
    (hstages : (executeFrom (request.runWith provider) Stage.all.length 0 Stage.all).eval host begun =
      (.ok results, last)) :
    last.files.node? ((reportPath request.workspaceOf request.runId).normal last.files.here) ≠
      some .directory := by
  have hfits := hfresh.fits provider
  have hfixed : ∀ word sets, (request.runWith provider).provider ≠ .fixed word sets :=
    request.provider_ne_fixed hprovider
  have hplace : (reportPath request.workspaceOf request.runId).normal ready.files.here =
      request.workspaceOf.runsDirectory.normal ready.files.here ++
        ((Path.ofString request.runId).parts ++ ["run_report.json"]) := by
    have hnormal := hfits.normal_runDirectory ready.files.here
    rw [normal_report, ← List.append_assoc]
    exact congrArg (· ++ ["run_report.json"]) hnormal
  have hout : (reportPath request.workspaceOf request.runId).normal ready.files.here ∉
      request.workspaceOf.root.trail ready.files.here := by
    intro hmem
    have hthere := hroot.node_of_mem_trail hmem
    rw [normal_report, hfresh.new _ (List.prefix_append _ _)] at hthere
    cases hthere
  obtain ⟨begun', hbegin', hhere, hbegun, -⟩ := hfresh.begins hroot hrooted host provider
  obtain rfl : begun' = begun := (Prod.mk.inj (hbegin'.symm.trans hbegin)).2
  have hallows : (reporting host ready.files.here (request.runWith provider)
      {(reportPath request.workspaceOf request.runId).normal ready.files.here}).Allowances
        (request.runWith provider) any := by
    refine reporting.allowances hrooted hfits hnetwork hspares ?_ ?_
    · rintro _ rfl
      rw [hplace]
      exact List.prefix_append _ _
    · rintro path hway _ rfl
      rw [hplace] at hout ⊢
      exact hway.avoids hrooted hside hdirect (by simp) hout
  obtain ⟨results', last', hstages', -, hlast⟩ :=
    executeFrom_reports hrooted hfits hfixed hallows ⟨hhere, hbegun⟩
  obtain rfl : last' = last := (Prod.mk.inj (hstages'.symm.trans hstages)).2
  rw [hlast.here]
  exact hlast.inv.free _ rfl

end Request.Fresh

/-- **Fail-fast.** A run that cannot be entered asks for nothing and calls no tool. A run that is
entered and begins stops at the first fault of a stage, and everything that is told of its outcome
agrees. It has an outcome unless a directory is at the place of its report in the end, which does not
happen with direct mappings. -/
theorem run_reports (request : Request) (preflight : Preflight) (host : Host) (world : World)
    (hrooted : ".." ∉ world.files.here) (hnetwork : host.AnswersOrdinarily)
    (hspares : host.SparesRuns request.workspaceOf world.files.here) :
    (∀ fault, ((preflight.check request.settings).eval host world).1 = .error fault →
      request.ending preflight host world = (.error fault, world)) ∧
    (∀ fault failed, (enter preflight.check request).eval host world = (.error fault, failed) →
      request.ending preflight host world = (.error fault, failed) ∧
        failed.requests = world.requests ∧ failed.calls = world.calls) ∧
    ∀ provider ready, (enter preflight.check request).eval host world = (.ok provider, ready) →
      request.Fresh ready.files → ∃ begun results last,
        (beginRun Stage.all request.workspaceOf request.runId request.version request.settings
          provider request.notes).eval host ready = (.ok (request.runWith provider), begun) ∧
        (executeFrom (request.runWith provider) Stage.all.length 0 Stage.all).eval host begun =
          (.ok results, last) ∧
        Concludes host (request.runWith provider) begun last results
          (request.ending preflight host world) ∧
        (provider = .direct → request.settings.side ∈ Settings.sides →
          ∃ outcome, (request.ending preflight host world).1 = .ok outcome) := by
  obtain ⟨hhere, hrequests, hcalls⟩ := enter_quiet preflight request host world
  refine ⟨fun fault hcheck => ?_, fun fault failed henter => ?_, fun provider ready henter hfresh => ?_⟩
  · have heval : (preflight.check request.settings).eval host world = (.error fault, world) :=
      Prod.ext hcheck (preflight.unchanged _ _ _)
    exact Action.eval_bind_error (Action.eval_bind_error heval)
  · rw [henter] at hrequests hcalls
    exact ⟨Request.ending_of_refused henter, hrequests, hcalls⟩
  · rw [henter] at hhere
    obtain ⟨hprovider, hroot⟩ := enter_ready henter
    rw [← hhere] at hrooted hspares
    obtain ⟨begun, results, last, hbegin, hstages, -, hconcludes⟩ :=
      hfresh.concludes hroot hrooted hnetwork hspares hprovider
    have hending : request.ending preflight host world = (runStages Stage.all request.workspaceOf
        request.runId request.version request.settings provider request.notes).eval host ready :=
      Action.eval_bind_ok henter
    rw [hending]
    refine ⟨begun, results, last, hbegin, hstages, hconcludes, fun hdirect hside => ?_⟩
    exact hconcludes.returns.mpr
      (hfresh.returns_direct hroot hrooted hnetwork hspares hprovider hdirect hside hbegin hstages)

/-- The workspace of the request in an empty directory. -/
def Request.plainFiles : FileTree :=
  ⟨[(["work"], .directory), (["work", "ws"], .directory), (["work", "ws", "libraries"], .directory),
    (["work", "ws", "mappings"], .directory), (["work", "ws", "build"], .directory)], ["work"]⟩

theorem Request.plain_fresh : Request.plain.Fresh plainFiles where
  relative := by decide
  plain := by decide
  events := by decide +kernel
  report := by decide +kernel
  new := by
    have hnormal : (runDirectory Request.plain.workspaceOf Request.plain.runId).normal
        plainFiles.here = ["work", "ws", "runs", "run0"] := by decide
    rintro _ ⟨rest, rfl⟩
    rw [hnormal]
    simp [FileTree.node?, plainFiles, List.lookup_cons]
  made := by
    have hmade : ∀ result : Except FileError Unit, result.isOk = true → result = .ok () := by
      rintro (error | _) hresult
      · cases hresult
      · rfl
    exact hmade _ (by decide +kernel)

/-- Whether the answer is the provider that reads one document. -/
def isDirect : Except Fault MappingProvider → Bool
  | .ok .direct => true
  | _ => false

theorem eq_of_isDirect {answer : Except Fault MappingProvider} (hdirect : isDirect answer = true) :
    answer = .ok .direct := by
  unfold isDirect at hdirect
  split at hdirect
  · rfl
  · cases hdirect

theorem Request.plain_enters : ∃ ready,
    (enter Preflight.lenient.check Request.plain).eval .idle { files := .bare } =
      (.ok .direct, ready) ∧ ready.files = plainFiles := by
  have hresult : isDirect ((enter Preflight.lenient.check Request.plain).eval .idle
      { files := .bare }).1 = true := by decide +kernel
  have hnodes : ((enter Preflight.lenient.check Request.plain).eval .idle
      { files := .bare }).2.files.nodes = plainFiles.nodes := by decide +kernel
  have hhere : ((enter Preflight.lenient.check Request.plain).eval .idle
      { files := .bare }).2.files.here = plainFiles.here := by decide +kernel
  generalize (enter Preflight.lenient.check Request.plain).eval .idle { files := .bare } = ending
    at hresult hnodes hhere
  obtain ⟨result, ready⟩ := ending
  refine ⟨ready, Prod.ext (eq_of_isDirect hresult) rfl, ?_⟩
  cases hfiles : ready.files with | mk nodes here =>
    simp_all [plainFiles]

theorem idle_answersOrdinarily : Host.idle.AnswersOrdinarily := by
  refine ⟨fun _ _ fault hreply => ?_, fun _ _ _ _ _ _ hreply => by cases hreply⟩
  obtain rfl := Reply.failure.inj hreply
  rfl

theorem idle_sparesRuns (workspace : Workspace) (here : Location) :
    Host.idle.SparesRuns workspace here :=
  ⟨fun _ _ _ _ _ => rfl, fun _ _ _ _ _ hnode => hnode⟩

theorem run_reports_bare : ∃ begun results last,
    Concludes .idle (Request.plain.runWith .direct) begun last results
      (Request.plain.ending .lenient .idle { files := .bare }) ∧
    ∃ outcome, (Request.plain.ending .lenient .idle { files := .bare }).1 = .ok outcome := by
  obtain ⟨-, -, hruns⟩ := run_reports Request.plain .lenient .idle { files := .bare } (by decide)
    idle_answersOrdinarily (idle_sparesRuns _ _)
  obtain ⟨ready, henter, hfiles⟩ := Request.plain_enters
  obtain ⟨begun, results, last, -, -, hconcludes, hreturns⟩ :=
    hruns .direct ready henter (hfiles ▸ Request.plain_fresh)
  exact ⟨begun, results, last, hconcludes, hreturns rfl (by decide)⟩

end Pipeline

end JarRefinery
