import Mathlib.Data.List.Forall2
import JarRefinery.Proofs.FailFast
import JarRefinery.Proofs.StageEvents

/-!
# The events of a run

The event log of a run tells the same as its report. It holds where the run takes place and that it
begins, then one block of events for each result in the report, and that the run has ended. A block
has the warnings, metrics and files of the result, and ends as the result says.
-/

namespace JarRefinery

open Action (any Says Notes)

/-! ### The block of a stage -/

namespace Stage

open Pipeline (Logs Fits reporting)

/-- The events of a stage that was executed and came to this result. -/
inductive Block (run : Run) : List Event → StageResult → Prop
  | passed {own : List Event} {result : StageResult} :
    result.status = .success → Works run result.stage result.output.artifacts own →
    Block run (startEvent run result.stage :: own ++ closing run result.stage result.output) result
  | failed {own : List Event} {refs : List ArtifactRef} {result : StageResult} {error : StageError} :
    result.status = .failed → result.output = {} → result.error = some error →
    Works run result.stage refs own →
    Block run (startEvent run result.stage :: own ++ [failedEvent run result.stage error]) result

/-- The event says how a stage ended. -/
def isTerminal (event : Event) : Bool :=
  event.kind = "stage.success" || event.kind = "stage.failed"

theorem Works.filter_isTerminal {run : Run} {stage : String} {refs : List ArtifactRef}
    {events : List Event} (hworks : Works run stage refs events) : events.filter isTerminal = [] := by
  refine List.filter_eq_nil_iff.mpr fun event hevent hterminal => ?_
  have hkind := (hworks.own event hevent).kind
  rcases Bool.or_eq_true _ _ ▸ hterminal with hsuccess | hfailed
  · simp [markers, of_decide_eq_true hsuccess] at hkind
  · simp [markers, of_decide_eq_true hfailed] at hkind

/-- A stage ends once, as its result says. -/
theorem Block.terminal {run : Run} {events : List Event} {result : StageResult}
    (hblock : Block run events result) :
    (events.filter isTerminal).map (·.kind) = ["stage." ++ result.status.word] := by
  cases hblock with
  | passed hstatus hworks =>
    have hwarnings : (result.output.warnings.map (warnEvent run result.stage)).filter isTerminal =
        [] := by
      simp [List.filter_eq_nil_iff, isTerminal, warnEvent]
    have hmetrics : (metricsEvents run result.stage result.output.metrics).filter isTerminal =
        [] := by
      unfold metricsEvents
      split <;> simp [isTerminal]
    have hstart : isTerminal (startEvent run result.stage) = false := rfl
    have hsuccess : isTerminal (successEvent run result.stage) = true := rfl
    simp only [closing, List.filter_append, List.filter_cons, List.filter_nil, hstart, hsuccess,
      hworks.filter_isTerminal, hwarnings, hmetrics, hstatus]
    rfl
  | @failed own refs _ error hstatus _ _ hworks =>
    have hstart : isTerminal (startEvent run result.stage) = false := rfl
    have hfailed : isTerminal (failedEvent run result.stage error) = true := rfl
    simp only [List.filter_append, List.filter_cons, List.filter_nil, hstart, hfailed,
      hworks.filter_isTerminal, hstatus]
    rfl

variable {run : Run} {host : Host} {here : Location} (hrooted : ".." ∉ here) (hfits : Fits run)

include hrooted hfits

theorem begin_tells (stage : Stage) (position : Json) :
    Says host here run [startEvent run stage.name] (stage.begin run position) any := by
  unfold begin
  exact (Says.append hrooted hfits _).andThen fun _ => .log _ _ _

theorem announce_tells (stage : Stage) (output : StageOutput) :
    Says host here run (closing run stage.name output) (announce run stage output) any := by
  have hwarnings : Says host here run (output.warnings.map (warnEvent run stage.name))
      (output.warnings.forM fun warning => do
        run.emit stage.name "stage.warn" [("message", .text warning)]
        stage.log .warning warning []) any := by
    rw [List.map_eq_flatMap]
    exact .forM fun warning _ => (Says.append hrooted hfits _).andThen fun _ => .log _ _ _
  unfold announce closing metricsEvents
  refine hwarnings.andThen fun _ => ?_
  cases output.metrics.isEmpty with
  | true => exact Says.append hrooted hfits _
  | false => exact (Says.append hrooted hfits _).andThen fun _ => Says.append hrooted hfits _

theorem fail_tells (stage : Stage) (position : Json) (fault : Fault) (sofar : StageOutput) :
    Says host here run [failedEvent run stage.name (.ofFault fault)]
      (fail run stage position fault sofar) fun result =>
        result.stage = stage.name ∧ result.status = .failed ∧
          result.output = { sofar with outputs := [] } ∧ result.error = some (.ofFault fault) := by
  have htold : Says host here run [failedEvent run stage.name (.ofFault fault)]
      (announceFailure run stage position fault) any := by
    unfold announceFailure
    exact (Says.append hrooted hfits _).andThen fun _ => .log _ _ _
  unfold fail
  exact htold.andThen fun _ => (Says.read trivial).andThen fun _ => .pure ⟨rfl, rfl, rfl, rfl⟩

theorem finish_tells (stage : Stage) (position : Json) (output : StageOutput) :
    Says host here run (closing run stage.name output) (stage.finish run position output)
      fun result => result.stage = stage.name ∧ result.status = .success ∧
        result.output = output := by
  rw [← List.append_nil (closing run stage.name output)]
  unfold finish
  refine (announce_tells hrooted hfits stage output).caught.bind ?_
  rintro _ ⟨_, rfl, -⟩
  exact (Says.log _ _ _).andThen fun _ => (Says.read trivial).andThen fun _ => .pure ⟨rfl, rfl, rfl⟩

/-- A stage that is executed comes to a result and tells of its block. -/
theorem execute_block {stage : Stage}
    (hnotes : ∀ earlier, Notes host here run stage.name earlier [] (stage.perform run)
      fun output => output.artifacts)
    (hkeeps : (stage.perform run).Keeps (reporting host here run ∅) any)
    (position : Option String) {told : List Event} {world : World}
    (hlogs : Logs host here run told world) :
    ∃ result block after, (stage.execute run position).eval host world = (.ok result, after) ∧
      result.stage = stage.name ∧ Block run block result ∧
        Logs host here run (told ++ block) after := by
  obtain ⟨_, started, hbegin, -, hstarted⟩ :=
    begin_tells hrooted hfits stage (.ofOption position) told world hlogs
  have hnoted : Noted host here run stage.name (told ++ [startEvent run stage.name]) [] started :=
    ⟨[], .nil, by simpa using hstarted⟩
  rw [eval_execute, hbegin]
  simp only
  rcases hperform : (stage.perform run).eval host started with ⟨fault | output, performed⟩
  · obtain ⟨refs, own, hworks, hperformed⟩ := (hnotes _).fault hnoted hperform
    have hfailure : isFailure fault = true :=
      hkeeps.fault hnoted.ready.here hnoted.ready.inv hperform
    obtain ⟨result, after, hfail, ⟨hname, hstatus, houtput, herror⟩, hafter⟩ :=
      fail_tells hrooted hfits stage (.ofOption position) fault {} _ performed hperformed
    rw [← hname] at hworks
    refine ⟨result, _, after, ?_, hname, .failed hstatus houtput herror hworks, ?_⟩
    · simp only [hfailure, if_true]
      exact hfail
    · simpa [hname] using hafter
  · obtain ⟨own, hworks, hperformed⟩ := (hnotes _).value hnoted hperform
    obtain ⟨result, after, hfinish, ⟨hname, hstatus, rfl⟩, hafter⟩ :=
      finish_tells hrooted hfits stage (.ofOption position) output _ performed hperformed
    rw [← hname] at hworks
    exact ⟨result, _, after, hfinish, hname, .passed hstatus hworks, by simpa [hname] using hafter⟩

end Stage

/-! ### The blocks of a run -/

namespace Pipeline

open Stage (Block isTerminal)

variable {run : Run} {host : Host} {here : Location}

/-- Stages come to results, with a block of events for each. -/
theorem executeFrom_blocks (hrooted : ".." ∉ here) (hfits : Fits run) {stages : List Stage}
    (hnotes : ∀ stage ∈ stages, ∀ earlier, Notes host here run stage.name earlier []
      (stage.perform run) fun output => output.artifacts)
    (hkeeps : ∀ stage ∈ stages, (stage.perform run).Keeps (reporting host here run ∅) any)
    (total n : Nat) {told : List Event} {world : World} (hlogs : Logs host here run told world) :
    ∃ results blocks last, (executeFrom run total n stages).eval host world = (.ok results, last) ∧
      Settled stages results ∧ List.Forall₂ (Block run) blocks results ∧
        Logs host here run (told ++ blocks.flatten) last := by
  induction stages generalizing n told world with
  | nil => exact ⟨[], [], world, rfl, .done, .nil, by simpa using hlogs⟩
  | cons stage rest ih =>
    obtain ⟨result, block, after, hexecute, hname, hblock, hafter⟩ := Stage.execute_block hrooted
      hfits (hnotes stage List.mem_cons_self) (hkeeps stage List.mem_cons_self)
      (some (position n total)) hlogs
    have hstatus : result.status = .success ∨ result.status = .failed := by
      cases hblock with
      | passed hsuccess _ => exact .inl hsuccess
      | failed hfailed _ _ _ => exact .inr hfailed
    rcases hstatus with hsuccess | hfailed
    · obtain ⟨results, blocks, last, hrest, hsettled, hblocks, hlast⟩ :=
        ih (fun stage hstage => hnotes stage (List.mem_cons_of_mem _ hstage))
          (fun stage hstage => hkeeps stage (List.mem_cons_of_mem _ hstage)) (n + 1) hafter
      refine ⟨result :: results, block :: blocks, last, ?_, .passed hname hsuccess hsettled,
        .cons hblock hblocks, by simpa using hlast⟩
      rw [eval_executeFrom_success hexecute hsuccess, Action.eval_map, hrest]
      rfl
    · obtain ⟨_, last, hlog, -, hlast⟩ :=
        Says.log .error "Stopping on first failure" [("stage", .text stage.name)] _ after hafter
      refine ⟨[result], [block], last, ?_, .failed hname hfailed, .cons hblock .nil,
        by simpa using hlast⟩
      rw [eval_executeFrom_failed hexecute hfailed, Action.eval_bind_ok hlog]
      rfl

/-- The last event of a run, if it comes to its end. -/
def ended (run : Run) : Except Fault RunOutcome → List Event
  | .ok outcome => [finishEvent run outcome.report]
  | .error _ => []

/-- What the event log of a run holds in the end, whose stages came to these results. -/
structure Chronicle (host : Host) (run : Run) (notes : Json.Fields) (here : Location)
    (results : List StageResult) (ending : Except Fault RunOutcome × World) : Prop where
  settled : Settled Stage.all results
  log : ∃ blocks mode, List.Forall₂ (Block run) blocks results ∧
    List.Forall₂ (fun block result =>
      (block.filter isTerminal).map (·.kind) = ["stage." ++ result.status.word]) blocks results ∧
    ending.2.files.node? (run.events.path.normal here) = some (.file
      ((placeOf host here :: startEvent run notes :: blocks.flatten ++ ended run ending.1).flatMap
        (line host)) mode)
  reported : ∀ outcome, ending.1 = .ok outcome → outcome.report.stages = results
  returns : ∀ fault, ending.1 = .error fault →
    ending.2.files.node? ((reportPath run.workspace run.id).normal here) = some .directory

/-- **Event log.** The event log of a run that is entered and whose directory is new tells the same as
its report: it has one block of events for each result. Only its last event is missing if a directory
is at the place of the report in the end, which does not happen with direct mappings. -/
theorem run_tells (request : Request) (preflight : Preflight) (host : Host) (world : World)
    (hrooted : ".." ∉ world.files.here) (hnetwork : host.AnswersOrdinarily)
    (hspares : host.SparesRuns request.workspaceOf world.files.here)
    {provider : MappingProvider} {ready : World}
    (henter : (enter preflight.check request).eval host world = (.ok provider, ready))
    (hfresh : request.Fresh ready.files) :
    ∃ results, Chronicle host (request.runWith provider) request.notes world.files.here results
        (request.ending preflight host world) ∧
      (provider = .direct → request.settings.side ∈ Settings.sides →
        ∃ outcome, (request.ending preflight host world).1 = .ok outcome) := by
  have hhere : ready.files.here = world.files.here := by
    rw [← (enter_quiet preflight request host world).1, henter]
  rw [← hhere] at hrooted hspares ⊢
  obtain ⟨hprovider, hroot⟩ := enter_ready henter
  have hfits := hfresh.fits provider
  have hfixed : ∀ word sets, (request.runWith provider).provider ≠ .fixed word sets :=
    request.provider_ne_fixed hprovider
  have hallows := reporting.allowances_empty hrooted hfits hnetwork hspares
  obtain ⟨begun, hbegin, -, -, hbegun⟩ := hfresh.begins hroot hrooted host provider
  obtain ⟨results, blocks, last, hstages, hsettled, hblocks, ⟨mode, hlog⟩, hlast, hreporting⟩ :=
    executeFrom_blocks hrooted hfits (fun stage hstage earlier =>
      Stage.perform_notes hrooted hfits hnetwork hspares hfixed hstage)
      (fun stage hstage => Stage.perform_keeps hallows hfixed hstage) Stage.all.length 0 hbegun
  have hending : request.ending preflight host world =
      (finishRun (request.runWith provider) request.notes host.clock results).eval host last :=
    (Action.eval_bind_ok henter).trans (eval_runStages_finish hbegin hstages)
  have hterminals := List.Forall₂.imp (fun _ _ hblock => Block.terminal hblock) hblocks
  have hends := finishRun_cases host hreporting.kept hfits request.notes host.clock results
  rw [hlast] at hends
  refine ⟨results, ?_, fun hdirect hside => ?_⟩
  · rw [hending]
    rcases hends with ⟨hdirectory, fault, hfinish⟩ | ⟨-, outcome, after, hfinish, hreturned, htold⟩
    · rw [hfinish]
      exact ⟨hsettled, ⟨blocks, mode, hblocks, hterminals, by simpa [ended] using hlog⟩, by simp,
        fun _ _ => hdirectory⟩
    · obtain ⟨contents, mode', hbefore, hafter⟩ := htold
      rw [hlast] at hbefore hafter
      obtain ⟨rfl, rfl⟩ : _ = contents ∧ mode = mode' := by simpa [hbefore] using hlog.symm
      rw [hfinish]
      refine ⟨hsettled, ⟨blocks, mode, hblocks, hterminals, ?_⟩, ?_, by simp⟩
      · simpa [ended] using hafter
      · rintro _ ⟨⟩
        exact hreturned.stages
  · have hfree := hfresh.returns_direct hroot hrooted hnetwork hspares hprovider hdirect hside hbegin
      hstages
    rw [hlast] at hfree
    rcases hends with ⟨hdirectory, -⟩ | ⟨-, outcome, after, hfinish, -⟩
    · exact absurd hdirectory hfree
    · exact ⟨outcome, by rw [hending, hfinish]⟩

theorem run_tells_bare : ∃ results,
    Chronicle .idle (Request.plain.runWith .direct) Request.plain.notes
        FileTree.bare.here results (Request.plain.ending .lenient .idle { files := .bare }) ∧
      ∃ outcome, (Request.plain.ending .lenient .idle { files := .bare }).1 = .ok outcome := by
  obtain ⟨ready, henter, hfiles⟩ := Request.plain_enters
  obtain ⟨results, hchronicle, hreturns⟩ := run_tells Request.plain .lenient .idle
    { files := .bare } (by decide) idle_answersOrdinarily (idle_sparesRuns _ _) henter
    (hfiles ▸ Request.plain_fresh)
  exact ⟨results, hchronicle, hreturns rfl (by decide)⟩

end Pipeline

end JarRefinery
