import JarRefinery.Proofs.Allowances
import JarRefinery.Proofs.CallOrder

/-!
# What the stages hand on

A stage that gives an output has handed on one thing and left alone what was handed on before. So
what a stage needs of the stages before it is there when it begins.
-/

namespace JarRefinery

open Action (any)

/-- Nothing is handed on. -/
def Discipline.tacit (host : Host) (here : Location) (state : RunState) : Discipline where
  host := host
  here := here
  inv := fun world => world.state = state
  step := fun before after => after.state = before.state
  faults := fun _ => True
  refl := fun _ => rfl
  trans := fun hfirst hsecond => hsecond.trans hfirst
  keep := fun hstep hinv => hstep.trans hinv
  ordinary := fun _ _ => trivial

namespace Discipline.tacit

variable {host : Host} {here : Location} {state : RunState}

theorem allowsFiles (footprint : Footprint) : (tacit host here state).AllowsFiles footprint :=
  fun _ _ _ _ _ _ => rfl

theorem allowsNetwork : (tacit host here state).AllowsNetwork where
  ask := fun _ _ => rfl
  wait := fun _ _ => rfl
  failure := fun _ _ _ _ => trivial
  broken := fun _ _ _ _ _ _ _ => trivial

theorem allowsLog : (tacit host here state).AllowsLog :=
  fun _ _ => rfl

theorem allowsCall (call : ToolCall) : (tacit host here state).AllowsCall call :=
  fun _ _ _ => rfl

theorem produces (target : Path) : (tacit host here state).Produces target :=
  allowsNetwork.produces (allowsFiles _)

theorem emit_keeps (run : Run) (stage kind : String) (data : Json.Fields) :
    (run.emit stage kind data).Keeps (tacit host here state) any :=
  Run.emit_keeps (allowsFiles _) stage kind data

theorem recordArtifact_keeps (run : Run) (stage : String) (contentType : Option String)
    (path : Path) : (run.recordArtifact stage contentType path).Keeps (tacit host here state) any :=
  Run.recordArtifact_keeps (allowsFiles _) stage contentType path

end Discipline.tacit

namespace Action

open Discipline (tacit)

variable {α β : Type} {host : Host} {here : Location} {before : RunState}

/-- If the action comes to a value, `post` holds of it and of what has been handed on then. -/
structure HandsOn (host : Host) (here : Location) (before : RunState) (action : Action α)
    (post : α → RunState → Prop) : Prop where
  value : ∀ {world after value}, world.files.here = here → world.state = before →
    action.eval host world = (.ok value, after) → after.files.here = here ∧ post value after.state

namespace HandsOn

variable {post : β → RunState → Prop}

theorem pure {value : β} (hpost : post value before) :
    HandsOn host here before (Pure.pure value) post where
  value := by
    rintro world _ _ hhere rfl ⟨⟩
    exact ⟨hhere, hpost⟩

theorem throw {fault : Fault} :
    HandsOn host here before (MonadExcept.throw fault : Action β) post where
  value := by rintro _ _ _ - - ⟨⟩

theorem thenTacit {action : Action α} {next : α → Action β} {gives : α → Prop}
    (hkeeps : action.Keeps (tacit host here before) gives)
    (hnext : ∀ value, gives value → HandsOn host here before (next value) post) :
    HandsOn host here before (action >>= next) post where
  value := by
    intro world after value hhere hstate heval
    obtain ⟨found, reached, hfirst, hrest⟩ := of_eval_bind_ok heval
    have hready : (tacit host here before).Ready world := ⟨hhere, hstate⟩
    have hreached := (hready.evaluated hkeeps hfirst).1
    exact (hnext found (hkeeps.value hhere hstate hfirst)).value hreached.here hreached.inv hrest

theorem thenHand {change : RunState → RunState} {next : Unit → Action β}
    (hnext : HandsOn host here (change before) (next ()) post) :
    HandsOn host here before (Run.hand change >>= next) post where
  value := by
    rintro world after value hhere rfl heval
    rw [eval_bind_ok (Run.eval_hand change host world)] at heval
    refine hnext.value ?_ ?_ heval
    · exact hhere
    · rfl

theorem thenHanded {next : RunState → Action β}
    (hnext : HandsOn host here before (next before) post) :
    HandsOn host here before (Run.handed >>= next) post where
  value := by
    rintro world after value hhere rfl heval
    rw [eval_bind_ok (Run.eval_handed host world)] at heval
    exact hnext.value hhere rfl heval

end HandsOn

end Action

/-! ### The stages -/

namespace Stage

open Action (HandsOn)
open Discipline (tacit)

variable {run : Run} {host : Host} {here : Location} {before : RunState}

theorem resolve_hands : HandsOn host here before (resolve run)
    fun _ after => ∃ metadata, after = { before with metadata := some metadata } := by
  unfold resolve
  refine .thenTacit (ReleaseSource.entry_keeps tacit.allowsNetwork _ _) fun entry _ => ?_
  refine .thenTacit (ReleaseSource.metadata_keeps tacit.allowsNetwork _ _) fun metadata _ => ?_
  refine .thenHand (.thenTacit (tacit.emit_keeps _ _ _ _) fun _ _ => ?_)
  exact .pure ⟨metadata, rfl⟩

theorem fetch_hands : HandsOn host here before (fetch run) fun _ after =>
    after = { before with primary := some (CallPlan.primary run.workspace run.side) } := by
  unfold fetch
  refine .thenHanded ?_
  split
  · exact .throw
  refine .thenTacit (Release.fetchPrimary_keeps _ _ _ _ (tacit.produces _)) fun fetched hfetched => ?_
  refine .thenTacit (.ofResult (fun _ _ => trivial) hfetched.2) fun primary hprimary => ?_
  refine .thenHand (.thenTacit (tacit.recordArtifact_keeps _ _ _ _) fun ref _ => ?_)
  refine .thenTacit (Release.fetchLibraries_keeps _ _ (fun _ _ dependency =>
    Release.fetchLibraryTo_keeps _ dependency (tacit.produces _)) _) fun libraries _ => ?_
  refine .thenTacit (.forM fun library _ => announceLibrary_keeps (tacit.allowsFiles _) library)
    fun _ _ => ?_
  exact .pure (by rw [hprimary]; rfl)

theorem unpack_hands (hprimary : before.primary = some (CallPlan.primary run.workspace run.side)) :
    HandsOn host here before (unpack run) fun _ after => ∃ payload : Artifact,
      payload.space = officialNamespace ∧ after = { before with payload := some payload } := by
  unfold unpack
  refine .thenHanded ?_
  split
  · exact .throw
  rename_i primary hfound
  obtain rfl := Option.some.inj (hfound.symm.trans hprimary)
  refine .thenTacit (package_inspect_keeps (tacit.allowsFiles _) (tacit.allowsCall _)
    (Package.findPayload_keeps _)) fun inspected hinspected => ?_
  refine .thenHand ?_
  dsimp only
  split
  · refine .thenTacit (tacit.emit_keeps _ _ _ _) fun _ _ => ?_
    exact .thenTacit (tacit.recordArtifact_keeps _ _ _ _) fun ref _ =>
      .pure ⟨_, hinspected.1, rfl⟩
  · exact .pure ⟨_, hinspected.1, rfl⟩

theorem sanitize_hands {payload : Artifact} (hpayload : before.payload = some payload)
    (hspace : payload.space = officialNamespace) :
    HandsOn host here before (sanitize run) fun _ after =>
      after = { before with stripped := some (CallPlan.stripped run.workspace run.side) } := by
  unfold sanitize Strip.artifact
  refine .thenHanded ?_
  split
  · exact .throw
  rename_i found hfound
  obtain rfl := Option.some.inj (hfound.symm.trans hpayload)
  simp only [bind_assoc, pure_bind]
  refine .thenTacit ((tacit.produces _).strip _) fun counts _ => ?_
  refine .thenHand (.thenTacit (tacit.recordArtifact_keeps _ _ _ _) fun ref _ => .pure ?_)
  have hstripped : found.derive "stripped" (run.workspace.stripped run.side) none =
      CallPlan.stripped run.workspace run.side :=
    congrArg (Artifact.mk "stripped" _) hspace
  rw [hstripped]

theorem mappings_hands (hfixed : ∀ word sets, run.provider ≠ .fixed word sets)
    (hstripped : before.stripped = some (CallPlan.stripped run.workspace run.side)) :
    HandsOn host here before (mappings run) fun _ after => ∃ sets,
      run.provider.Chain sets ∧ after = { before with mappingSets := sets } := by
  unfold mappings
  refine .thenHanded ?_
  split
  · exact .throw
  rename_i stripped hfound
  obtain rfl := Option.some.inj (hfound.symm.trans hstripped)
  rw [show (CallPlan.stripped run.workspace run.side).space = officialNamespace from rfl,
    ← bind_assoc]
  refine .thenTacit (normalizedChain_keeps (fun _ _ => tacit.produces _) (tacit.allowsFiles _)
    (fun _ _ _ => MappingProvider.Chained.gives_any tacit.allowsNetwork _) hfixed ?_)
    fun sets hchain => ?_
  · rintro world hstate artifact hartifact
    rw [show world.state = before from hstate, hstripped] at hartifact
    cases hartifact
    rfl
  refine .thenHand (.thenTacit (tacit.emit_keeps _ _ _ _) fun _ _ => ?_)
  refine .thenTacit (Action.Keeps.mapM fun set _ =>
    tacit.recordArtifact_keeps _ _ _ _).anyway fun artifacts _ => ?_
  exact .pure ⟨sets, hchain, rfl⟩

theorem remap_hands : HandsOn host here before (remap run)
    fun _ after => ∃ mapped, after = { before with mapped := some mapped } := by
  unfold remap
  refine .thenHanded ?_
  dsimp only
  split
  · exact .throw
  refine .thenHanded (.thenTacit (chain_keeps (tacit.allowsFiles _) _ fun set _ =>
    ⟨tacit.allowsFiles _, tacit.allowsFiles _, fun _ => tacit.allowsCall _⟩) fun passes _ => ?_)
  split
  · exact .throw
  · rename_i final ref _
    exact .thenHand (.pure ⟨final, rfl⟩)

theorem decompile_hands : HandsOn host here before (decompile run)
    fun _ after => ∃ directory, after = { before with sourcesDirectory := some directory } := by
  unfold decompile Decompiler.decompile
  refine .thenHanded ?_
  split
  · exact .throw
  simp only [bind_assoc, pure_bind]
  refine .thenTacit (ensureDirectories_keeps (tacit.allowsFiles _)) fun _ _ => ?_
  refine .thenTacit (Tool.call_keeps (tacit.allowsCall _)) fun result _ => ?_
  refine .thenTacit (.refuse fun _ => trivial) fun _ _ => ?_
  refine .thenHand (.thenTacit (tacit.emit_keeps _ _ _ _) fun _ _ => ?_)
  exact .thenTacit (countFiles_keeps _) fun files _ => .pure ⟨_, rfl⟩

/-- What has been handed on once `n` stages have succeeded. -/
structure HandedOver (run : Run) (n : Nat) (state : RunState) : Prop where
  metadata : 0 < n → ∃ metadata, state.metadata = some metadata
  primary : 1 < n → state.primary = some (CallPlan.primary run.workspace run.side)
  payload : 2 < n → ∃ payload, state.payload = some payload ∧ payload.space = officialNamespace
  stripped : 3 < n → state.stripped = some (CallPlan.stripped run.workspace run.side)
  sets : 4 < n → run.provider.Chain state.mappingSets
  mapped : 5 < n → ∃ mapped, state.mapped = some mapped

theorem HandedOver.start (run : Run) (state : RunState) : HandedOver run 0 state := by
  constructor <;> intro hlt <;> exact absurd hlt (Nat.not_lt_zero _)

/-- A stage that gives an output hands on what the next one needs. -/
theorem HandedOver.next (hfixed : ∀ word sets, run.provider ≠ .fixed word sets) {n : Nat}
    {stage : Stage} (hstage : all[n]? = some stage) {started after : World} {output : StageOutput}
    (hstarted : HandedOver run n started.state)
    (heval : (stage.perform run).eval host started = (.ok output, after)) :
    after.files.here = started.files.here ∧ HandedOver run (n + 1) after.state := by
  match n, hstage with
  | 0, hstage =>
    cases hstage
    obtain ⟨hhere, metadata, hafter⟩ := resolve_hands.value rfl rfl heval
    refine ⟨hhere, ?_⟩
    rw [hafter]
    exact ⟨fun _ => ⟨metadata, rfl⟩, by simp, by simp, by simp, by simp, by simp⟩
  | 1, hstage =>
    cases hstage
    obtain ⟨hhere, hafter⟩ := fetch_hands.value rfl rfl heval
    refine ⟨hhere, ?_⟩
    rw [hafter]
    exact ⟨fun _ => hstarted.metadata (by simp), fun _ => rfl, by simp, by simp, by simp, by simp⟩
  | 2, hstage =>
    cases hstage
    have hprimary := hstarted.primary (by simp)
    obtain ⟨hhere, payload, hspace, hafter⟩ := (unpack_hands hprimary).value rfl rfl heval
    refine ⟨hhere, ?_⟩
    rw [hafter]
    exact ⟨fun _ => hstarted.metadata (by simp), fun _ => hprimary, fun _ => ⟨payload, rfl, hspace⟩,
      by simp, by simp, by simp⟩
  | 3, hstage =>
    cases hstage
    obtain ⟨payload, hpayload, hspace⟩ := hstarted.payload (by simp)
    obtain ⟨hhere, hafter⟩ := (sanitize_hands hpayload hspace).value rfl rfl heval
    refine ⟨hhere, ?_⟩
    rw [hafter]
    exact ⟨fun _ => hstarted.metadata (by simp), fun _ => hstarted.primary (by simp),
      fun _ => ⟨payload, hpayload, hspace⟩, fun _ => rfl, by simp, by simp⟩
  | 4, hstage =>
    cases hstage
    have hstripped := hstarted.stripped (by simp)
    obtain ⟨hhere, sets, hchain, hafter⟩ := (mappings_hands hfixed hstripped).value rfl rfl heval
    refine ⟨hhere, ?_⟩
    rw [hafter]
    exact ⟨fun _ => hstarted.metadata (by simp), fun _ => hstarted.primary (by simp),
      fun _ => hstarted.payload (by simp), fun _ => hstripped, fun _ => hchain, by simp⟩
  | 5, hstage =>
    cases hstage
    obtain ⟨hhere, mapped, hafter⟩ := remap_hands.value rfl rfl heval
    refine ⟨hhere, ?_⟩
    rw [hafter]
    exact ⟨fun _ => hstarted.metadata (by simp), fun _ => hstarted.primary (by simp),
      fun _ => hstarted.payload (by simp), fun _ => hstarted.stripped (by simp),
      fun _ => hstarted.sets (by simp), fun _ => ⟨mapped, rfl⟩⟩
  | 6, hstage =>
    cases hstage
    obtain ⟨hhere, directory, hafter⟩ := decompile_hands.value rfl rfl heval
    refine ⟨hhere, ?_⟩
    rw [hafter]
    exact ⟨fun _ => hstarted.metadata (by simp), fun _ => hstarted.primary (by simp),
      fun _ => hstarted.payload (by simp), fun _ => hstarted.stripped (by simp),
      fun _ => hstarted.sets (by simp), fun _ => hstarted.mapped (by simp)⟩
  | n + 7, hstage => simp [all] at hstage

/-! ### The end of a stage -/

variable {stage : Stage} {world after : World} {result : StageResult}

/-- A stage that fails keeps nothing of its outputs and tells of its fault. -/
theorem of_eval_fail_ok {position : Json} {fault : Fault} {sofar : StageOutput}
    (heval : (fail run stage position fault sofar).eval host world = (.ok result, after)) :
    result.stage = stage.name ∧ result.status = .failed ∧
      result.output = { sofar with outputs := [] } ∧ result.error = some (.ofFault fault) := by
  unfold fail Stage.result at heval
  obtain ⟨_, told, -, heval⟩ := Action.of_eval_bind_ok heval
  rw [Action.eval_bind_ok (Action.eval_read host told)] at heval
  obtain rfl := Except.ok.inj (Prod.mk.inj heval).1
  exact ⟨rfl, rfl, rfl, rfl⟩

/-- A stage that gave an output succeeds with it once it has told of it. -/
theorem of_eval_finish_ok {position : Json} {output : StageOutput}
    (heval : (stage.finish run position output).eval host world = (.ok result, after)) :
    result.stage = stage.name ∧ result.output.warnings = output.warnings ∧
      ((result.status = .failed ∧ ∃ fault told,
          (announce run stage output).eval host world = (.error fault, told) ∧
            result.error = some (.ofFault fault)) ∨
        result.status = .success ∧ result.output = output ∧ result.error = none ∧
          ∃ told, (announce run stage output).eval host world = (.ok (), told) ∧
            (stage.logSuccess position output).eval host told = (.ok (), after)) := by
  unfold finish at heval
  obtain ⟨ending, told, hcaught, heval⟩ := Action.of_eval_bind_ok heval
  obtain ⟨hannounce, -⟩ := Action.of_eval_caught_ok hcaught
  cases ending with
  | error fault =>
    obtain ⟨hname, hstatus, houtput, herror⟩ := of_eval_fail_ok heval
    exact ⟨hname, by rw [houtput], .inl ⟨hstatus, fault, told, hannounce, herror⟩⟩
  | ok _ =>
    obtain ⟨_, logged, hlog, heval⟩ := Action.of_eval_bind_ok heval
    unfold Stage.result at heval
    rw [Action.eval_bind_ok (Action.eval_read host logged)] at heval
    obtain ⟨hresult, rfl⟩ := Prod.mk.inj heval
    obtain rfl := Except.ok.inj hresult
    exact ⟨rfl, rfl, .inr ⟨rfl, rfl, rfl, told, hannounce, hlog⟩⟩

/-- A stage that came to a result has begun; it failed with nothing, or gave an output and was brought
to its end. -/
theorem of_eval_execute_ok {position : Option String}
    (heval : (stage.execute run position).eval host world = (.ok result, after)) :
    ∃ started, (stage.begin run (.ofOption position)).eval host world = (.ok (), started) ∧
      ((result.stage = stage.name ∧ result.status = .failed ∧ result.output = {} ∧
          ∃ fault performed, (stage.perform run).eval host started = (.error fault, performed) ∧
            result.error = some (.ofFault fault)) ∨
        ∃ output performed, (stage.perform run).eval host started = (.ok output, performed) ∧
          (stage.finish run (.ofOption position) output).eval host performed =
            (.ok result, after)) := by
  rw [eval_execute] at heval
  rcases hbegin : (stage.begin run (.ofOption position)).eval host world with ⟨fault | _, started⟩
  · simp [hbegin] at heval
  simp only [hbegin] at heval
  refine ⟨started, rfl, ?_⟩
  rcases hperform : (stage.perform run).eval host started with ⟨fault | output, performed⟩ <;>
    simp only [hperform] at heval
  · split at heval
    · obtain ⟨hname, hfailed, houtput, herror⟩ := of_eval_fail_ok heval
      exact .inl ⟨hname, hfailed, houtput, fault, performed, rfl, herror⟩
    · cases heval
  · exact .inr ⟨output, performed, rfl, heval⟩

theorem status_of_eval_execute_ok {position : Option String}
    (heval : (stage.execute run position).eval host world = (.ok result, after)) :
    result.status = .success ∨ result.status = .failed := by
  obtain ⟨started, -, ⟨-, hfailed, -⟩ | ⟨output, performed, -, hfinish⟩⟩ := of_eval_execute_ok heval
  · exact .inr hfailed
  · obtain ⟨-, -, ⟨hfailed, -⟩ | ⟨hsuccess, -⟩⟩ := of_eval_finish_ok hfinish
    · exact .inr hfailed
    · exact .inl hsuccess

end Stage

/-! ### The run -/

namespace Pipeline

open Stage (HandedOver)
open Discipline (tacit)

variable {run : Run} {host : Host} {begun : World} {n : Nat}

theorem begin_tacit {stage : Stage} {position : Json} {world started : World}
    (hbegin : (stage.begin run position).eval host world = (.ok (), started)) :
    started.files.here = world.files.here ∧ started.state = world.state := by
  have hready : (tacit host world.files.here world.state).Ready world := ⟨rfl, rfl⟩
  have hstarted := (hready.evaluated
    (Stage.begin_keeps (tacit.allowsFiles _) tacit.allowsLog stage position) hbegin).1
  exact ⟨hstarted.here, hstarted.inv⟩

theorem Reaches.handedOver (hfixed : ∀ word sets, run.provider ≠ .fixed word sets) {reached : World}
    (hreaches : Reaches host run Stage.all begun n reached) :
    reached.files.here = begun.files.here ∧ HandedOver run n reached.state := by
  induction hreaches with
  | start => exact ⟨rfl, .start run begun.state⟩
  | @next n reached after stage result _ hstage heval hsuccess ih =>
    obtain ⟨hhere, hreached⟩ := ih
    obtain ⟨started, hbegin, ⟨-, hfailed, -⟩ | ⟨output, performed, hperform, hfinish⟩⟩ :=
      Stage.of_eval_execute_ok heval
    · simp [hsuccess] at hfailed
    obtain ⟨hstarted, hstate⟩ := begin_tacit hbegin
    obtain ⟨hperformed, hnext⟩ := HandedOver.next hfixed hstage (hstate ▸ hreached) hperform
    have hready : (tacit host performed.files.here performed.state).Ready performed := ⟨rfl, rfl⟩
    have hafter := (hready.evaluated (Stage.finish_keeps (tacit.allowsFiles _) tacit.allowsLog stage
      _ output) hfinish).1
    refine ⟨?_, (hafter.inv : after.state = performed.state) ▸ hnext⟩
    exact hafter.here.trans (hperformed.trans (hstarted.trans hhere))

theorem Performing.handedOver (hfixed : ∀ word sets, run.provider ≠ .fixed word sets)
    {started : World} (hperforming : Performing host run Stage.all begun n started) :
    started.files.here = begun.files.here ∧ HandedOver run n started.state := by
  obtain ⟨reached, stage, hreaches, -, hbegin⟩ := hperforming
  obtain ⟨hhere, hreached⟩ := hreaches.handedOver hfixed
  obtain ⟨hstarted, hstate⟩ := begin_tacit hbegin
  exact ⟨hstarted.trans hhere, hstate ▸ hreached⟩

variable {request : Request} {preflight : Preflight} {world ready : World}
  {provider : MappingProvider}

/-- The run that a request begins is the one that it asks for, and it works in the same directory. -/
theorem Request.of_begun
    (henter : (enter preflight.check request).eval host world = (.ok provider, ready))
    (hbegin : (beginRun Stage.all request.workspaceOf request.runId request.version request.settings
      provider request.notes).eval host ready = (.ok run, begun)) :
    request.provider = .ok provider ∧ run = request.runWith provider ∧
      begun.files.here = world.files.here := by
  obtain ⟨hprovider, hhere, -⟩ :=
    (enter_leads host world.files.here world.calls request preflight).value ⟨rfl, rfl⟩ henter
  obtain ⟨hrun, hbegun⟩ :=
    (beginRun_leads host ready.files.here ready.calls request provider).value ⟨rfl, rfl⟩ hbegin
  exact ⟨hprovider, hrun, hbegun.here.trans hhere⟩

end Pipeline

end JarRefinery
