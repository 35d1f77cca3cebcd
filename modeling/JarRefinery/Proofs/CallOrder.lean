import JarRefinery.Proofs.Entry
import JarRefinery.Proofs.StageCalls

/-!
# The order of the calls of a run

A run that comes to its end without a failure has made the calls of its plan, and what it mapped at
last is what the last pass made. Any other run has made the first calls of such a plan.
-/

namespace JarRefinery

/-! ### Chains -/

theorem MappingProvider.exists_chain {provider : MappingProvider}
    (hfixed : ∀ word sets, provider ≠ .fixed word sets) : ∃ sets, provider.Chain sets := by
  cases provider with
  | direct =>
    exact ⟨[⟨namedNamespace, ⟨"", []⟩, officialNamespace, namedNamespace, .plain, false⟩],
      _, rfl, rfl, rfl, rfl⟩
  | chained metaUrl mavenUrl =>
    exact ⟨[⟨intermediaryNamespace, ⟨"", []⟩, officialNamespace, intermediaryNamespace, .tiny,
      false⟩], _, ⟨rfl, rfl, rfl⟩, .inl rfl⟩
  | fixed word sets => exact absurd rfl (hfixed word sets)

theorem MappingProvider.Chain.ne_nil {provider : MappingProvider} {sets : List MappingSet}
    (hchain : provider.Chain sets) : sets ≠ [] := by
  cases provider with
  | direct =>
    obtain ⟨set, rfl, -⟩ := hchain
    exact List.cons_ne_nil _ _
  | chained metaUrl mavenUrl =>
    obtain ⟨first, -, rfl | ⟨second, rfl, -⟩⟩ := hchain <;> exact List.cons_ne_nil _ _
  | fixed word sets => exact hchain.elim

theorem Pipeline.Request.exists_sets (request : Request) :
    ∃ sets, ∀ provider, request.provider = .ok provider → provider.Chain sets := by
  rcases hprovider : request.provider with fault | provider
  · exact ⟨[], by simp⟩
  · obtain ⟨sets, hchain⟩ := MappingProvider.exists_chain (Request.provider_ne_fixed hprovider)
    exact ⟨sets, by rintro _ ⟨⟩; exact hchain⟩

/-- The last pass maps to the last namespace of the chain. -/
theorem CallPlan.last_space {plan : CallPlan} (hsets : plan.sets ≠ []) :
    plan.sets.getLast?.map (·.target) = some plan.last.space := by
  rw [last, final, List.getLast?_eq_some_getLast hsets]
  rfl

/-! ### The stages -/

namespace Pipeline

variable {run : Run} {host : Host} {here : Location}

/-- The plan of a run with these sets. -/
def planOf (run : Run) (here : Location) (bundled : Bool) (sets : List MappingSet) : CallPlan :=
  ⟨run.settings, run.workspace, here, bundled, sets⟩

/-- What has been called and handed on once `n` stages have succeeded. -/
def Tally (run : Run) (here : Location) (base : List ToolCall) (bundled : Bool) :
    Nat → List ToolCall → RunState → Prop
  | 0 | 1 | 2 => only base
  | 3 | 4 => only (base ++ (planOf run here bundled []).unpacking)
  | 5 => fun calls state => calls = base ++ (planOf run here bundled []).unpacking ∧
      run.provider.Chain state.mappingSets
  | 6 => fun calls state => ∃ sets, run.provider.Chain sets ∧
      calls = base ++ (planOf run here bundled sets).unpacking ++
        (planOf run here bundled sets).remapping ∧
      state.mapped = some (planOf run here bundled sets).last
  | _ => fun calls state => ∃ sets, run.provider.Chain sets ∧
      calls = base ++ (planOf run here bundled sets).calls ∧
      state.mapped = some (planOf run here bundled sets).last

/-- The first calls of some plan have been made. -/
def Partly (run : Run) (here : Location) (base : List ToolCall) (bundled : Bool)
    (calls : List ToolCall) : Prop :=
  ∃ sets made, run.provider.Chain sets ∧ made <+: (planOf run here bundled sets).calls ∧
    calls = base ++ made

section

variable {base : List ToolCall} {bundled : Bool} {sets : List MappingSet}
  (hchain : run.provider.Chain sets)

include hchain

theorem partly_base : Partly run here base bundled base :=
  ⟨sets, [], hchain, List.nil_prefix, (List.append_nil base).symm⟩

theorem partly_remapping {calls : List ToolCall}
    (hcalls : calls <+: (planOf run here bundled sets).remapping) :
    Partly run here base bundled (base ++ (planOf run here bundled []).unpacking ++ calls) := by
  refine ⟨sets, (planOf run here bundled sets).unpacking ++ calls, hchain, ?_, ?_⟩
  · unfold CallPlan.calls
    rw [List.append_assoc]
    exact (List.prefix_append_right_inj _).mpr (hcalls.trans (List.prefix_append _ _))
  · rw [List.append_assoc]
    rfl

theorem partly_unpacking :
    Partly run here base bundled (base ++ (planOf run here bundled []).unpacking) := by
  simpa using partly_remapping hchain (List.nil_prefix (l := (planOf run here bundled sets).remapping))

theorem partly_calls :
    Partly run here base bundled (base ++ (planOf run here bundled sets).calls) :=
  ⟨sets, _, hchain, List.prefix_refl _, rfl⟩

end

theorem Tally.partly (hfixed : ∀ word sets, run.provider ≠ .fixed word sets)
    {base : List ToolCall} {bundled : Bool} {n : Nat} {calls : List ToolCall} {state : RunState}
    (htally : Tally run here base bundled n calls state) :
    Partly run here base bundled calls := by
  obtain ⟨sets, hchain⟩ := MappingProvider.exists_chain hfixed
  match n, htally with
  | 0, htally | 1, htally | 2, htally => exact htally ▸ partly_base hchain
  | 3, htally | 4, htally => exact htally ▸ partly_unpacking hchain
  | 5, htally => exact htally.1 ▸ partly_unpacking hchain
  | 6, htally =>
    obtain ⟨others, hothers, rfl, -⟩ := htally
    exact partly_remapping hothers (List.prefix_refl _)
  | n + 7, htally =>
    obtain ⟨others, hothers, rfl, -⟩ := htally
    exact partly_calls hothers

/-- Each stage makes its part of the plan. -/
theorem performed_tally (hfixed : ∀ word sets, run.provider ≠ .fixed word sets)
    {base : List ToolCall} {bundled : Bool} {n : Nat} {stage : Stage} {started : World}
    (hstage : Stage.all[n]? = some stage)
    (hbundled : n = 2 → (bundled = true ↔
      Package.IsBundle started.files (CallPlan.primary run.workspace run.side).path))
    (hstarted : Tallies run here (Tally run here base bundled n) started) :
    Performed (quietly host here run) (Tallies run here (Tally run here base bundled (n + 1)))
      (Tallies run here fun calls _ => Partly run here base bundled calls)
      ((stage.perform run).eval host started) := by
  obtain ⟨sets, hchain⟩ := MappingProvider.exists_chain hfixed
  have hbase : Partly run here base bundled base := partly_base hchain
  have hunpacked : Partly run here base bundled
      (base ++ (planOf run here bundled []).unpacking) := partly_unpacking hchain
  have hready : ∀ {condition : List ToolCall → RunState → Prop} world,
      Tallies run here condition world → (quietly host here run).Ready world :=
    fun _ htallies => htallies.ready
  match n, hstage with
  | 0, hstage =>
    cases hstage
    exact (Stage.resolve_tallied hbase).performed hready hready hstarted
  | 1, hstage =>
    cases hstage
    exact (Stage.fetch_tallied hbase).performed hready hready hstarted
  | 2, hstage =>
    cases hstage
    refine (Stage.unpack_leads hbase bundled ?_).performed hready hready
      ⟨hstarted, hbundled rfl⟩
    rintro rfl
    exact hunpacked
  | 3, hstage =>
    cases hstage
    exact (Stage.sanitize_tallied hunpacked).performed hready hready hstarted
  | 4, hstage =>
    cases hstage
    exact (Stage.mappings_tallied hunpacked hfixed).performed hready hready hstarted
  | 5, hstage =>
    cases hstage
    obtain ⟨hcalls, hsets⟩ := hstarted.holds
    refine (Action.Tallied.weaken (Stage.remap_tallied started.state.mappingSets
      fun calls => partly_remapping hsets) (fun _ _ hbefore => hbefore) ?_).performed
        hready hready ⟨hstarted.here, hstarted.handed, hcalls, rfl⟩
    exact fun _ calls state hafter => ⟨_, hsets, hafter⟩
  | 6, hstage =>
    cases hstage
    obtain ⟨others, hothers, hcalls, hmapped⟩ := hstarted.holds
    have hall : base ++ (planOf run here bundled others).calls = started.calls ++
        [CallPlan.decompilerCall run.settings run.workspace
          (planOf run here bundled others).last] := by
      rw [hcalls, CallPlan.calls, List.append_assoc, List.append_assoc, List.append_assoc]
      rfl
    refine (Action.Tallied.weaken (Stage.decompile_tallied _ (Tally.partly hfixed hstarted.holds)
      (hall ▸ partly_calls hothers)) (fun _ _ hbefore => hbefore) ?_).performed
        hready hready ⟨hstarted.here, hstarted.handed, rfl, hmapped⟩
    exact fun _ calls state hafter => ⟨others, hothers, hafter.1.trans hall.symm, hafter.2⟩
  | n + 7, hstage => simp [Stage.all] at hstage

/-- The calls of the stages. `bundled` tells of the package that is unpacked. -/
theorem executeFrom_calls (hfixed : ∀ word sets, run.provider ≠ .fixed word sets) {start : World}
    {base : List ToolCall} {bundled : Bool}
    (hbundled : ∀ started, Performing host run Stage.all start 2 started →
      (bundled = true ↔
        Package.IsBundle started.files (CallPlan.primary run.workspace run.side).path))
    (hstart : Tallies run here (only base) start) :
    Stopped (quietly host here run) Stage.all
      (fun after => Tallies run here (Tally run here base bundled 7) after ∧
        Reaches host run Stage.all start 7 after)
      (Tallies run here fun calls _ => Partly run here base bundled calls)
      ((executeFrom run Stage.all.length 0 Stage.all).eval host start) := by
  have hstable : ∀ n, (quietly host here run).Stable
      (Tallies run here (Tally run here base bundled n)) := fun _ => Tallies.stable
  refine executeFrom_stopped (quiet_files _) Discipline.quiet.allowsLog hstable Tallies.stable
    (fun n world htallies => htallies.weaken fun _ _ htally => htally.partly hfixed)
    (fun n stage reached started hstage hreaches hbegin _ hstarted => ?_)
    rfl .start hstart.ready hstart
  refine performed_tally hfixed hstage ?_ hstarted
  rintro rfl
  exact hbundled started ⟨reached, stage, hreaches, hstage, hbegin⟩

/-! ### The run -/

/-- A plan for a request: its sets are a chain of the provider that the request names, and it begins
with the bundler if the jar is a bundle when it is to be unpacked. -/
structure Request.Plan (request : Request) (preflight : Preflight) (host : Host) (world : World)
    (plan : CallPlan) : Prop where
  settings : plan.settings = request.settings
  workspace : plan.workspace = request.workspaceOf
  here : plan.here = world.files.here
  chain : ∀ provider, request.provider = .ok provider → provider.Chain plan.sets
  bundled : ∀ started, request.Performing preflight host world 2 started →
    (plan.bundled = true ↔ Package.IsBundle started.files
      (CallPlan.primary plan.workspace plan.settings.side).path)

/-- The calls after `base` are the first ones of the plan. After a success they are all of them, and
what was mapped at last is what the last pass made. -/
structure Follows (plan : CallPlan) (base : List ToolCall)
    (ending : Except Fault RunOutcome × World) : Prop where
  begun : ∃ made, made <+: plan.calls ∧ ending.2.calls = base ++ made
  completed : ∀ outcome, ending.1 = .ok outcome → outcome.exitCode = 0 →
    ending.2.calls = base ++ plan.calls ∧ outcome.state.mapped = some plan.last

section

variable (host : Host) (here : Location) (base : List ToolCall) (request : Request)
  (provider : MappingProvider)

theorem enter_leads (preflight : Preflight) :
    Action.Leads host (fun world => world.files.here = here ∧ world.calls = base)
      (enter preflight.check request)
      (fun provider world => request.provider = .ok provider ∧
        world.files.here = here ∧ world.calls = base)
      (fun world => world.files.here = here ∧ world.calls = base) := by
  refine .keeps (d := .quiet host here fun _ => True)
    (enter_keeps preflight request (fun _ _ => Discipline.quiet.allowsFiles _) fun _ => trivial)
    (fun world hworld => ⟨hworld.1, trivial⟩) ?_ fun world hworld => hworld
  rintro before after ⟨hcalls, -, hhere⟩ ⟨hbefore, hbase⟩
  exact ⟨hhere.trans hbefore, hcalls.trans hbase⟩

theorem beginRun_leads :
    Action.Leads host (fun world => world.files.here = here ∧ world.calls = base)
      (beginRun Stage.all request.workspaceOf request.runId request.version request.settings
        provider request.notes)
      (fun run world => run = request.runWith provider ∧
        Tallies (request.runWith provider) here (only base) world)
      (Tallies (request.runWith provider) here (only base)) := by
  have hopened := Action.Leads.keeps (d := quietly host here (request.runWith provider))
    (opened_keeps (request.runWith provider) (quiet_files _) (quiet_files _)
      Discipline.quiet.allowsLog (quiet_files _) rfl Stage.all request.notes)
    (fun world (hworld : Tallies _ here (only base) world) => hworld.ready) Tallies.stable
    fun world hworld => hworld
  have hready : ∀ {world : World}, world.files.here = here ∧ world.calls = base →
      Tallies (request.runWith provider) here (only base) { world with state := {} } :=
    fun hworld => ⟨hworld.1, Handed.empty _, hworld.2⟩
  constructor
  · intro world after run hworld heval
    rw [eval_beginRun] at heval
    exact hopened.value (hready hworld) heval
  · intro world after fault hworld heval
    rw [eval_beginRun] at heval
    exact hopened.fault (hready hworld) heval

end

/-- The end of a run calls no tool. -/
theorem finishRun_frame (host : Host) (run : Run) (notes : Json.Fields) (startedAt : String)
    (results : List StageResult) (world : World) :
    ((finishRun run notes startedAt results).eval host world).2.calls = world.calls ∧
      ∀ outcome, ((finishRun run notes startedAt results).eval host world).1 = .ok outcome →
        Ends run results outcome ∧ outcome.state = world.state := by
  have hkeeps := finishRun_keeps (d := .quiet host world.files.here (· = world.state)) run
    Discipline.quiet.allowsLog (Discipline.quiet.allowsFiles _) (Discipline.quiet.allowsFiles _)
    (Discipline.quiet.allowsFiles _) notes startedAt results
  refine ⟨(hkeeps.step rfl rfl).1, fun outcome houtcome => ?_⟩
  obtain ⟨hends, other, hother, hstate⟩ := hkeeps.value rfl rfl (Prod.ext houtcome rfl)
  exact ⟨hends, hstate.symm.trans hother⟩

theorem runStages_calls (request : Request) {provider : MappingProvider}
    (hprovider : request.provider = .ok provider) (world : World) (bundled : Bool)
    (hbundled : ∀ run begun started,
      (beginRun Stage.all request.workspaceOf request.runId request.version request.settings
        provider request.notes).eval host world = (.ok run, begun) →
      Performing host run Stage.all begun 2 started →
      (bundled = true ↔ Package.IsBundle started.files
        (CallPlan.primary request.workspaceOf request.settings.side).path))
    {ending : Except Fault RunOutcome × World}
    (hending : (runStages Stage.all request.workspaceOf request.runId request.version
      request.settings provider request.notes).eval host world = ending) :
    ∃ sets, provider.Chain sets ∧
      Follows ⟨request.settings, request.workspaceOf, world.files.here, bundled, sets⟩
        world.calls ending ∧
      ∀ outcome, ending.1 = .ok outcome → outcome.exitCode = 0 → ∃ run begun started,
        (beginRun Stage.all request.workspaceOf request.runId request.version request.settings
          provider request.notes).eval host world = (.ok run, begun) ∧
        Performing host run Stage.all begun 2 started := by
  have hfixed : ∀ word sets, (request.runWith provider).provider ≠ .fixed word sets :=
    Request.provider_ne_fixed hprovider
  obtain ⟨others, hothers⟩ := MappingProvider.exists_chain hfixed
  have hbegin := beginRun_leads host world.files.here world.calls request provider
  unfold runStages at hending
  rw [Action.eval_bind, Action.eval_read] at hending
  simp only at hending
  rw [Action.eval_bind] at hending
  rcases hbegun : (beginRun Stage.all request.workspaceOf request.runId request.version
    request.settings provider request.notes).eval host world with ⟨fault | run, begun⟩
  · rw [hbegun] at hending
    have htallies := hbegin.fault ⟨rfl, rfl⟩ hbegun
    subst hending
    refine ⟨others, hothers, ⟨⟨[], List.nil_prefix, ?_⟩, by simp⟩, by simp⟩
    exact htallies.holds.trans (List.append_nil _).symm
  obtain ⟨rfl, htallies⟩ := hbegin.value ⟨rfl, rfl⟩ hbegun
  have hstopped := executeFrom_calls hfixed
    (fun started => hbundled _ begun started hbegun) htallies
  simp only [hbegun] at hending
  rw [Action.eval_bind] at hending
  rcases hexecuted : (executeFrom (request.runWith provider) Stage.all.length 0 Stage.all).eval
    host begun with ⟨fault | results, last⟩
  · rw [hexecuted] at hstopped hending
    obtain ⟨sets, made, hchain, hmade, hcalls⟩ := hstopped.broken.holds
    subst hending
    exact ⟨sets, hchain, ⟨⟨made, hmade, hcalls⟩, by simp⟩, by simp⟩
  rw [hexecuted] at hstopped hending
  obtain ⟨hsettled, hpost⟩ := hstopped.results results rfl
  have hfinish := finishRun_frame host (request.runWith provider) request.notes
    host.clock results last
  simp only at hending
  rw [hending] at hfinish
  obtain ⟨hsame, houtcome⟩ := hfinish
  by_cases hsuccess : RunReport.statusOf results = .success
  · obtain ⟨hlast, hreaches⟩ := hpost (hsettled.all_success hsuccess)
    obtain ⟨sets, hchain, hcalls, hmapped⟩ := hlast.holds
    obtain ⟨started, hstarted⟩ := hreaches.performing (m := 2) (by omega)
    refine ⟨sets, hchain, ⟨⟨_, List.prefix_refl _, hsame.trans hcalls⟩, fun outcome hok _ => ?_⟩,
      fun _ _ _ => ⟨_, begun, started, rfl, hstarted⟩⟩
    rw [(houtcome outcome hok).2]
    exact ⟨hsame.trans hcalls, hmapped⟩
  · obtain ⟨sets, made, hchain, hmade, hcalls⟩ := hstopped.broken.holds
    have hnonzero : ∀ outcome, ending.1 = .ok outcome → outcome.exitCode ≠ 0 := by
      intro outcome hok
      rw [(houtcome outcome hok).1.exitCode, if_neg hsuccess]
      exact Nat.one_ne_zero
    exact ⟨sets, hchain, ⟨⟨made, hmade, hsame.trans hcalls⟩, fun outcome hok hzero =>
      absurd hzero (hnonzero outcome hok)⟩, fun outcome hok hzero =>
      absurd hzero (hnonzero outcome hok)⟩

/-- What a run calls is planned when it has been entered, but for the package that it comes to
unpack. -/
theorem exists_plan (preflight : Preflight) (request : Request) (host : Host) (world : World) :
    ∃ plan, request.Plan preflight host world plan ∧
      Follows plan world.calls (request.ending preflight host world) ∧
      ∀ outcome, (request.ending preflight host world).1 = .ok outcome → outcome.exitCode = 0 →
        plan.sets ≠ [] ∧ ∃ started, request.Performing preflight host world 2 started := by
  classical
  have henters := enter_leads host world.files.here world.calls request preflight
  rcases henter : (enter preflight.check request).eval host world with ⟨fault | provider, ready⟩
  · rw [Request.ending_of_refused henter]
    obtain ⟨-, hcalls⟩ := henters.fault ⟨rfl, rfl⟩ henter
    obtain ⟨sets, hchain⟩ := request.exists_sets
    have hnone : ∀ started, ¬request.Performing preflight host world 2 started := by
      rintro started ⟨provider, ready, run, begun, hother, -⟩
      simp [henter] at hother
    exact ⟨⟨request.settings, request.workspaceOf, world.files.here, false, sets⟩,
      ⟨rfl, rfl, rfl, hchain, fun started hstarted => absurd hstarted (hnone started)⟩,
      ⟨⟨[], List.nil_prefix, hcalls.trans (List.append_nil _).symm⟩, by simp⟩, by simp⟩
  obtain ⟨hprovider, hhere, hcalls⟩ := henters.value ⟨rfl, rfl⟩ henter
  let bundled : Bool := decide (∃ started, request.Performing preflight host world 2 started ∧
    Package.IsBundle started.files
      (CallPlan.primary request.workspaceOf request.settings.side).path)
  have hbundled : ∀ started, request.Performing preflight host world 2 started →
      (bundled = true ↔ Package.IsBundle started.files
        (CallPlan.primary request.workspaceOf request.settings.side).path) := by
    intro started hstarted
    rw [decide_eq_true_iff]
    constructor
    · rintro ⟨other, hother, hbundle⟩
      exact hstarted.unique hother ▸ hbundle
    · exact fun hbundle => ⟨started, hstarted, hbundle⟩
  obtain ⟨sets, hchain, hfollows, hunpacked⟩ := runStages_calls request hprovider ready bundled
    (fun run begun started hbegin hstarted =>
      hbundled started ⟨provider, ready, run, begun, henter, hbegin, hstarted⟩)
    (eval_runStages request provider host ready)
  rw [hhere] at hfollows
  rw [Request.ending_of_entered henter, ← hcalls]
  refine ⟨⟨request.settings, request.workspaceOf, world.files.here, bundled, sets⟩,
    ⟨rfl, rfl, rfl, ?_, hbundled⟩, hfollows, fun outcome hok hzero => ⟨hchain.ne_nil, ?_⟩⟩
  · intro other hother
    obtain rfl := Except.ok.inj (hprovider.symm.trans hother)
    exact hchain
  · obtain ⟨run, begun, started, hbegin, hstarted⟩ := hunpacked outcome hok hzero
    exact ⟨started, provider, ready, run, begun, henter, hbegin, hstarted⟩

end Pipeline

end JarRefinery
