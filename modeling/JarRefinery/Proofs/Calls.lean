import JarRefinery.Proofs.Conditions
import JarRefinery.Proofs.Stages

/-!
# The calls of a run

A run calls the bundler if the jar is a bundle, then the remapper once for each mapping set, and the
decompiler at last. Each call works on what the one before made. The calls of a run that stops early
are the first ones of such a plan.
-/

namespace JarRefinery

open Action (any)

/-! ### Plans -/

/-- What the calls of a run depend on. -/
structure CallPlan where
  settings : Settings
  workspace : Workspace
  here : Location
  bundled : Bool
  sets : List MappingSet

namespace CallPlan

/-- The jar as it is downloaded. -/
def primary (workspace : Workspace) (side : String) : Artifact :=
  ⟨"raw", workspace.primary side, officialNamespace⟩

/-- The jar that the first pass starts from. -/
def stripped (workspace : Workspace) (side : String) : Artifact :=
  ⟨"stripped", workspace.stripped side, officialNamespace⟩

/-- What a pass makes. -/
def passed (workspace : Workspace) (set : MappingSet) : Artifact :=
  ⟨set.name ++ "-mapped", Remapper.passOutput workspace set, set.target⟩

def bundlerCall (settings : Settings) (workspace : Workspace) (here : Location) : ToolCall :=
  let jar := (primary workspace settings.side).path
  ⟨Tool.javaArgv settings.javaBin Package.unpackOptions (.ofLocation (jar.normal here)) [],
    some workspace.unpackDirectory, settings.timeout⟩

def passCall (remapper : Remapper) (workspace : Workspace) (artifact : Artifact)
    (set : MappingSet) : ToolCall :=
  ⟨remapper.argv artifact.path (Remapper.passOutput workspace set) set, none, remapper.timeout⟩

/-- One call for each set; a pass starts from what the one before made. -/
def passCalls (remapper : Remapper) (workspace : Workspace) :
    Artifact → List MappingSet → List ToolCall
  | _, [] => []
  | artifact, set :: rest =>
    passCall remapper workspace artifact set ::
      passCalls remapper workspace (passed workspace set) rest

def decompilerCall (settings : Settings) (workspace : Workspace) (artifact : Artifact) :
    ToolCall :=
  ⟨(Stage.decompiler settings).argv artifact.path workspace.sourcesDirectory, none,
    settings.timeout⟩

/-- What the last pass makes. -/
def final (workspace : Workspace) (artifact : Artifact) (sets : List MappingSet) : Artifact :=
  (sets.getLast?.map (passed workspace)).getD artifact

section

variable (remapper : Remapper) (workspace : Workspace) (artifact : Artifact) (set : MappingSet)

theorem final_cons (rest : List MappingSet) :
    final workspace artifact (set :: rest) = final workspace (passed workspace set) rest := by
  unfold final
  rw [List.getLast?_cons]
  cases rest.getLast? <;> rfl

theorem passCalls_concat (sets : List MappingSet) :
    passCalls remapper workspace artifact (sets ++ [set]) =
      passCalls remapper workspace artifact sets ++
        [passCall remapper workspace (final workspace artifact sets) set] := by
  induction sets generalizing artifact with
  | nil => rfl
  | cons first rest ih =>
    rw [List.cons_append, passCalls, passCalls, ih, final_cons]
    rfl

end

variable (plan : CallPlan)

/-- What the first pass starts from. -/
def start : Artifact :=
  stripped plan.workspace plan.settings.side

/-- What the last pass makes. -/
def last : Artifact :=
  final plan.workspace plan.start plan.sets

def unpacking : List ToolCall :=
  if plan.bundled then [bundlerCall plan.settings plan.workspace plan.here] else []

def remapping : List ToolCall :=
  passCalls (Stage.remapper plan.settings) plan.workspace plan.start plan.sets

/-- The calls of the plan in their order. -/
def calls : List ToolCall :=
  plan.unpacking ++ plan.remapping ++ [decompilerCall plan.settings plan.workspace plan.last]

end CallPlan

/-- Whether a path leads to an archive with the entry that only bundles have. -/
def Package.IsBundle (files : FileTree) (path : Path) : Prop :=
  ∃ archive mode entries, files.node? (path.normal files.here) = some (.file archive mode) ∧
    Archive.readDirectory archive = .ok entries ∧ ∃ entry ∈ entries, entry.name = bundleMarker

/-! ### What is neither called nor handed on -/

/-- The artifacts that have been handed on are those of the run, in the official names. -/
structure Handed (run : Run) (state : RunState) : Prop where
  primary : ∀ artifact, state.primary = some artifact →
    artifact = CallPlan.primary run.workspace run.side
  payload : ∀ artifact, state.payload = some artifact → artifact.space = officialNamespace
  stripped : ∀ artifact, state.stripped = some artifact →
    artifact = CallPlan.stripped run.workspace run.side
  sets : state.mappingSets = [] ∨ run.provider.Chain state.mappingSets

namespace Handed

variable {run : Run} {state : RunState}

theorem empty (run : Run) : Handed run {} :=
  ⟨by simp, by simp, by simp, .inl rfl⟩

theorem setMetadata (hhanded : Handed run state) (metadata : VersionMetadata) :
    Handed run { state with metadata := some metadata } :=
  ⟨hhanded.primary, hhanded.payload, hhanded.stripped, hhanded.sets⟩

theorem setPrimary (hhanded : Handed run state) {primary : Artifact}
    (hprimary : primary = CallPlan.primary run.workspace run.side) :
    Handed run { state with primary := some primary } :=
  ⟨by rintro _ ⟨⟩; exact hprimary, hhanded.payload, hhanded.stripped, hhanded.sets⟩

theorem setPayload (hhanded : Handed run state) {payload : Artifact}
    (hspace : payload.space = officialNamespace) :
    Handed run { state with payload := some payload } :=
  ⟨hhanded.primary, by rintro _ ⟨⟩; exact hspace, hhanded.stripped, hhanded.sets⟩

theorem setStripped (hhanded : Handed run state) {stripped : Artifact}
    (hstripped : stripped = CallPlan.stripped run.workspace run.side) :
    Handed run { state with stripped := some stripped } :=
  ⟨hhanded.primary, hhanded.payload, by rintro _ ⟨⟩; exact hstripped, hhanded.sets⟩

theorem setSets (hhanded : Handed run state) {sets : List MappingSet}
    (hchain : run.provider.Chain sets) : Handed run { state with mappingSets := sets } :=
  ⟨hhanded.primary, hhanded.payload, hhanded.stripped, .inr hchain⟩

theorem setMapped (hhanded : Handed run state) (mapped : Artifact) :
    Handed run { state with mapped := some mapped } :=
  ⟨hhanded.primary, hhanded.payload, hhanded.stripped, hhanded.sets⟩

theorem setSources (hhanded : Handed run state) (directory : Path) :
    Handed run { state with sourcesDirectory := some directory } :=
  ⟨hhanded.primary, hhanded.payload, hhanded.stripped, hhanded.sets⟩

end Handed

/-- No tool is called and nothing handed on. -/
def Discipline.quiet (host : Host) (here : Location) (inv : RunState → Prop) : Discipline where
  host := host
  here := here
  inv := fun world => inv world.state
  step := fun before after =>
    after.calls = before.calls ∧ after.state = before.state ∧ after.files.here = before.files.here
  faults := fun _ => True
  refl := fun _ => ⟨rfl, rfl, rfl⟩
  trans := fun hfirst hsecond =>
    ⟨hsecond.1.trans hfirst.1, hsecond.2.1.trans hfirst.2.1, hsecond.2.2.trans hfirst.2.2⟩
  keep := by
    rintro before after ⟨-, hstate, -⟩ hinv
    rwa [hstate]
  ordinary := fun _ _ => trivial

namespace Discipline.quiet

variable {host : Host} {here : Location} {inv : RunState → Prop}

theorem allowsFiles (footprint : Footprint) : (quiet host here inv).AllowsFiles footprint :=
  fun _ _ hbefore _ hafter _ => ⟨rfl, rfl, hafter.trans hbefore.symm⟩

theorem allowsNetwork : (quiet host here inv).AllowsNetwork where
  ask := fun _ _ => ⟨rfl, rfl, rfl⟩
  wait := fun _ _ => ⟨rfl, rfl, rfl⟩
  failure := fun _ _ _ _ => trivial
  broken := fun _ _ _ _ _ _ _ => trivial

theorem allowsLog : (quiet host here inv).AllowsLog :=
  fun _ _ => ⟨rfl, rfl, rfl⟩

end Discipline.quiet

/-- A condition on the calls made and on what has been handed on. -/
structure Tallies (run : Run) (here : Location) (condition : List ToolCall → RunState → Prop)
    (world : World) : Prop where
  here : world.files.here = here
  handed : Handed run world.state
  holds : condition world.calls world.state

abbrev quietly (host : Host) (here : Location) (run : Run) : Discipline :=
  .quiet host here (Handed run)

section

variable {run : Run} {host : Host} {here : Location} {condition : List ToolCall → RunState → Prop}

theorem Tallies.stable {inv : RunState → Prop} :
    (Discipline.quiet host here inv).Stable (Tallies run here condition) := by
  rintro before after ⟨hcalls, hstate, hhere⟩ ⟨hbefore, hhanded, hholds⟩
  exact ⟨hhere.trans hbefore, by rwa [hstate], by rwa [hcalls, hstate]⟩

theorem Tallies.ready {world : World} (htallies : Tallies run here condition world) :
    (quietly host here run).Ready world :=
  ⟨htallies.here, htallies.handed⟩

theorem Tallies.weaken {world : World} {weaker : List ToolCall → RunState → Prop}
    (htallies : Tallies run here condition world)
    (himp : ∀ calls state, condition calls state → weaker calls state) :
    Tallies run here weaker world :=
  ⟨htallies.here, htallies.handed, himp _ _ htallies.holds⟩

end

namespace Action

variable {α β : Type} {host : Host} {here : Location} {run : Run}

/-- What becomes of calls and state. Where the action ends with a fault the calls are `partly`
made. -/
def Tallied (host : Host) (here : Location) (run : Run)
    (before : List ToolCall → RunState → Prop) (action : Action α)
    (after : α → List ToolCall → RunState → Prop) (partly : List ToolCall → Prop) : Prop :=
  Leads host (Tallies run here before) action (fun value => Tallies run here (after value))
    (Tallies run here fun calls _ => partly calls)

namespace Tallied

variable {before : List ToolCall → RunState → Prop}
  {after : β → List ToolCall → RunState → Prop} {partly : List ToolCall → Prop}

theorem pure {value : β} (hafter : ∀ calls state, before calls state → after value calls state) :
    Tallied host here run before (Pure.pure value) after partly :=
  Leads.pure fun _ htallies => htallies.weaken hafter

theorem throw {fault : Fault} (hpartly : ∀ calls state, before calls state → partly calls) :
    Tallied host here run before (MonadExcept.throw fault : Action β) after partly :=
  Leads.throw fun _ htallies => htallies.weaken hpartly

theorem bind {action : Action α} {next : α → Action β}
    {between : α → List ToolCall → RunState → Prop}
    (haction : Tallied host here run before action between partly)
    (hnext : ∀ value, Tallied host here run (between value) (next value) after partly) :
    Tallied host here run before (action >>= next) after partly :=
  Leads.bind haction hnext

theorem weaken {action : Action β} {stronger : List ToolCall → RunState → Prop}
    {weaker : β → List ToolCall → RunState → Prop}
    (haction : Tallied host here run before action after partly)
    (hbefore : ∀ calls state, stronger calls state → before calls state)
    (hafter : ∀ value calls state, after value calls state → weaker value calls state) :
    Tallied host here run stronger action weaker partly :=
  Leads.weaken haction (fun _ htallies => htallies.weaken hbefore)
    fun value _ htallies => htallies.weaken (hafter value)

theorem known {action : Action β} {fact : Prop}
    (haction : fact → Tallied host here run before action after partly) :
    Tallied host here run (fun calls state => fact ∧ before calls state) action after partly where
  value htallies heval :=
    (haction htallies.holds.1).value (htallies.weaken fun _ _ hbefore => hbefore.2) heval
  fault htallies heval :=
    (haction htallies.holds.1).fault (htallies.weaken fun _ _ hbefore => hbefore.2) heval

/-- Conditions on calls and state outlast whatever neither calls a tool nor hands on. -/
theorem thenQuiet {action : Action α} {next : α → Action β} {gives : α → Prop}
    (hkeeps : action.Keeps (quietly host here run) gives)
    (hpartly : ∀ calls state, before calls state → partly calls)
    (hnext : ∀ value, gives value → Tallied host here run before (next value) after partly) :
    Tallied host here run before (action >>= next) after partly := by
  refine Leads.bind
    (.keeps hkeeps (fun _ htallies => htallies.ready) Tallies.stable
      fun _ htallies => htallies.weaken hpartly) fun value => ?_
  exact .known (hnext value)

/-- What was handed on is known to be of the run. -/
theorem thenHanded {next : RunState → Action β}
    (hnext : ∀ state calls, Handed run state → before calls state →
      Tallied host here run before (next state) after partly) :
    Tallied host here run before (Run.handed >>= next) after partly := by
  constructor
  · intro world _ _ htallies heval
    rw [eval_bind_ok (Run.eval_handed host world)] at heval
    exact (hnext world.state world.calls htallies.handed htallies.holds).value htallies heval
  · intro world _ _ htallies heval
    rw [eval_bind_ok (Run.eval_handed host world)] at heval
    exact (hnext world.state world.calls htallies.handed htallies.holds).fault htallies heval

theorem thenHand (middle : List ToolCall → RunState → Prop) {change : RunState → RunState}
    {next : Unit → Action β} (hhanded : ∀ state, Handed run state → Handed run (change state))
    (hchange : ∀ calls state, before calls state → middle calls (change state))
    (hnext : Tallied host here run middle (next ()) after partly) :
    Tallied host here run before (Run.hand change >>= next) after partly := by
  have hhand : ∀ world, Tallies run here before world →
      Tallies run here middle { world with state := change world.state } :=
    fun world htallies =>
      ⟨htallies.here, hhanded _ htallies.handed, hchange _ _ htallies.holds⟩
  exact Leads.bind (.hand hhand) fun _ => hnext

theorem thenCall (middle : List ToolCall → RunState → Prop) {call : ToolCall} {next : ToolResult → Action β}
    (hcall : ∀ calls state, before calls state → middle (calls ++ [call]) state)
    (hnext : ∀ result, Tallied host here run middle (next result) after partly) :
    Tallied host here run before (Tool.call call >>= next) after partly := by
  refine Leads.bind ⟨?_, ?_⟩ hnext
  · rintro world _ result htallies ⟨⟩
    exact ⟨htallies.here, htallies.handed, hcall _ _ htallies.holds⟩
  · rintro world _ _ htallies ⟨⟩

theorem thenRefuse {so : Bool} {fault : Fault} {next : Unit → Action β}
    (hpartly : ∀ calls state, before calls state → partly calls)
    (hnext : Tallied host here run before (next ()) after partly) :
    Tallied host here run before (Action.refuse so fault >>= next) after partly :=
  Leads.bind (.refuse fun _ htallies => htallies.weaken hpartly) fun _ => hnext

end Tallied

end Action

end JarRefinery
