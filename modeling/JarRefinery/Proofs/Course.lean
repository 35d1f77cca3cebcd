import JarRefinery.Proofs.Operations

/-!
# The course of a run

A run begins, executes its stages up to the first that fails, and ends. What holds when it begins and
is handed on by every stage that succeeds holds when all of them have; what every stage leaves that
fails holds of a run that stopped.
-/

namespace JarRefinery

open Action (any)

variable {host : Host} {world : World}

/-! ### The execution of a stage -/

namespace Stage

theorem eval_caught {α : Type} (action : Action α) :
    (caught action).eval host world =
      match action.eval host world with
      | (.ok value, after) => (.ok (.ok value), after)
      | (.error fault, after) =>
        if isFailure fault then (.ok (.error fault), after) else (.error fault, after) := by
  unfold caught
  rw [Action.eval_handle, Action.eval_map]
  rcases action.eval host world with ⟨fault | value, after⟩
  · cases hfailure : isFailure fault <;> simp [Except.map, hfailure]
  · rfl

/-- A stage begins, is performed, and is brought to its end. -/
theorem eval_execute (run : Run) (stage : Stage) (position : Option String) :
    (stage.execute run position).eval host world =
      match (stage.begin run (.ofOption position)).eval host world with
      | (.error fault, after) => (.error fault, after)
      | (.ok _, started) =>
        match (stage.perform run).eval host started with
        | (.ok output, performed) =>
          (stage.finish run (.ofOption position) output).eval host performed
        | (.error fault, performed) =>
          if isFailure fault then
            (fail run stage (.ofOption position) fault {}).eval host performed
          else (.error fault, performed) := by
  unfold execute
  rw [Action.eval_bind]
  rcases (stage.begin run (.ofOption position)).eval host world with ⟨fault | value, started⟩
  · rfl
  simp only
  rw [Action.eval_bind, eval_caught]
  rcases (stage.perform run).eval host started with ⟨fault | output, performed⟩
  · cases hfailure : isFailure fault <;> simp [hfailure]
  · rfl

/-- The result is that of the stage, with the references that it gave. -/
structure Tells (stage : Stage) (output : StageOutput) (result : StageResult) : Prop where
  stage : result.stage = stage.name
  artifacts : result.output.artifacts = output.artifacts

variable {d : Discipline} {run : Run}
  (hevents : d.AllowsFiles { written := {run.events.path.normal d.here} }) (hlog : d.AllowsLog)

include hevents hlog

theorem begin_keeps (stage : Stage) (position : Json) :
    (stage.begin run position).Keeps d any := by
  unfold begin
  exact (Run.emit_keeps hevents _ _ _).andThen fun _ => Run.log_keeps hlog _ _ _

theorem announce_keeps (stage : Stage) (output : StageOutput) :
    (announce run stage output).Keeps d any := by
  unfold announce
  refine .andThen (.forM fun warning _ => ?_) fun _ => ?_
  · exact (Run.emit_keeps hevents _ _ _).andThen fun _ => Run.log_keeps hlog _ _ _
  dsimp only
  split
  · exact (Run.emit_keeps hevents _ _ _).andThen fun _ => Run.emit_keeps hevents _ _ _
  · exact Run.emit_keeps hevents _ _ _

/-- A stage that fails says so in its result. -/
theorem fail_keeps (stage : Stage) (position : Json) (fault : Fault) (sofar : StageOutput) :
    (fail run stage position fault sofar).Keeps d fun result =>
      Tells stage sofar result ∧ result.status = .failed := by
  unfold fail announceFailure
  refine .andThen ((Run.emit_keeps hevents _ _ _).andThen fun _ => Run.log_keeps hlog _ _ _)
    fun _ => ?_
  exact .andThen (.read trivial) fun host => .pure ⟨⟨rfl, rfl⟩, rfl⟩

theorem finish_keeps (stage : Stage) (position : Json) (output : StageOutput) :
    (stage.finish run position output).Keeps d fun result =>
      Tells stage output result ∧ (result.status = .success ∨ result.status = .failed) := by
  unfold finish caught
  refine .andThen (.handle (.map (announce_keeps hevents hlog _ _).anyway) fun _ _ _ =>
    .pure trivial) fun result => ?_
  cases result with
  | error fault =>
    exact (fail_keeps hevents hlog _ _ _ _).weaken fun result hresult =>
      ⟨hresult.1, .inr hresult.2⟩
  | ok value =>
    refine .andThen (Run.log_keeps hlog _ _ _) fun _ => ?_
    exact .andThen (.read trivial) fun host => .pure ⟨⟨rfl, rfl⟩, .inl rfl⟩

/-- Executing a stage keeps to whatever performing it keeps to. -/
theorem execute_keeps {stage : Stage} (hperform : (stage.perform run).Keeps d any)
    (position : Option String) : (stage.execute run position).Keeps d any := by
  unfold execute caught
  refine (begin_keeps hevents hlog stage _).andThen fun _ => ?_
  refine .andThen (.handle (.map hperform.anyway) fun _ _ _ => .pure trivial) fun result => ?_
  cases result with
  | error fault => exact (fail_keeps hevents hlog _ _ _ _).anyway
  | ok output => exact (finish_keeps hevents hlog _ _ _).anyway

end Stage

theorem Pipeline.executeFrom_keeps {d : Discipline} {run : Run}
    (hevents : d.AllowsFiles { written := {run.events.path.normal d.here} }) (hlog : d.AllowsLog)
    {stages : List Stage} (hperform : ∀ stage ∈ stages, (stage.perform run).Keeps d any)
    (total n : Nat) : (executeFrom run total n stages).Keeps d any := by
  induction stages generalizing n with
  | nil => exact .pure trivial
  | cons stage rest ih =>
    unfold executeFrom
    refine (Stage.execute_keeps hevents hlog (hperform stage List.mem_cons_self) _).andThen
      fun result => ?_
    split
    · exact (Run.log_keeps hlog _ _ _).andThen fun _ => .pure trivial
    · exact (ih (fun stage hstage => hperform stage (List.mem_cons_of_mem _ hstage)) _).andThen
        fun results => .pure trivial

/-! ### What stages hand on -/

namespace Discipline

/-- A world in which operations may rely on the discipline. -/
structure Ready (d : Discipline) (world : World) : Prop where
  here : world.files.here = d.here
  inv : d.inv world

/-- The condition outlasts everything that the discipline allows. -/
def Stable (d : Discipline) (condition : World → Prop) : Prop :=
  ∀ {before after : World}, d.step before after → condition before → condition after

theorem Ready.after {d : Discipline} {α : Type} {action : Action α} {post : α → Prop}
    (hready : d.Ready world) (hkeeps : action.Keeps d post) :
    d.Ready (action.eval d.host world).2 :=
  ⟨hkeeps.here hready.here hready.inv, d.keep (hkeeps.step hready.here hready.inv) hready.inv⟩

/-- What an action leaves is ready again, and was come to by steps. -/
theorem Ready.evaluated {d : Discipline} {α : Type} {action : Action α} {post : α → Prop}
    {result : Except Fault α} {after : World} (hready : d.Ready world)
    (hkeeps : action.Keeps d post) (heval : action.eval d.host world = (result, after)) :
    d.Ready after ∧ d.step world after := by
  have hafter := hready.after hkeeps
  have hstep := hkeeps.step hready.here hready.inv
  rw [heval] at hafter hstep
  exact ⟨hafter, hstep⟩

theorem Stable.after {d : Discipline} {condition : World → Prop} (hstable : d.Stable condition)
    {α : Type} {action : Action α} {post : α → Prop} (hkeeps : action.Keeps d post)
    (hready : d.Ready world) (hcondition : condition world) :
    condition (action.eval d.host world).2 :=
  hstable (hkeeps.step hready.here hready.inv) hcondition

end Discipline

/-- What performing a stage makes of a condition: `post` if it gives an output, `broken` if it ends
with a fault. -/
structure Performed (d : Discipline) (post broken : World → Prop)
    (ending : Except Fault StageOutput × World) : Prop where
  ready : d.Ready ending.2
  output : ∀ output, ending.1 = .ok output → post ending.2
  fault : ∀ fault, ending.1 = .error fault → broken ending.2

/-- What executing a stage makes of a condition. -/
structure Executed (d : Discipline) (stage : Stage) (post broken : World → Prop)
    (ending : Except Fault StageResult × World) : Prop where
  ready : d.Ready ending.2
  broken : broken ending.2
  result : ∀ result, ending.1 = .ok result → result.stage = stage.name ∧
    (result.status = .success ∧ post ending.2 ∨ result.status = .failed)

section Conditions

variable {d : Discipline} {run : Run}
  (hevents : d.AllowsFiles { written := {run.events.path.normal d.here} }) (hlog : d.AllowsLog)

include hevents hlog

theorem Stage.execute_executed {stage : Stage} {position : Option String}
    {pre post broken : World → Prop} (hpre : d.Stable pre) (hpost : d.Stable post)
    (hbroken : d.Stable broken) (hpreBroken : ∀ world, pre world → broken world)
    (hpostBroken : ∀ world, post world → broken world)
    (hready : d.Ready world) (hworld : pre world)
    (hperform : ∀ started,
      (stage.begin run (.ofOption position)).eval d.host world = (.ok (), started) →
      d.Ready started → pre started →
      Performed d post broken ((stage.perform run).eval d.host started)) :
    Executed d stage post broken ((stage.execute run position).eval d.host world) := by
  rw [Stage.eval_execute]
  have hbegin := Stage.begin_keeps hevents hlog stage (.ofOption position)
  have hreadyStarted := hready.after hbegin
  have hpreStarted := hpre.after hbegin hready hworld
  rcases hstarted : (stage.begin run (.ofOption position)).eval d.host world with
    ⟨fault | value, started⟩
  · rw [hstarted] at hreadyStarted hpreStarted
    exact ⟨hreadyStarted, hpreBroken _ hpreStarted, by simp⟩
  rw [hstarted] at hreadyStarted hpreStarted
  obtain ⟨hreadyPerformed, houtput, hfault⟩ := hperform started hstarted hreadyStarted hpreStarted
  simp only
  rcases hperformed : (stage.perform run).eval d.host started with ⟨fault | output, performed⟩
  · rw [hperformed] at hreadyPerformed hfault
    have hstopped := hfault fault rfl
    simp only
    split
    · have hfail := Stage.fail_keeps hevents hlog stage (.ofOption position) fault {}
      refine ⟨hreadyPerformed.after hfail, hbroken.after hfail hreadyPerformed hstopped, ?_⟩
      intro result hresult
      have hvalue := hfail.value hreadyPerformed.here hreadyPerformed.inv (Prod.ext hresult rfl)
      exact ⟨hvalue.1.stage, .inr hvalue.2⟩
    · exact ⟨hreadyPerformed, hstopped, by simp⟩
  · rw [hperformed] at hreadyPerformed houtput
    have hpassed := houtput output rfl
    have hfinish := Stage.finish_keeps hevents hlog stage (.ofOption position) output
    have hend := hpost.after hfinish hreadyPerformed hpassed
    refine ⟨hreadyPerformed.after hfinish, hpostBroken _ hend, ?_⟩
    intro result hresult
    have hvalue := hfinish.value hreadyPerformed.here hreadyPerformed.inv (Prod.ext hresult rfl)
    exact ⟨hvalue.1.stage, hvalue.2.imp_left fun hsuccess => ⟨hsuccess, hend⟩⟩

end Conditions

/-! ### The stages one after the other -/

namespace Pipeline

theorem drop_eq_cons_iff {stages rest : List Stage} {stage : Stage} {n : Nat} :
    stages.drop n = stage :: rest ↔ stages[n]? = some stage ∧ stages.drop (n + 1) = rest := by
  constructor
  · intro hrest
    refine ⟨?_, by rw [← List.drop_drop, hrest, List.drop_one, List.tail_cons]⟩
    have hhead : (stages.drop n)[0]? = some stage := by simp [hrest]
    simpa using hhead
  · rintro ⟨hstage, rfl⟩
    obtain ⟨hlt, rfl⟩ := List.getElem?_eq_some_iff.mp hstage
    exact List.drop_eq_getElem_cons hlt

/-- The first `n` stages succeed and leave this world. -/
inductive Reaches (host : Host) (run : Run) (stages : List Stage) (start : World) :
    Nat → World → Prop
  | start : Reaches host run stages start 0 start
  | next {n : Nat} {reached after : World} {stage : Stage} {result : StageResult} :
    Reaches host run stages start n reached → stages[n]? = some stage →
    (stage.execute run (some (position n stages.length))).eval host reached = (.ok result, after) →
    result.status = .success → Reaches host run stages start (n + 1) after

theorem Reaches.le {run : Run} {stages : List Stage} {start reached : World} {n : Nat}
    (hreaches : Reaches host run stages start n reached) : n ≤ stages.length := by
  cases hreaches with
  | start => exact Nat.zero_le _
  | next _ hstage _ _ => exact (List.getElem?_eq_some_iff.mp hstage).1

/-- What the stages reach is determined. -/
theorem Reaches.unique {run : Run} {stages : List Stage} {start reached other : World} {n : Nat}
    (hreaches : Reaches host run stages start n reached)
    (hother : Reaches host run stages start n other) : reached = other := by
  induction hreaches generalizing other with
  | start => cases hother; rfl
  | next _ hstage heval _ ih =>
    cases hother with | next hbefore hstage' heval' _ =>
    obtain rfl := ih hbefore
    obtain rfl := Option.some.inj (hstage.symm.trans hstage')
    exact (Prod.mk.inj (heval.symm.trans heval')).2

/-- What more stages reach goes through what fewer reach. -/
theorem Reaches.earlier {run : Run} {stages : List Stage} {start reached : World} {n m : Nat}
    (hreaches : Reaches host run stages start n reached) (hle : m ≤ n) :
    ∃ before, Reaches host run stages start m before := by
  induction hreaches with
  | start => exact ⟨start, by rw [Nat.le_zero.mp hle]; exact .start⟩
  | next hbefore hstage heval hsuccess ih =>
    rcases Nat.le_succ_iff.mp hle with hle | rfl
    · exact ih hle
    · exact ⟨_, hbefore.next hstage heval hsuccess⟩

/-- The stage that has `n` stages before it has begun in this world. -/
def Performing (host : Host) (run : Run) (stages : List Stage) (start : World) (n : Nat)
    (started : World) : Prop :=
  ∃ reached stage, Reaches host run stages start n reached ∧ stages[n]? = some stage ∧
    (stage.begin run (.ofOption (some (position n stages.length)))).eval host reached =
      (.ok (), started)

theorem Performing.unique {run : Run} {stages : List Stage} {start started other : World} {n : Nat}
    (hstarted : Performing host run stages start n started)
    (hother : Performing host run stages start n other) : started = other := by
  obtain ⟨reached, stage, hreaches, hstage, hbegin⟩ := hstarted
  obtain ⟨reached', stage', hreaches', hstage', hbegin'⟩ := hother
  obtain rfl := hreaches.unique hreaches'
  obtain rfl := Option.some.inj (hstage.symm.trans hstage')
  exact (Prod.mk.inj (hbegin.symm.trans hbegin')).2

/-- A stage that succeeded has begun. -/
theorem Reaches.performing {run : Run} {stages : List Stage} {start reached : World} {n m : Nat}
    (hreaches : Reaches host run stages start n reached) (hlt : m < n) :
    ∃ started, Performing host run stages start m started := by
  obtain ⟨after, hafter⟩ := hreaches.earlier (Nat.succ_le_of_lt hlt)
  cases hafter with | @next _ before _ stage _ hbefore hstage heval _ =>
  rw [Stage.eval_execute] at heval
  rcases hbegin : (stage.begin run (.ofOption (some (position m stages.length)))).eval host before
    with ⟨fault | value, started⟩
  · simp [hbegin] at heval
  · exact ⟨started, before, stage, hbefore, hstage, hbegin⟩

/-- After a stage that succeeds comes the rest. -/
theorem eval_executeFrom_success {run : Run} {total n : Nat} {stage : Stage} {rest : List Stage}
    {world after : World} {result : StageResult}
    (heval : (stage.execute run (some (position n total))).eval host world = (.ok result, after))
    (hsuccess : result.status = .success) :
    (executeFrom run total n (stage :: rest)).eval host world =
      ((result :: ·) <$> executeFrom run total (n + 1) rest).eval host after := by
  have hgoes : RunReport.hasFailed result = false := by simp [RunReport.hasFailed, hsuccess]
  rw [executeFrom, Action.eval_bind_ok heval]
  simp only [hgoes, Bool.false_eq_true, if_false]
  rw [map_eq_pure_bind]

/-- After a stage that fails comes nothing more. -/
theorem eval_executeFrom_failed {run : Run} {total n : Nat} {stage : Stage} {rest : List Stage}
    {world after : World} {result : StageResult}
    (heval : (stage.execute run (some (position n total))).eval host world = (.ok result, after))
    (hfailed : result.status = .failed) :
    (executeFrom run total n (stage :: rest)).eval host world =
      (do Run.log .error "Stopping on first failure" [("stage", .text stage.name)]
          return [result]).eval host after := by
  have hstops : RunReport.hasFailed result = true := by simp [RunReport.hasFailed, hfailed]
  rw [executeFrom, Action.eval_bind_ok heval]
  simp only [hstops, if_true]

/-- Executing the stages goes on from what the first of them reach. -/
theorem Reaches.eval_executeFrom {run : Run} {stages : List Stage} {start reached : World} {n : Nat}
    (hreaches : Reaches host run stages start n reached) :
    ∃ before, (executeFrom run stages.length 0 stages).eval host start =
      (((executeFrom run stages.length n (stages.drop n)).eval host reached).1.map (before ++ ·),
        ((executeFrom run stages.length n (stages.drop n)).eval host reached).2) := by
  induction hreaches with
  | start =>
    refine ⟨[], ?_⟩
    rcases heval : (executeFrom run stages.length 0 stages).eval host start with
      ⟨fault | results, after⟩ <;> simp [heval, Except.map]
  | @next n reached after stage result hbefore hstage heval hsuccess ih =>
    obtain ⟨before, hbefore⟩ := ih
    refine ⟨before ++ [result], hbefore.trans ?_⟩
    have hdrop : stages.drop n = stage :: stages.drop (n + 1) :=
      drop_eq_cons_iff.mpr ⟨hstage, rfl⟩
    rw [hdrop, eval_executeFrom_success heval hsuccess, Action.eval_map]
    rcases (executeFrom run stages.length (n + 1) (stages.drop (n + 1))).eval host after with
      ⟨fault | results, last⟩ <;> simp [Except.map]

/-- The results of stages in their order, up to the first that failed. -/
inductive Settled : List Stage → List StageResult → Prop
  | done : Settled [] []
  | failed {stage : Stage} {rest : List Stage} {result : StageResult} :
    result.stage = stage.name → result.status = .failed → Settled (stage :: rest) [result]
  | passed {stage : Stage} {rest : List Stage} {result : StageResult}
    {results : List StageResult} :
    result.stage = stage.name → result.status = .success → Settled rest results →
    Settled (stage :: rest) (result :: results)

/-- What executing stages makes of a condition. -/
structure Stopped (d : Discipline) (stages : List Stage) (post broken : World → Prop)
    (ending : Except Fault (List StageResult) × World) : Prop where
  ready : d.Ready ending.2
  broken : broken ending.2
  results : ∀ results, ending.1 = .ok results → Settled stages results ∧
    ((∀ result ∈ results, result.status = .success) → post ending.2)

section Stopped

variable {d : Discipline} {stage : Stage} {rest : List Stage} {result : StageResult}
  {post broken : World → Prop} (hname : result.stage = stage.name)

include hname

/-- What the rest comes to goes after a stage that succeeded. -/
theorem Stopped.passed (hsuccess : result.status = .success)
    {ending : Except Fault (List StageResult) × World} (hrest : Stopped d rest post broken ending) :
    Stopped d (stage :: rest) post broken (ending.1.map (result :: ·), ending.2) := by
  refine ⟨hrest.ready, hrest.broken, fun results hresults => ?_⟩
  obtain ⟨fault | others, last⟩ := ending
  · cases hresults
  · obtain rfl := Except.ok.inj hresults
    obtain ⟨hsettled, hpost⟩ := hrest.results others rfl
    exact ⟨.passed hname hsuccess hsettled, fun hall =>
      hpost fun other hother => hall other (List.mem_cons_of_mem _ hother)⟩

theorem Stopped.failed (hfailed : result.status = .failed) {last : World} (hready : d.Ready last)
    (hbroken : broken last) : Stopped d (stage :: rest) post broken (.ok [result], last) := by
  refine ⟨hready, hbroken, ?_⟩
  rintro _ ⟨⟩
  refine ⟨.failed hname hfailed, fun hall => ?_⟩
  simp [hall result (List.mem_singleton_self _)] at hfailed

end Stopped

variable {d : Discipline} {run : Run}
  (hevents : d.AllowsFiles { written := {run.events.path.normal d.here} }) (hlog : d.AllowsLog)

include hevents hlog

/-- **Induction over a run.** `condition n` is what holds once `n` stages have succeeded. -/
theorem executeFrom_stopped {stages : List Stage} {start : World}
    {condition : Nat → World → Prop} {broken : World → Prop}
    (hcondition : ∀ n, d.Stable (condition n)) (hbroken : d.Stable broken)
    (hconditionBroken : ∀ n world, condition n world → broken world)
    (hperform : ∀ n stage reached started, stages[n]? = some stage →
      Reaches d.host run stages start n reached →
      (stage.begin run (.ofOption (some (position n stages.length)))).eval d.host reached =
        (.ok (), started) →
      d.Ready started → condition n started →
      Performed d (condition (n + 1)) broken ((stage.perform run).eval d.host started))
    {rest : List Stage} {n : Nat} (hrest : stages.drop n = rest) {reached : World}
    (hreaches : Reaches d.host run stages start n reached) (hready : d.Ready reached)
    (hreached : condition n reached) :
    Stopped d rest
      (fun after => condition stages.length after ∧
        Reaches d.host run stages start stages.length after) broken
      ((executeFrom run stages.length n rest).eval d.host reached) := by
  induction rest generalizing n reached with
  | nil =>
    have hn : n = stages.length :=
      Nat.le_antisymm hreaches.le (by simpa using hrest)
    subst hn
    refine ⟨hready, hconditionBroken _ _ hreached, ?_⟩
    rintro _ ⟨⟩
    exact ⟨.done, fun _ => ⟨hreached, hreaches⟩⟩
  | cons stage rest ih =>
    obtain ⟨hstage, hdrop⟩ := drop_eq_cons_iff.mp hrest
    have hexecuted := Stage.execute_executed hevents hlog (hcondition n) (hcondition (n + 1))
      hbroken (hconditionBroken n) (hconditionBroken (n + 1)) hready hreached
      fun started hstarted => hperform n stage reached started hstage hreaches hstarted
    rcases heval : (stage.execute run (some (position n stages.length))).eval d.host reached with
      ⟨fault | result, after⟩ <;> rw [heval] at hexecuted
    · rw [executeFrom, Action.eval_bind_error heval]
      exact ⟨hexecuted.ready, hexecuted.broken, by simp⟩
    obtain ⟨hreadyAfter, hbrokenAfter, hresult⟩ := hexecuted
    obtain ⟨hname, ⟨hsuccess, hafter⟩ | hfailed⟩ := hresult result rfl
    · rw [eval_executeFrom_success heval hsuccess, Action.eval_map]
      exact .passed hname hsuccess
        (ih hdrop (hreaches.next hstage heval hsuccess) hreadyAfter hafter)
    · have hlogKeeps := Run.log_keeps hlog .error "Stopping on first failure"
        [("stage", .text stage.name)]
      rw [eval_executeFrom_failed heval hfailed]
      exact .failed hname hfailed (hreadyAfter.after hlogKeeps)
        (hbroken.after hlogKeeps hreadyAfter hbrokenAfter)

end Pipeline

end JarRefinery
