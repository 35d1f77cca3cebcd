import JarRefinery.Proofs.Course

/-!
# What cannot fail

Where every event can be told, nothing of a run fails but what its stages perform: a fault of a stage
becomes a part of its result, and the run goes on to its end.
-/

namespace JarRefinery

open Action (any)

namespace Action

variable {α β : Type} {d : Discipline}

/-- The action keeps to the discipline and comes to a value. -/
structure Succeeds (d : Discipline) (action : Action α) (post : α → Prop) : Prop where
  keeps : action.Keeps d post
  returns : ∀ world, d.Ready world → ∃ value, (action.eval d.host world).1 = .ok value

namespace Succeeds

theorem value {action : Action α} {post : α → Prop} (hsucceeds : action.Succeeds d post)
    {world : World} (hready : d.Ready world) :
    ∃ value after, action.eval d.host world = (.ok value, after) ∧ post value ∧ d.Ready after ∧
      d.step world after := by
  obtain ⟨value, hvalue⟩ := hsucceeds.returns world hready
  have heval : action.eval d.host world = (.ok value, (action.eval d.host world).2) :=
    Prod.ext hvalue rfl
  exact ⟨value, _, heval, hsucceeds.keeps.value hready.here hready.inv heval,
    hready.after hsucceeds.keeps, hsucceeds.keeps.step hready.here hready.inv⟩

theorem pure {value : α} {post : α → Prop} (hpost : post value) :
    Succeeds d (Pure.pure value) post :=
  ⟨.pure hpost, fun _ _ => ⟨value, rfl⟩⟩

theorem read {post : Host → Prop} (hpost : post d.host) :
    Succeeds d (MonadReader.read : Action Host) post :=
  ⟨.read hpost, fun _ _ => ⟨d.host, rfl⟩⟩

theorem bind {action : Action α} {next : α → Action β} {first : α → Prop} {post : β → Prop}
    (haction : action.Succeeds d first)
    (hnext : ∀ value, first value → (next value).Succeeds d post) :
    Succeeds d (action >>= next) post where
  keeps := haction.keeps.bind fun value hvalue => (hnext value hvalue).keeps
  returns := by
    intro world hready
    obtain ⟨value, after, heval, hvalue, hafter, -⟩ := haction.value hready
    rw [eval_bind_ok heval]
    exact (hnext value hvalue).returns after hafter

theorem andThen {action : Action α} {next : α → Action β} {post : β → Prop}
    (haction : action.Succeeds d any) (hnext : ∀ value, (next value).Succeeds d post) :
    Succeeds d (action >>= next) post :=
  haction.bind fun value _ => hnext value

theorem weaken {action : Action α} {post weaker : α → Prop} (haction : action.Succeeds d post)
    (himp : ∀ value, post value → weaker value) : action.Succeeds d weaker :=
  ⟨haction.keeps.weaken himp, haction.returns⟩

theorem forM {items : List α} {action : α → Action PUnit}
    (haction : ∀ item ∈ items, (action item).Succeeds d any) :
    Succeeds d (items.forM action) any := by
  induction items with
  | nil => exact Succeeds.pure trivial
  | cons item rest ih =>
    change Succeeds d (action item >>= fun _ => rest.forM action) any
    exact (haction item List.mem_cons_self).andThen fun _ =>
      ih fun item hitem => haction item (List.mem_cons_of_mem _ hitem)

/-- An action whose faults are failures of a stage ends with a value once they are caught. -/
theorem caught {action : Action α} {post : α → Prop} (haction : action.Keeps d post)
    (hfaults : ∀ fault, d.faults fault → Stage.isFailure fault = true) :
    (Stage.caught action).Succeeds d fun result => ∀ value, result = .ok value → post value where
  keeps := by
    unfold Stage.caught
    refine .handle (.map (haction.weaken fun value hvalue => ?_)) fun _ _ _ => .pure (by simp)
    rintro _ ⟨⟩
    exact hvalue
  returns := by
    intro world hready
    rw [Stage.eval_caught]
    rcases heval : action.eval d.host world with ⟨fault | value, after⟩
    · have hfailure := hfaults fault (haction.fault hready.here hready.inv heval)
      exact ⟨.error fault, by simp [hfailure]⟩
    · exact ⟨.ok value, rfl⟩

end Succeeds

end Action

section Telling

variable {d : Discipline} {run : Run} (htells : ∀ event, (run.events.append event).Succeeds d any)
  (hlog : d.AllowsLog)

include hlog in
theorem Run.log_succeeds (level : LogLevel) (event : String) (fields : Json.Fields) :
    (Run.log level event fields).Succeeds d any :=
  ⟨Run.log_keeps hlog level event fields, fun _ _ => ⟨(), rfl⟩⟩

include htells in
theorem Run.emit_succeeds (stage kind : String) (data : Json.Fields) :
    (run.emit stage kind data).Succeeds d any :=
  htells _

include htells hlog

namespace Stage

theorem begin_succeeds (stage : Stage) (position : Json) :
    (stage.begin run position).Succeeds d any := by
  unfold begin
  exact (Run.emit_succeeds htells _ _ _).andThen fun _ => Run.log_succeeds hlog _ _ _

theorem announce_succeeds (stage : Stage) (output : StageOutput) :
    (announce run stage output).Succeeds d any := by
  unfold announce
  refine .andThen (.forM fun warning _ => ?_) fun _ => ?_
  · exact (Run.emit_succeeds htells _ _ _).andThen fun _ => Run.log_succeeds hlog _ _ _
  dsimp only
  split
  · exact (Run.emit_succeeds htells _ _ _).andThen fun _ => Run.emit_succeeds htells _ _ _
  · exact Run.emit_succeeds htells _ _ _

theorem fail_succeeds (stage : Stage) (position : Json) (fault : Fault) (sofar : StageOutput) :
    (fail run stage position fault sofar).Succeeds d fun result =>
      result.stage = stage.name ∧ result.status = .failed := by
  unfold fail announceFailure
  refine .andThen ((Run.emit_succeeds htells _ _ _).andThen fun _ => Run.log_succeeds hlog _ _ _)
    fun _ => ?_
  exact .andThen (.read trivial) fun host => .pure ⟨rfl, rfl⟩

/-- Telling of a success does not fail. -/
theorem finish_succeeds (stage : Stage) (position : Json) (output : StageOutput) :
    (stage.finish run position output).Succeeds d fun result =>
      result.stage = stage.name ∧ result.status = .success := by
  have hannounce := announce_succeeds htells hlog stage output
  have hcaught : (caught (announce run stage output)).Succeeds d fun result => result = .ok () := by
    refine ⟨?_, fun world hready => ?_⟩
    · intro world hhere hinv
      obtain ⟨value, after, heval, -, hafter, hstep⟩ := hannounce.value ⟨hhere, hinv⟩
      rw [eval_caught, heval]
      exact ⟨hstep, hafter.here, rfl⟩
    · obtain ⟨value, after, heval, -⟩ := hannounce.value hready
      rw [eval_caught, heval]
      exact ⟨_, rfl⟩
  unfold finish
  refine hcaught.bind ?_
  rintro _ rfl
  refine .andThen (Run.log_succeeds hlog _ _ _) fun _ => ?_
  exact .andThen (.read trivial) fun host => .pure ⟨rfl, rfl⟩

theorem execute_succeeds (hfaults : ∀ fault, d.faults fault → isFailure fault = true) {stage : Stage}
    (hperform : (stage.perform run).Keeps d any) (position : Option String) :
    (stage.execute run position).Succeeds d fun result =>
      result.stage = stage.name ∧ (result.status = .success ∨ result.status = .failed) := by
  unfold execute
  refine (begin_succeeds htells hlog stage _).andThen fun _ => ?_
  refine .andThen (Action.Succeeds.caught hperform hfaults |>.weaken fun _ _ => trivial)
    fun result => ?_
  cases result with
  | error fault =>
    exact (fail_succeeds htells hlog _ _ _ _).weaken fun _ hresult => ⟨hresult.1, .inr hresult.2⟩
  | ok output =>
    exact (finish_succeeds htells hlog _ _ _).weaken fun _ hresult => ⟨hresult.1, .inl hresult.2⟩

end Stage

/-- The stages of a run never end it with a fault. -/
theorem Pipeline.executeFrom_succeeds
    (hfaults : ∀ fault, d.faults fault → Stage.isFailure fault = true) {stages : List Stage}
    (hperform : ∀ stage ∈ stages, (stage.perform run).Keeps d any) (total n : Nat) :
    (executeFrom run total n stages).Succeeds d (Settled stages) := by
  induction stages generalizing n with
  | nil => exact .pure .done
  | cons stage rest ih =>
    unfold executeFrom
    refine (Stage.execute_succeeds htells hlog hfaults (hperform stage List.mem_cons_self) _).bind
      fun result hresult => ?_
    obtain ⟨hname, hsuccess | hfailed⟩ := hresult
    · simp only [RunReport.hasFailed, hsuccess, reduceCtorEq, decide_false, Bool.false_eq_true,
        if_false]
      refine (ih (fun stage hstage => hperform stage (List.mem_cons_of_mem _ hstage)) (n + 1)).bind
        fun results hresults => .pure (.passed hname hsuccess hresults)
    · simp only [RunReport.hasFailed, hfailed, decide_true, if_true]
      exact (Run.log_succeeds hlog _ _ _).andThen fun _ => .pure (.failed hname hfailed)

end Telling

end JarRefinery
