import JarRefinery.Proofs.Faults
import JarRefinery.Proofs.Files.Operations

/-!
# Disciplines

A discipline says what may become of the world while an operation works, and with which faults it may
end: a relation between worlds that holds of no change and of one change after another, and an
invariant that such changes keep. An operation keeps to a discipline as soon as its parts do, so one
lemma for each operation serves every discipline that allows what the operation does.
-/

namespace JarRefinery

structure Discipline where
  host : Host
  here : Location
  inv : World → Prop
  step : World → World → Prop
  faults : Fault → Prop
  refl : ∀ world, step world world
  trans : ∀ {first second third : World}, step first second → step second third →
    step first third
  keep : ∀ {before after : World}, step before after → inv before → inv after
  /-- The faults that the program itself throws are never ruled out. -/
  ordinary : ∀ fault, Stage.isFailure fault = true → faults fault

namespace Discipline

/-- Files may change within the footprint. -/
def AllowsFiles (d : Discipline) (footprint : Footprint) : Prop :=
  ∀ world files, world.files.here = d.here → d.inv world → files.here = d.here →
    (".." ∉ d.here → Change footprint world.files files) → d.step world { world with files }

/-- Addresses may be asked for. -/
structure AllowsRequests (d : Discipline) : Prop where
  ask : ∀ world address, d.step world { world with requests := world.requests ++ [address] }
  failure : ∀ past address fault, d.host.network past address = .failure fault → d.faults fault
  broken : ∀ past address status location body fault,
    d.host.network past address = .response status location body (some fault) → d.faults fault

/-- Addresses may be asked for, and attempts waited for. -/
structure AllowsNetwork (d : Discipline) : Prop extends AllowsRequests d where
  wait : ∀ world milliseconds, d.step world { world with waits := world.waits ++ [milliseconds] }

/-- What a world is after a call of a tool. -/
def called (d : Discipline) (call : ToolCall) (world : World) : World :=
  { world with
    files := { (d.host.tools world.calls call world.files).2 with here := world.files.here }
    calls := world.calls ++ [call] }

def AllowsCall (d : Discipline) (call : ToolCall) : Prop :=
  ∀ world, world.files.here = d.here → d.inv world → d.step world (d.called call world)

/-- What is handed on to later stages may change so. -/
def AllowsHand (d : Discipline) (change : RunState → RunState) : Prop :=
  ∀ world, d.inv world → d.step world { world with state := change world.state }

def AllowsLog (d : Discipline) : Prop :=
  ∀ world record, d.step world { world with log := world.log ++ [record] }

theorem AllowsFiles.mono {d : Discipline} {small large : Footprint}
    (hallows : d.AllowsFiles large) (hle : ".." ∉ d.here → small ≤ large) : d.AllowsFiles small :=
  fun world files hbefore hinv hafter hchange =>
    hallows world files hbefore hinv hafter fun hrooted => (hchange hrooted).mono (hle hrooted)

end Discipline

namespace Action

variable {α β : Type} {d : Discipline}

/-- The action keeps to the discipline, and `post` holds of the value that it may end with. -/
def Keeps (d : Discipline) (action : Action α) (post : α → Prop) : Prop :=
  ∀ world, world.files.here = d.here → d.inv world →
    d.step world (action.eval d.host world).2 ∧
      (action.eval d.host world).2.files.here = d.here ∧
      match (action.eval d.host world).1 with
      | .ok value => post value
      | .error fault => d.faults fault

/-- The condition that holds of all values. -/
def any (_ : α) : Prop :=
  True

namespace Keeps

theorem step {action : Action α} {post : α → Prop} (hkeeps : action.Keeps d post) {world : World}
    (hhere : world.files.here = d.here) (hinv : d.inv world) : d.step world (action.eval d.host world).2 :=
  (hkeeps world hhere hinv).1

theorem here {action : Action α} {post : α → Prop} (hkeeps : action.Keeps d post) {world : World}
    (hhere : world.files.here = d.here) (hinv : d.inv world) : (action.eval d.host world).2.files.here = d.here :=
  (hkeeps world hhere hinv).2.1

theorem value {action : Action α} {post : α → Prop} (hkeeps : action.Keeps d post)
    {world after : World} {value : α} (hhere : world.files.here = d.here)
    (hinv : d.inv world) (heval : action.eval d.host world = (.ok value, after)) : post value := by
  simpa [heval] using (hkeeps world hhere hinv).2.2

theorem fault {action : Action α} {post : α → Prop} (hkeeps : action.Keeps d post)
    {world after : World} {fault : Fault} (hhere : world.files.here = d.here)
    (hinv : d.inv world) (heval : action.eval d.host world = (.error fault, after)) : d.faults fault := by
  simpa [heval] using (hkeeps world hhere hinv).2.2

theorem weaken {action : Action α} {post weaker : α → Prop} (hkeeps : action.Keeps d post)
    (himp : ∀ value, post value → weaker value) : action.Keeps d weaker := by
  intro world hhere hinv
  obtain ⟨hstep, hafter, hresult⟩ := hkeeps world hhere hinv
  refine ⟨hstep, hafter, ?_⟩
  cases hvalue : (action.eval d.host world).1 with
  | ok value => exact himp value (by simpa [hvalue] using hresult)
  | error fault => simpa [hvalue] using hresult

theorem anyway {action : Action α} {post : α → Prop} (hkeeps : action.Keeps d post) :
    action.Keeps d any :=
  hkeeps.weaken fun _ _ => trivial

theorem pure {value : α} {post : α → Prop} (hpost : post value) :
    Keeps d (Pure.pure value) post :=
  fun world hhere _ => ⟨d.refl world, hhere, hpost⟩

theorem throw {fault : Fault} {post : α → Prop} (hfault : d.faults fault) :
    Keeps d (MonadExcept.throw fault : Action α) post :=
  fun world hhere _ => ⟨d.refl world, hhere, hfault⟩

theorem bind {action : Action α} {next : α → Action β} {first : α → Prop} {post : β → Prop}
    (haction : action.Keeps d first) (hnext : ∀ value, first value → (next value).Keeps d post) :
    Keeps d (action >>= next) post := by
  intro world hhere hinv
  obtain ⟨hstep, hmiddle, hresult⟩ := haction world hhere hinv
  rw [eval_bind]
  rcases heval : action.eval d.host world with ⟨fault | value, middle⟩
  · rw [heval] at hstep hmiddle hresult
    exact ⟨hstep, hmiddle, hresult⟩
  · rw [heval] at hstep hmiddle hresult
    obtain ⟨hstep', hafter, hresult'⟩ := hnext value hresult middle hmiddle (d.keep hstep hinv)
    exact ⟨d.trans hstep hstep', hafter, hresult'⟩

/-- The value of the first part does not matter. -/
theorem andThen {action : Action α} {next : α → Action β} {post : β → Prop}
    (haction : action.Keeps d any) (hnext : ∀ value, (next value).Keeps d post) :
    Keeps d (action >>= next) post :=
  haction.bind fun value _ => hnext value

theorem refuse {so : Bool} {fault : Fault} (hfault : so = true → d.faults fault) :
    Keeps d (Action.refuse so fault) fun _ => so = false := by
  cases so with
  | false => exact Keeps.pure rfl
  | true => exact Keeps.throw (hfault rfl)

theorem map {action : Action α} {change : α → β} {post : β → Prop}
    (haction : action.Keeps d fun value => post (change value)) :
    Keeps d (change <$> action) post := by
  rw [map_eq_pure_bind]
  exact haction.bind fun value hvalue => Keeps.pure hvalue

theorem get {post : World → Prop} (hpost : ∀ world, world.files.here = d.here → d.inv world → post world) :
    Keeps d (MonadState.get : Action World) post :=
  fun world hhere hinv => ⟨d.refl world, hhere, hpost world hhere hinv⟩

theorem read {post : Host → Prop} (hpost : post d.host) :
    Keeps d (MonadReader.read : Action Host) post :=
  fun world hhere _ => ⟨d.refl world, hhere, hpost⟩

theorem modify {change : World → World}
    (hchange : ∀ world, world.files.here = d.here → d.inv world →
      d.step world (change world) ∧ (change world).files.here = d.here) :
    Keeps d (modify change : Action PUnit) any :=
  fun world hhere hinv => ⟨(hchange world hhere hinv).1, (hchange world hhere hinv).2, trivial⟩

theorem onFiles {operation : FileTree.Action α} {footprint : Footprint} {post : α → Prop}
    (hallows : d.AllowsFiles footprint)
    (hchange : ∀ tree, tree.here = d.here →
      (operation.eval tree).2.here = d.here ∧
        (".." ∉ d.here → Change footprint tree (operation.eval tree).2))
    (hpost : ∀ tree value after, tree.here = d.here → operation.eval tree = (.ok value, after) →
      post value) :
    Keeps d (Action.onFiles operation) post := by
  intro world hhere hinv
  rw [eval_onFiles]
  obtain ⟨hafter, hchange⟩ := hchange world.files hhere
  refine ⟨hallows world _ hhere hinv hafter hchange, hafter, ?_⟩
  rcases heval : operation.eval world.files with ⟨error | value, after⟩
  · exact d.ordinary _ (Fault.isFailure_ofFile error)
  · exact hpost world.files value after hhere heval

/-- An operation whose footprint the discipline allows. -/
theorem change {operation : FileTree.Action α} {footprint : Footprint}
    (hallows : d.AllowsFiles footprint)
    (hchange : ∀ tree, tree.here = d.here → Change footprint tree (operation.eval tree).2) :
    Keeps d (Action.onFiles operation) any :=
  .onFiles hallows
    (fun tree hhere => ⟨(hchange tree hhere).here.trans hhere, fun _ => hchange tree hhere⟩)
    fun _ _ _ _ _ => trivial

/-- Operations that only look at the files need no permission. -/
theorem look {operation : FileTree.Action α} {post : α → Prop}
    (hsame : ∀ tree, (operation.eval tree).2 = tree)
    (hpost : ∀ tree value, tree.here = d.here → (operation.eval tree).1 = .ok value →
      post value) :
    Keeps d (Action.onFiles operation) post := by
  intro world hhere hinv
  rw [eval_onFiles, hsame]
  refine ⟨d.refl world, hhere, ?_⟩
  rcases heval : (operation.eval world.files).1 with error | value
  · exact d.ordinary _ (Fault.isFailure_ofFile error)
  · exact hpost world.files value hhere heval

theorem handle {answers : Fault → Bool} {handler : Fault → Action α} {action : Action α}
    {post : α → Prop} (haction : action.Keeps d post)
    (hhandler : ∀ fault, answers fault = true → d.faults fault → (handler fault).Keeps d post) :
    Keeps d (action.handle answers handler) post := by
  intro world hhere hinv
  obtain ⟨hstep, hmiddle, hresult⟩ := haction world hhere hinv
  rw [eval_handle]
  rcases heval : action.eval d.host world with ⟨fault | value, middle⟩
  · rw [heval] at hstep hmiddle hresult
    cases hanswers : answers fault with
    | false => exact ⟨by simpa [hanswers] using hstep, by simpa [hanswers] using hmiddle,
        by simpa [hanswers] using hresult⟩
    | true =>
      obtain ⟨hstep', hafter, hresult'⟩ := hhandler fault hanswers hresult middle hmiddle
        (d.keep hstep hinv)
      simp only [hanswers, if_true]
      exact ⟨d.trans hstep hstep', hafter, hresult'⟩
  · rw [heval] at hstep hmiddle hresult
    exact ⟨hstep, hmiddle, hresult⟩

theorem explain {answers : Fault → Bool} {outer : Fault → Fault} {action : Action α}
    {post : α → Prop} (haction : action.Keeps d post)
    (houter : ∀ fault, Stage.isFailure (outer fault) = true) :
    Keeps d (action.explain answers outer) post :=
  haction.handle fun fault _ _ => Keeps.throw (d.ordinary _ (houter fault))

theorem outcome {action : Action α} {post : α → Prop} (haction : action.Keeps d post) :
    Keeps d action.outcome fun result =>
      match result with
      | .ok value => post value
      | .error fault => d.faults fault := by
  intro world hhere hinv
  rw [eval_outcome]
  exact haction world hhere hinv

theorem ofExcept {ε : Type} {fault : ε → Fault} {result : Except ε α} {post : α → Prop}
    (hfault : ∀ error, result = .error error → Stage.isFailure (fault error) = true)
    (hpost : ∀ value, result = .ok value → post value) :
    Keeps d (Action.ofExcept fault result) post := by
  cases result with
  | ok value => exact Keeps.pure (hpost value rfl)
  | error error => exact Keeps.throw (d.ordinary _ (hfault error rfl))

theorem ofResult {result : Except Fault α} {post : α → Prop}
    (hfault : ∀ fault, result = .error fault → d.faults fault)
    (hpost : ∀ value, result = .ok value → post value) :
    Keeps d (Action.ofResult result) post := by
  cases result with
  | ok value => exact Keeps.pure (hpost value rfl)
  | error fault => exact Keeps.throw (hfault fault rfl)

theorem ofOrdinary {result : Except Fault α} (hresult : Ordinary result) :
    Keeps d (Action.ofResult result) any :=
  .ofResult (fun fault hfault => d.ordinary fault (hresult fault hfault)) fun _ _ => trivial

/-- Each value comes from the item that stands at its place. -/
theorem mapM {items : List α} {action : α → Action β} {post : α → β → Prop}
    (haction : ∀ item ∈ items, (action item).Keeps d (post item)) :
    Keeps d (items.mapM action) (List.Forall₂ post items) := by
  induction items with
  | nil => exact Keeps.pure .nil
  | cons item rest ih =>
    rw [List.mapM_cons]
    refine (haction item List.mem_cons_self).bind fun first hfirst => ?_
    refine (ih fun item hitem => haction item (List.mem_cons_of_mem _ hitem)).bind
      fun others hothers => Keeps.pure ?_
    exact .cons hfirst hothers

theorem forM {items : List α} {action : α → Action PUnit}
    (haction : ∀ item ∈ items, (action item).Keeps d any) :
    Keeps d (items.forM action) any := by
  induction items with
  | nil => exact Keeps.pure trivial
  | cons item rest ih =>
    change Keeps d (action item >>= fun _ => rest.forM action) any
    exact (haction item List.mem_cons_self).bind fun _ _ =>
      ih fun item hitem => haction item (List.mem_cons_of_mem _ hitem)

end Keeps

end Action

end JarRefinery
