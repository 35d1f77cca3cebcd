import JarRefinery.Proofs.Course

/-!
# Conditions

A condition on the world is followed through an action part by part. What keeps to a discipline
leaves a stable condition alone; handing on and calling a tool are what changes it.
-/

namespace JarRefinery

@[simp]
theorem Run.eval_handed (host : Host) (world : World) :
    Run.handed.eval host world = (.ok world.state, world) :=
  rfl

@[simp]
theorem Run.eval_hand (change : RunState → RunState) (host : Host) (world : World) :
    (Run.hand change).eval host world =
      (.ok (), { world with state := change world.state }) :=
  rfl

namespace Action

variable {α β : Type} {host : Host}

/-- From every world of which `pre` holds the action comes to a value and a world of which `post`
holds, or ends with a fault in a world of which `broken` holds. -/
structure Leads (host : Host) (pre : World → Prop) (action : Action α)
    (post : α → World → Prop) (broken : World → Prop) : Prop where
  value : ∀ {world after value}, pre world → action.eval host world = (.ok value, after) →
    post value after
  fault : ∀ {world after fault}, pre world → action.eval host world = (.error fault, after) →
    broken after

namespace Leads

variable {pre : World → Prop} {post : α → World → Prop} {broken : World → Prop}

theorem pure {value : α} (hpost : ∀ world, pre world → post value world) :
    Leads host pre (Pure.pure value) post broken where
  value := by
    intro world after _ hpre heval
    simp only [eval_pure, Prod.mk.injEq, Except.ok.injEq] at heval
    obtain ⟨rfl, rfl⟩ := heval
    exact hpost world hpre
  fault := by
    intro world after fault _ heval
    simp at heval

theorem throw {fault : Fault} (hbroken : ∀ world, pre world → broken world) :
    Leads host pre (MonadExcept.throw fault : Action α) post broken where
  value := by
    intro world after value _ heval
    simp at heval
  fault := by
    intro world after _ hpre heval
    simp only [eval_throw, Prod.mk.injEq] at heval
    exact heval.2 ▸ hbroken world hpre

theorem bind {action : Action α} {next : α → Action β} {last : β → World → Prop}
    (haction : Leads host pre action post broken)
    (hnext : ∀ value, Leads host (post value) (next value) last broken) :
    Leads host pre (action >>= next) last broken where
  value := by
    intro world after value hpre heval
    obtain ⟨first, middle, hfirst, hrest⟩ := of_eval_bind_ok heval
    exact (hnext first).value (haction.value hpre hfirst) hrest
  fault := by
    intro world after fault hpre heval
    rw [eval_bind] at heval
    rcases hfirst : action.eval host world with ⟨other | first, middle⟩
    · rw [hfirst] at heval
      obtain ⟨-, rfl⟩ : other = fault ∧ middle = after := by simpa using heval
      exact haction.fault hpre hfirst
    · rw [hfirst] at heval
      exact (hnext first).fault (haction.value hpre hfirst) heval

theorem weaken {action : Action α} {stronger : World → Prop} {weaker : α → World → Prop}
    (haction : Leads host pre action post broken)
    (hpre : ∀ world, stronger world → pre world)
    (hpost : ∀ value world, post value world → weaker value world) :
    Leads host stronger action weaker broken where
  value hworld heval := hpost _ _ (haction.value (hpre _ hworld) heval)
  fault hworld heval := haction.fault (hpre _ hworld) heval

/-- A fact that does not depend on the world is known throughout. -/
theorem known {action : Action α} {fact : Prop}
    (haction : fact → Leads host pre action post broken) :
    Leads host (fun world => fact ∧ pre world) action post broken where
  value hpre heval := (haction hpre.1).value hpre.2 heval
  fault hpre heval := (haction hpre.1).fault hpre.2 heval

theorem given {action : Action α} {fact : Prop} (hfact : ∀ world, pre world → fact)
    (haction : fact → Leads host pre action post broken) :
    Leads host pre action post broken where
  value hpre heval := (haction (hfact _ hpre)).value hpre heval
  fault hpre heval := (haction (hfact _ hpre)).fault hpre heval

/-- What keeps to a discipline leaves a stable condition alone. -/
theorem keeps {d : Discipline} {action : Action α} {gives : α → Prop}
    (hkeeps : action.Keeps d gives) (hready : ∀ world, pre world → d.Ready world)
    (hstable : d.Stable pre) (hbroken : ∀ world, pre world → broken world) :
    Leads d.host pre action (fun value world => gives value ∧ pre world) broken where
  value := by
    intro world after value hpre heval
    have hafter := hstable.after hkeeps (hready world hpre) hpre
    rw [heval] at hafter
    exact ⟨hkeeps.value (hready world hpre).here (hready world hpre).inv heval, hafter⟩
  fault := by
    intro world after fault hpre heval
    have hafter := hstable.after hkeeps (hready world hpre) hpre
    rw [heval] at hafter
    exact hbroken _ hafter

theorem handed : Leads host pre Run.handed (fun state world => world.state = state ∧ pre world)
    broken where
  value := by
    intro world after state hpre heval
    simp only [Run.eval_handed, Prod.mk.injEq, Except.ok.injEq] at heval
    obtain ⟨rfl, rfl⟩ := heval
    exact ⟨rfl, hpre⟩
  fault := by
    intro world after fault _ heval
    simp at heval

theorem hand {change : RunState → RunState} {last : World → Prop}
    (hlast : ∀ world, pre world → last { world with state := change world.state }) :
    Leads host pre (Run.hand change) (fun _ => last) broken where
  value := by
    intro world after _ hpre heval
    simp only [Run.eval_hand, Prod.mk.injEq] at heval
    exact heval.2 ▸ hlast world hpre
  fault := by
    intro world after fault _ heval
    simp at heval

theorem refuse {so : Bool} {fault : Fault} (hbroken : ∀ world, pre world → broken world) :
    Leads host pre (Action.refuse so fault) (fun _ => pre) broken := by
  cases so with
  | false => exact .pure fun _ hpre => hpre
  | true => exact .throw hbroken

/-- What a stage leads to is what performing it makes of a condition. -/
theorem performed {d : Discipline} {action : Action StageOutput} {last broken : World → Prop}
    (haction : Leads d.host pre action (fun _ => last) broken)
    (hlast : ∀ world, last world → d.Ready world) (hbroken : ∀ world, broken world → d.Ready world)
    {world : World} (hpre : pre world) : Performed d last broken (action.eval d.host world) := by
  rcases heval : action.eval d.host world with ⟨fault | output, after⟩
  · exact ⟨hbroken _ (haction.fault hpre heval), by simp, fun _ _ => haction.fault hpre heval⟩
  · exact ⟨hlast _ (haction.value hpre heval), fun _ _ => haction.value hpre heval, by simp⟩

end Leads

end Action

end JarRefinery
