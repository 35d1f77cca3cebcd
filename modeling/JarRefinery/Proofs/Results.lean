import Mathlib.Data.List.Forall2

/-!
# Results

What a computation that may fail comes to is made of what its parts come to.
-/

namespace JarRefinery.Result

variable {ε α β : Type}

theorem bind_eq_ok {result : Except ε α} {next : α → Except ε β} {value : β} :
    (result >>= next) = .ok value ↔ ∃ middle, result = .ok middle ∧ next middle = .ok value := by
  cases result with
  | error flaw => simp [bind, Except.bind]
  | ok middle => simp [bind, Except.bind]

/-- What comes to a value was not refused before. -/
theorem of_guard_eq_ok {so : Prop} [Decidable so] {flaw : ε} {next : PUnit → Except ε β} {value : β}
    (hvalue : (if so then throw flaw >>= next else next ⟨⟩) = .ok value) :
    ¬so ∧ next ⟨⟩ = .ok value := by
  split at hvalue
  · cases hvalue
  · rename_i hnot
    exact ⟨hnot, hvalue⟩

theorem of_ite_bind_eq_ok {so : Prop} [Decidable so] {first second : Except ε α}
    {next : α → Except ε β} {value : β}
    (hvalue : (if so then first >>= next else second >>= next) = .ok value) :
    ∃ middle, (if so then first else second) = .ok middle ∧ next middle = .ok value := by
  rw [← bind_eq_ok]
  by_cases hso : so
  · simpa only [if_pos hso] using hvalue
  · simpa only [if_neg hso] using hvalue

/-- A list comes to the values that its items come to, in their order. -/
theorem mapM_eq_ok {items : List α} {step : α → Except ε β} {values : List β} :
    items.mapM step = .ok values ↔
      List.Forall₂ (fun item value => step item = .ok value) items values := by
  induction items generalizing values with
  | nil => simp [pure, Except.pure, eq_comm]
  | cons item rest ih =>
    simp only [List.mapM_cons, bind_eq_ok, ih, pure, Except.pure, Except.ok.injEq]
    constructor
    · rintro ⟨first, hfirst, others, hothers, rfl⟩
      exact .cons hfirst hothers
    · rintro (_ | ⟨hfirst, hothers⟩)
      exact ⟨_, hfirst, _, hothers, rfl⟩

/-- Each of the values comes from one of the items. -/
theorem exists_item {from_ : α → β → Prop} {items : List α} {values : List β}
    (hall : List.Forall₂ from_ items values) {value : β} (hmem : value ∈ values) :
    ∃ item ∈ items, from_ item value := by
  induction hall with
  | nil => cases hmem
  | cons hfirst _ ih =>
    rcases List.mem_cons.mp hmem with rfl | hrest
    · exact ⟨_, List.mem_cons_self, hfirst⟩
    · obtain ⟨item, hitem, hfrom⟩ := ih hrest
      exact ⟨item, List.mem_cons_of_mem _ hitem, hfrom⟩

/-! ### What may go wrong -/

/-- The computation fails only in this way. -/
def Fails (post : ε → Prop) (result : Except ε α) : Prop :=
  ∀ flaw, result = .error flaw → post flaw

namespace Fails

variable {post : ε → Prop}

theorem ok (value : α) : Fails post (.ok value) := by
  rintro flaw ⟨⟩

theorem error {flaw : ε} (hpost : post flaw) : Fails post (.error flaw : Except ε α) := by
  rintro _ ⟨⟩
  exact hpost

theorem weaken {weaker : ε → Prop} {result : Except ε α} (hresult : Fails post result)
    (hweaker : ∀ flaw, post flaw → weaker flaw) : Fails weaker result :=
  fun flaw hflaw => hweaker flaw (hresult flaw hflaw)

theorem bind {result : Except ε α} {next : α → Except ε β} (hresult : Fails post result)
    (hnext : ∀ value, result = .ok value → Fails post (next value)) : Fails post (result >>= next) := by
  cases result with
  | ok value => exact hnext value rfl
  | error flaw => exact error (hresult flaw rfl)

theorem map {change : α → β} {result : Except ε α} (hresult : Fails post result) :
    Fails post (result.map change) := by
  cases result with
  | ok value => exact ok (change value)
  | error flaw => exact error (hresult flaw rfl)

theorem guard {so : Prop} [Decidable so] {flaw : ε} {next : PUnit → Except ε β}
    (hflaw : so → post flaw) (hnext : ¬so → Fails post (next ⟨⟩)) :
    Fails post (if so then throw flaw >>= next else next ⟨⟩) := by
  split
  · rename_i hso
    exact error (hflaw hso)
  · rename_i hnot
    exact hnext hnot

theorem ite_bind {so : Prop} [Decidable so] {first second : Except ε α} {next : α → Except ε β}
    (hfirst : Fails post first) (hsecond : Fails post second) (hnext : ∀ value, Fails post (next value)) :
    Fails post (if so then first >>= next else second >>= next) := by
  split
  · exact hfirst.bind fun value _ => hnext value
  · exact hsecond.bind fun value _ => hnext value

theorem mapM {items : List α} {step : α → Except ε β} (hstep : ∀ item ∈ items, Fails post (step item)) :
    Fails post (items.mapM step) := by
  induction items with
  | nil => exact ok []
  | cons item rest ih =>
    rw [List.mapM_cons]
    refine (hstep item List.mem_cons_self).bind fun first _ => ?_
    refine (ih fun other hother => hstep other (List.mem_cons_of_mem _ hother)).bind fun others _ => ?_
    exact ok (first :: others)

end Fails

end JarRefinery.Result
