import JarRefinery.Stage.Execution

/-!
# Ordinary faults

Every fault that the program throws by itself is a failure in the sense of its stages: a handler of
failures answers it. What asks the whole program to end can only come from outside.
-/

namespace JarRefinery

theorem ErrorCode.isA_exception (code : ErrorCode) : code.kind.isA .exception = true := by
  cases code <;> decide

theorem Archive.Flaw.isA_exception (flaw : Archive.Flaw) : flaw.kind.isA .exception = true := by
  cases flaw <;> rfl

theorem Gzip.Flaw.isA_exception (flaw : Gzip.Flaw) : flaw.kind.isA .exception = true := by
  cases flaw <;> rfl

theorem Fault.isFailure_ofFile (error : FileError) : Stage.isFailure (.ofFile error) = true := by
  rcases error with error | _
  · exact error.code.isA_exception
  · rfl

/-- A computation that fails with failures only. -/
def Ordinary {α : Type} (result : Except Fault α) : Prop :=
  ∀ fault, result = .error fault → Stage.isFailure fault = true

namespace Ordinary

variable {α β ε : Type}

theorem ok (value : α) : Ordinary (.ok value) := by
  intro fault heq
  simp at heq

theorem pure (value : α) : Ordinary (Pure.pure value) :=
  ok value

theorem error {fault : Fault} (hfault : Stage.isFailure fault = true) :
    Ordinary (.error fault : Except Fault α) := by
  intro other heq
  simp only [Except.error.injEq] at heq
  exact heq ▸ hfault

theorem bind {result : Except Fault α} {next : α → Except Fault β} (hresult : Ordinary result)
    (hnext : ∀ value, Ordinary (next value)) : Ordinary (result >>= next) := by
  cases result with
  | ok value => exact hnext value
  | error fault => exact error (hresult fault rfl)

theorem mapError {result : Except ε α} {fault : ε → Fault}
    (hfault : ∀ error, Stage.isFailure (fault error) = true) :
    Ordinary (result.mapError fault) := by
  cases result with
  | ok value => exact ok value
  | error flaw => exact error (hfault flaw)

theorem mapM {items : List α} {step : α → Except Fault β} (hstep : ∀ item, Ordinary (step item)) :
    Ordinary (items.mapM step) := by
  induction items with
  | nil => exact ok []
  | cons item rest ih =>
    rw [List.mapM_cons]
    exact (hstep item).bind fun first => ih.bind fun others => ok (first :: others)

end Ordinary

end JarRefinery
