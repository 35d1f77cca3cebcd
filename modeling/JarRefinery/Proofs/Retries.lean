import Mathlib
import JarRefinery.Proofs.Fetching

/-!
# Retries

The attempts of a fetch as a sequence: each begins in the world that the one before it left, after a
wait that doubles up to four seconds. The fetch ends as the first attempt that is not retried, if that
is not one too many, and otherwise with the fault of the last one that it may make.
-/

namespace JarRefinery.Http

variable {α : Type} (host : Host) (url : String) (use : Response → Action α) (world : World)

/-! ### The attempts in a row -/

/-- The world in which attempt `n` begins, counted from zero, if all before it are retried. -/
def start : (n : Nat) → World
  | 0 => world
  | n + 1 =>
    let left := ((attempt url use).eval host (start n)).2
    { left with waits := left.waits ++ [min (500 * 2 ^ n) 4000] }

/-- How attempt `n` ends. -/
def tried (n : Nat) : Except Fault α × World :=
  (attempt url use).eval host (start host url use world n)

/-- The attempt ended with a failure of the transport or an answer that may be better next time. -/
def Retried (ending : Except Fault α × World) : Prop :=
  ∃ fault, ending.1 = .error fault ∧ isRetried fault = true

variable {host url use world}

theorem start_succ (n : Nat) :
    start host url use world (n + 1) =
      { (tried host url use world n).2 with
        waits := (tried host url use world n).2.waits ++ [waitAfter (n + 1)] } := by
  have hwait : waitAfter (n + 1) = min (500 * 2 ^ n) 4000 := Nat.min_comm _ _
  rw [hwait]
  rfl

/-- An attempt that is retried and not the last one is followed by a wait and the next one. -/
theorem attemptsFrom_retried {left n : Nat} (hretried : Retried (tried host url use world n)) :
    (attemptsFrom url use (left + 1) (n + 1)).eval host (start host url use world n) =
      (attemptsFrom url use left (n + 2)).eval host (start host url use world (n + 1)) := by
  obtain ⟨fault, hfault, hisRetried⟩ := hretried
  have htried : (attempt url use).eval host (start host url use world n) =
      (.error fault, (tried host url use world n).2) := Prod.ext hfault rfl
  rw [attemptsFrom, Action.eval_handle, htried]
  simp only [hisRetried, if_true]
  rw [start_succ]
  rfl

/-- An attempt that is not retried ends the row. -/
theorem attemptsFrom_settled {n : Nat} (hsettled : ¬Retried (tried host url use world n))
    (left : Nat) :
    (attemptsFrom url use left (n + 1)).eval host (start host url use world n) =
      tried host url use world n := by
  have hhandled : ∀ handler : Fault → Action α,
      ((attempt url use).handle isRetried handler).eval host (start host url use world n) =
        tried host url use world n := by
    intro handler
    rw [Action.eval_handle]
    rcases htried : (attempt url use).eval host (start host url use world n) with
      ⟨fault | value, after⟩
    · have hnot : ¬isRetried fault = true := fun hretried =>
        hsettled ⟨fault, congrArg Prod.fst htried, hretried⟩
      simp only [hnot]
      exact htried.symm
    · exact htried.symm
  cases left with
  | zero => exact hhandled _
  | succ left => exact hhandled _

/-- The row ends as its first attempt that is not retried. -/
theorem attemptsFrom_eq_tried {left n k : Nat} (hfrom : n ≤ k) (hto : k ≤ n + left)
    (hretried : ∀ i, n ≤ i → i < k → Retried (tried host url use world i))
    (hsettled : ¬Retried (tried host url use world k)) :
    (attemptsFrom url use left (n + 1)).eval host (start host url use world n) =
      tried host url use world k := by
  induction left generalizing n with
  | zero =>
    obtain rfl : n = k := by omega
    exact attemptsFrom_settled hsettled 0
  | succ left ih =>
    by_cases hlast : n = k
    · subst hlast
      exact attemptsFrom_settled hsettled (left + 1)
    · rw [attemptsFrom_retried (hretried n (Nat.le_refl n) (by omega))]
      exact ih (by omega) (by omega) fun i hi => hretried i (by omega)

/-- A row that is retried to its end ends with the fault of its last attempt. -/
theorem attemptsFrom_exhausted {left n : Nat}
    (hretried : ∀ i, n ≤ i → i ≤ n + left → Retried (tried host url use world i)) :
    ∃ fault, (tried host url use world (n + left)).1 = .error fault ∧
      (attemptsFrom url use left (n + 1)).eval host (start host url use world n) =
        (.error (.retriesExceeded url (n + left + 1) fault),
          (tried host url use world (n + left)).2) := by
  induction left generalizing n with
  | zero =>
    obtain ⟨fault, hfault, hisRetried⟩ := hretried n (Nat.le_refl n) (Nat.le_refl n)
    refine ⟨fault, hfault, ?_⟩
    have htried : (attempt url use).eval host (start host url use world n) =
        (.error fault, (tried host url use world n).2) := Prod.ext hfault rfl
    rw [attemptsFrom, Action.eval_handle, htried]
    simp only [hisRetried, if_true]
    rfl
  | succ left ih =>
    obtain ⟨fault, hfault, heval⟩ := ih (n := n + 1) fun i hi hle => hretried i (by omega) (by omega)
    rw [attemptsFrom_retried (hretried n (Nat.le_refl n) (by omega)), heval,
      show n + (left + 1) = n + 1 + left by omega]
    exact ⟨fault, hfault, rfl⟩

/-- A fetch ends as its first attempt that is not retried, or all that it may make are. -/
theorem fetch_cases (maxAttempts : Int) :
    (∃ k ≤ (maxAttempts - 1).toNat, (∀ i < k, Retried (tried host url use world i)) ∧
      ¬Retried (tried host url use world k) ∧
      (fetch maxAttempts url use).eval host world = tried host url use world k) ∨
    (∀ i ≤ (maxAttempts - 1).toNat, Retried (tried host url use world i)) ∧
      ∃ fault, (fetch maxAttempts url use).eval host world =
        (.error (.retriesExceeded url ((maxAttempts - 1).toNat + 1) fault),
          (tried host url use world (maxAttempts - 1).toNat).2) := by
  classical
  by_cases hall : ∀ i ≤ (maxAttempts - 1).toNat, Retried (tried host url use world i)
  · obtain ⟨fault, -, hexhausted⟩ := @attemptsFrom_exhausted _ host url use world
      (maxAttempts - 1).toNat 0 fun i _ hle => hall i (by omega)
    simp only [Nat.zero_add] at hexhausted
    exact .inr ⟨hall, fault, hexhausted⟩
  · have hsome : ∃ k, k ≤ (maxAttempts - 1).toNat ∧ ¬Retried (tried host url use world k) := by
      simpa using hall
    obtain ⟨hle, hsettled⟩ := Nat.find_spec hsome
    have hretried : ∀ i < Nat.find hsome, Retried (tried host url use world i) :=
      fun i hi => by_contra fun hnot => Nat.find_min hsome hi ⟨by omega, hnot⟩
    exact .inl ⟨_, hle, hretried, hsettled, attemptsFrom_eq_tried (Nat.zero_le _) (by omega)
      (fun i _ => hretried i) hsettled⟩

/-! ### How an attempt ends -/

/-- The endings of an attempt that begins in `before`: the request fails, the answer is handed on,
may be better next time, or is final; the body of a final answer may break off while it is read. -/
inductive Attempted (host : Host) (url : String) (use : Response → Action α) (before : World) :
    Except Fault α × World → Prop
  | unsent {fault : Fault} {after : World} :
    (open_ url).eval host before = (.error fault, after) →
      Attempted host url use before (.error fault, after)
  | used {response : Response} {opened : World} :
    (open_ url).eval host before = (.ok response, opened) → response.status = 200 →
      Attempted host url use before ((use response).eval host opened)
  | transient {response : Response} {opened : World} :
    (open_ url).eval host before = (.ok response, opened) → response.status ≠ 200 →
      response.status ∈ transientStatuses →
        Attempted host url use before (.error (.transientStatus response.status), opened)
  | final {response : Response} {opened : World} :
    (open_ url).eval host before = (.ok response, opened) → response.status ≠ 200 →
      response.status ∉ transientStatuses → response.fault = none →
        Attempted host url use before (.error (.badStatus url response.status
          (Text.strip (Text.Utf8.decodeReplacing (response.body.take shownBytes)))), opened)
  | broken {response : Response} {opened : World} {fault : Fault} :
    (open_ url).eval host before = (.ok response, opened) → response.status ≠ 200 →
      response.status ∉ transientStatuses → response.fault = some fault →
        Attempted host url use before (.error fault, opened)

variable (host url use) in
theorem attempt_attempted (before : World) :
    Attempted host url use before ((attempt url use).eval host before) := by
  unfold attempt
  rw [Action.eval_bind]
  rcases hopen : (open_ url).eval host before with ⟨fault | response, opened⟩
  · exact .unsent hopen
  dsimp only
  rw [Action.eval_bind]
  unfold checkStatus
  by_cases hplain : response.status = 200
  · rw [if_pos hplain]
    exact .used hopen hplain
  rw [if_neg hplain]
  by_cases htransient : response.status ∈ transientStatuses
  · rw [if_pos (List.contains_iff_mem.mpr htransient)]
    exact .transient hopen hplain htransient
  rw [if_neg (by simpa using htransient), Action.eval_bind]
  unfold Response.read
  cases hfault : response.fault with
  | none => exact .final hopen hplain htransient hfault
  | some fault => exact .broken hopen hplain htransient hfault

/-! ### What attempts leave -/

/-- The waits stay as they are. -/
def prompt (host : Host) (here : Location) : Discipline where
  host := host
  here := here
  inv := fun _ => True
  step := fun before after => after.waits = before.waits
  faults := fun _ => True
  refl := fun _ => rfl
  trans := fun hfirst hsecond => hsecond.trans hfirst
  keep := fun _ _ => trivial
  ordinary := fun _ _ => trivial

theorem prompt_allowsRequests (here : Location) : (prompt host here).AllowsRequests where
  ask := fun _ _ => rfl
  failure := fun _ _ _ _ => trivial
  broken := fun _ _ _ _ _ _ _ => trivial

/-- An attempt waits only if the use of its answer does. -/
theorem Attempted.waits {before : World} {ending : Except Fault α × World}
    (hquiet : ∀ response world, ((use response).eval host world).2.waits = world.waits)
    (hattempted : Attempted host url use before ending) : ending.2.waits = before.waits := by
  have hopen : ((open_ url).eval host before).2.waits = before.waits :=
    (open_keeps (prompt_allowsRequests before.files.here) url).step rfl trivial
  cases hattempted with
  | unsent heval => rwa [heval] at hopen
  | used heval =>
    rw [heval] at hopen
    exact (hquiet _ _).trans hopen
  | transient heval => rwa [heval] at hopen
  | final heval => rwa [heval] at hopen
  | broken heval => rwa [heval] at hopen

/-- `retries` attempts that are retried and one more left this: if nothing else waits, one wait for
each retry, and if every attempt asks once, for the same address, one request for each attempt. -/
structure Made (host : Host) (url : String) (use : Response → Action α) (before : World)
    (retries : Nat) (after : World) : Prop where
  waits : (∀ response world, ((use response).eval host world).2.waits = world.waits) →
    after.waits = before.waits ++ (List.range retries).map fun i => min (500 * 2 ^ i) 4000
  requests : ∀ address,
    (∀ world, ((attempt url use).eval host world).2.requests = world.requests ++ [address]) →
      after.requests = before.requests ++ List.replicate (retries + 1) address

variable (host url use world) in
theorem tried_made (k : Nat) : Made host url use world k (tried host url use world k).2 where
  waits := by
    intro hquiet
    have hstart : (start host url use world k).waits =
        world.waits ++ (List.range k).map fun i => min (500 * 2 ^ i) 4000 := by
      induction k with
      | zero => exact (List.append_nil _).symm
      | succ k ih =>
        have htried := (attempt_attempted host url use (start host url use world k)).waits hquiet
        rw [List.range_succ, List.map_append, ← List.append_assoc, ← ih, ← htried]
        rfl
    rw [← hstart]
    exact (attempt_attempted host url use (start host url use world k)).waits hquiet
  requests := by
    intro address honce
    have hstart : (start host url use world k).requests =
        world.requests ++ List.replicate k address := by
      induction k with
      | zero => exact (List.append_nil _).symm
      | succ k ih =>
        rw [List.replicate_succ', ← List.append_assoc, ← ih]
        exact honce (start host url use world k)
    rw [List.replicate_succ', ← List.append_assoc, ← hstart]
    exact honce (start host url use world k)

/-! ### The loop of attempts -/

/-- The attempts as a loop goes through them: a round ends the loop with a value, a fault that is not
retried, or too many attempts, or else waits for the next one. A loop that has no more rounds would
go on with `afterwards`. -/
def loop (url : String) (use : Response → Action α) (afterwards : Action α) (last : Nat) :
    (rounds n : Nat) → Action α
  | 0, _ => afterwards
  | rounds + 1, n => do
    match ← (attempt url use).outcome with
    | .ok value => pure value
    | .error fault =>
      if isRetried fault then
        if last ≤ n then throw (.retriesExceeded url n fault)
        else do
          wait (waitAfter n)
          loop url use afterwards last rounds (n + 1)
      else throw fault

/-- The loop never goes past its last attempt. -/
theorem eval_loop (afterwards : Action α) {last left rounds n : Nat} (hlast : last = n + left)
    (hrounds : left < rounds) (world : World) :
    (loop url use afterwards last rounds n).eval host world =
      (attemptsFrom url use left n).eval host world := by
  induction rounds generalizing left n world with
  | zero => omega
  | succ rounds ih =>
    rw [loop, Action.eval_bind, Action.eval_outcome]
    dsimp only
    cases left with
    | zero =>
      rw [attemptsFrom, Action.eval_handle]
      rcases (attempt url use).eval host world with ⟨fault | value, after⟩
      · dsimp only
        rw [if_pos (show last ≤ n by omega)]
        cases isRetried fault <;> rfl
      · rfl
    | succ left =>
      rw [attemptsFrom, Action.eval_handle]
      rcases (attempt url use).eval host world with ⟨fault | value, after⟩
      · dsimp only
        rw [if_neg (show ¬last ≤ n by omega)]
        cases isRetried fault with
        | false => rfl
        | true => exact ih (by omega) (by omega) _
      · rfl

/-! ### Fetching -/

variable (host url use world) in
/-- **Retries.** With `last + 1` attempts at most, a fetch ends as its first attempt that is not
retried if there is one, and else with too many attempts and the fault of the last one. Every attempt
ends in one of the known ways, and what would follow the loop of attempts is never reached. -/
theorem fetch_retries (last : Nat) :
    (∀ k ≤ last, (∀ i < k, Retried (tried host url use world i)) →
      ¬Retried (tried host url use world k) →
        (fetch (last + 1) url use).eval host world = tried host url use world k ∧
          Made host url use world k (tried host url use world k).2) ∧
    ((∀ i ≤ last, Retried (tried host url use world i)) →
      ∃ fault, (tried host url use world last).1 = .error fault ∧
        (fetch (last + 1) url use).eval host world =
          (.error (.retriesExceeded url (last + 1) fault), (tried host url use world last).2) ∧
        Made host url use world last (tried host url use world last).2) ∧
    (∀ n, Attempted host url use (start host url use world n) (tried host url use world n)) ∧
    ∀ afterwards rounds, last < rounds →
      (loop url use afterwards (last + 1) rounds 1).eval host world =
        (fetch (last + 1) url use).eval host world := by
  have hleft : ((last : Int) + 1 - 1).toNat = last := by omega
  unfold fetch
  rw [hleft]
  refine ⟨fun k hle hretried hsettled => ⟨?_, tried_made host url use world k⟩, fun hretried => ?_,
    fun n => attempt_attempted host url use _, fun afterwards rounds hrounds => ?_⟩
  · exact attemptsFrom_eq_tried (Nat.zero_le k) (by omega) (fun i _ => hretried i) hsettled
  · obtain ⟨fault, hfault, heval⟩ := @attemptsFrom_exhausted _ host url use world last 0 fun i _ hle =>
      hretried i (by omega)
    simp only [Nat.zero_add] at hfault heval
    exact ⟨fault, hfault, heval, tried_made host url use world last⟩
  · exact eval_loop afterwards (by omega) hrounds world

/-- A network that is busy the first time it is asked. -/
def busyOnce : Host :=
  { Host.idle with
    network := fun past _ =>
      if past.isEmpty then .response 503 none [] none else .response 200 none [0x78] none }

theorem fetch_retries_busyOnce :
    ∃ after, (fetch ((1 : Nat) + 1) "http://h/" Response.read).eval busyOnce { files := .bare } =
      (.ok [0x78], after) ∧ after.waits = [500] := by
  obtain ⟨hsettled, -⟩ := fetch_retries busyOnce "http://h/" Response.read { files := .bare } 1
  have hbusy : (tried busyOnce "http://h/" Response.read { files := .bare } 0).1 =
      .error (.transientStatus 503) := by decide +kernel
  have hanswered : (tried busyOnce "http://h/" Response.read { files := .bare } 1).1 =
      .ok [0x78] := by decide +kernel
  have hfirst : ∀ i < 1, Retried (tried busyOnce "http://h/" Response.read { files := .bare } i) := by
    intro i hi
    obtain rfl : i = 0 := by omega
    exact ⟨_, hbusy, rfl⟩
  have hsecond : ¬Retried (tried busyOnce "http://h/" Response.read { files := .bare } 1) := by
    rintro ⟨fault, hfault, -⟩
    rw [hanswered] at hfault
    cases hfault
  have hquiet : ∀ (response : Response) (world : World),
      (response.read.eval busyOnce world).2.waits = world.waits := by
    intro response world
    unfold Response.read
    cases response.fault <;> rfl
  obtain ⟨heval, hmade⟩ := hsettled 1 (Nat.le_refl 1) hfirst hsecond
  exact ⟨_, heval.trans (Prod.ext hanswered rfl), hmade.waits hquiet⟩

end JarRefinery.Http
