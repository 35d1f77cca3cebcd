import JarRefinery.Proofs.Contents
import JarRefinery.Proofs.Retries

/-!
# What a download delivers

All attempts of a download write to one temporary file. Each begins it anew, so that in the end it
holds the body of the last answer alone, and that is whole. Which answer that is depends on the
network: the answers to the attempts, seen from the requests alone, are given up one after the other
until one is accepted.
-/

namespace JarRefinery

/-- What an address answers does not depend on what was asked for before. -/
def Host.Steady (host : Host) : Prop :=
  ∀ past address, host.network past address = host.network [] address

namespace Http

/-! ### Answers -/

section Remote

variable {α β : Type} {host : Host}

/-- The action looks at nothing of the world but the requests, and changes nothing else. How it ends
depends on them only where the network goes by them. -/
def Remote (host : Host) (action : Action α) : Prop :=
  ∃ ending : List String → Except Fault α × List String,
    (∀ world, action.eval host world =
      ((ending world.requests).1, { world with requests := (ending world.requests).2 })) ∧
    (host.Steady → ∀ past, (ending past).1 = (ending []).1)

namespace Remote

theorem pure (value : α) : Remote host (pure value) :=
  ⟨fun past => (.ok value, past), fun _ => rfl, fun _ _ => rfl⟩

theorem throw (fault : Fault) : Remote host (throw fault : Action α) :=
  ⟨fun past => (.error fault, past), fun _ => rfl, fun _ _ => rfl⟩

theorem ofExcept {ε : Type} (fault : ε → Fault) (result : Except ε α) :
    Remote host (Action.ofExcept fault result) :=
  ⟨fun past => (result.mapError fault, past), fun world => Action.eval_ofExcept host world _ _,
    fun _ _ => rfl⟩

theorem refuse (so : Bool) (fault : Fault) : Remote host (Action.refuse so fault) := by
  cases so with
  | false => exact pure ()
  | true => exact throw fault

theorem read (response : Response) : Remote host response.read := by
  unfold Response.read
  cases response.fault with
  | none => exact pure _
  | some fault => exact throw fault

theorem bind {action : Action α} {next : α → Action β} (haction : Remote host action)
    (hnext : ∀ value, Remote host (next value)) : Remote host (action >>= next) := by
  obtain ⟨first, hfirst, hsame⟩ := haction
  choose second hsecond hsames using hnext
  refine ⟨fun past => match first past with
    | (.ok value, past) => second value past
    | (.error fault, past) => (.error fault, past), fun world => ?_, fun hsteady past => ?_⟩
  · rw [Action.eval_bind, hfirst]
    dsimp only
    rcases first world.requests with ⟨fault | value, past⟩
    · rfl
    · exact hsecond value _
  · have hresult := hsame hsteady past
    dsimp only
    rcases hpast : first past with ⟨fault | value, later⟩ <;>
      rcases hstart : first [] with ⟨other | other, start⟩ <;>
      rw [hpast, hstart] at hresult <;> cases hresult
    · rfl
    · exact (hsames value hsteady later).trans (hsames value hsteady start).symm

end Remote

theorem ask_remote (address : String) : Remote host (ask address) :=
  ⟨fun past => (.ok (host.network past address), past ++ [address]), fun _ => rfl,
    fun hsteady past => congrArg Except.ok (hsteady past address)⟩

theorem exchange_remote (url : Url) : Remote host (exchange url) := by
  refine (ask_remote _).bind fun reply => ?_
  cases reply with
  | failure fault => exact .throw fault
  | response status location body fault =>
    refine .bind (.refuse _ _) fun _ => ?_
    dsimp only
    split
    · refine .bind ?_ fun target => (Remote.read _).bind fun _ => .pure _
      refine .bind (.ofExcept _ _) fun parsed => ?_
      exact .bind (.ofExcept _ _) fun hosted => .bind (.ofExcept _ _) fun absolute => .pure _
    · exact .pure _

theorem send_remote (left : Nat) (url : Url) : Remote host (send left url) := by
  induction left generalizing url with
  | zero =>
    refine (exchange_remote url).bind fun answer => ?_
    obtain ⟨response, _ | target⟩ := answer
    · exact .pure _
    · exact .throw _
  | succ left ih =>
    refine (exchange_remote url).bind fun answer => ?_
    obtain ⟨response, _ | target⟩ := answer
    · exact .pure _
    · exact ih target

theorem open_remote (url : String) : Remote host (open_ url) :=
  .bind (.ofExcept _ _) fun _ => send_remote _ _

end Remote

section Answers

variable (host : Host) (url : String)

/-- What asking for `url` comes to after the requests `past`, and the requests then. -/
def reply (past : List String) : Except Fault Response × List String :=
  let ending := (open_ url).eval host { files := ⟨[], []⟩, requests := past }
  (ending.1, ending.2.requests)

theorem eval_open (world : World) : (open_ url).eval host world =
    ((reply host url world.requests).1,
      { world with requests := (reply host url world.requests).2 }) := by
  obtain ⟨ending, hending, -⟩ := @open_remote host url
  simp only [reply, hending]

variable {host} in
theorem reply_steady (hsteady : host.Steady) (past : List String) :
    (reply host url past).1 = (reply host url []).1 := by
  obtain ⟨ending, hending, hsame⟩ := @open_remote host url
  simp only [reply, hending]
  exact hsame hsteady past

/-- The requests before attempt `k`, counted from zero. -/
def asked (past : List String) : (k : Nat) → List String
  | 0 => past
  | k + 1 => (reply host url (asked past k)).2

/-- What attempt `k` gets to see. -/
def answer (past : List String) (k : Nat) : Except Fault Response :=
  (reply host url (asked host url past k)).1

end Answers

/-- The attempt that gets this failed in transport, before its answer came or in the middle of it, or
its answer may be better next time. -/
def GivenUp : Except Fault Response → Prop
  | .error fault => isRetried fault = true
  | .ok response =>
    response.status ∈ transientStatuses ∨ ∃ fault, response.fault = some fault ∧ isRetried fault = true

/-- A plain success whose body is whole. -/
structure Response.Accepted (response : Response) : Prop where
  status : response.status = 200
  whole : response.fault = none

/-- Attempt `k` is the first that is not given up, and its answer is accepted. -/
structure Delivered (host : Host) (url : String) (past : List String) (k : Nat)
    (response : Response) : Prop where
  givenUp : ∀ i < k, GivenUp (answer host url past i)
  answer : answer host url past k = .ok response
  accepted : response.Accepted

/-- A steady network delivers the same whatever was asked for before. -/
theorem Delivered.of_steady {host : Host} {url : String} {past other : List String} {k : Nat}
    {response : Response} (hsteady : host.Steady) (hdelivered : Delivered host url past k response) :
    Delivered host url other k response := by
  have hanswer : ∀ i, Http.answer host url other i = Http.answer host url past i := fun i =>
    (reply_steady url hsteady _).trans (reply_steady url hsteady _).symm
  exact ⟨fun i hi => hanswer i ▸ hdelivered.givenUp i hi, (hanswer k).trans hdelivered.answer,
    hdelivered.accepted⟩

theorem Response.Accepted.not_givenUp {response : Response} (haccepted : response.Accepted) :
    ¬GivenUp (.ok response) := by
  rintro (htransient | ⟨fault, hfault, -⟩)
  · rw [haccepted.status] at htransient
    exact absurd htransient (by decide)
  · simp [haccepted.whole] at hfault

/-- What is delivered is what the first answer is that is not given up. -/
theorem Delivered.index_eq {host : Host} {url : String} {past : List String} {k l : Nat}
    {response : Response} (hdelivered : Delivered host url past k response)
    (hgivenUp : ∀ i < l, GivenUp (Http.answer host url past i))
    (hsettled : ¬GivenUp (Http.answer host url past l)) : k = l := by
  refine Nat.le_antisymm (Nat.not_lt.mp fun hlt => hsettled (hdelivered.givenUp l hlt))
    (Nat.not_lt.mp fun hlt => ?_)
  exact hdelivered.accepted.not_givenUp (hdelivered.answer ▸ hgivenUp k hlt)

/-- Only one answer is delivered. -/
theorem Delivered.unique {host : Host} {url : String} {past : List String} {k l : Nat}
    {response other : Response} (hdelivered : Delivered host url past k response)
    (hother : Delivered host url past l other) : k = l ∧ response = other := by
  obtain rfl := hdelivered.index_eq hother.givenUp (hother.answer ▸ hother.accepted.not_givenUp)
  exact ⟨rfl, Except.ok.inj (hdelivered.answer.symm.trans hother.answer)⟩

/-! ### Attempts that write to one file -/

/-- How an attempt ends, as far as its answer tells. A plain success comes to its verdict. -/
def judged {α : Type} (url : String) (verdict : Response → Except Fault α) :
    Except Fault Response → Except Fault α
  | .error fault => .error fault
  | .ok response =>
    if response.status = 200 then verdict response
    else if response.status ∈ transientStatuses then .error (.transientStatus response.status)
    else match response.fault with
      | some fault => .error fault
      | none => .error (.badStatus url response.status
          (Text.strip (Text.Utf8.decodeReplacing (response.body.take shownBytes))))

/-- How an attempt to write down a body ends. -/
def outcome (url : String) : Except Fault Response → Except Fault Nat :=
  judged url measured

section Outcome

variable (url : String) (seen : Except Fault Response)

/-- An attempt is given up if its answer is, as long as a body is not that is whole. -/
theorem retried_judged_iff {α : Type} {verdict : Response → Except Fault α}
    (hverdict : ∀ response after, Retried (verdict response, after) ↔
      ∃ fault, response.fault = some fault ∧ isRetried fault = true) (after : World) :
    Retried (judged url verdict seen, after) ↔ GivenUp seen := by
  have hplain : (200 : Nat) ∉ transientStatuses := by decide
  rcases seen with fault | response
  · simp [Retried, judged, GivenUp]
  by_cases hstatus : response.status = 200
  · rw [judged, if_pos hstatus, hverdict]
    simp [GivenUp, hstatus, hplain]
  by_cases htransient : response.status ∈ transientStatuses
  · simp [Retried, judged, GivenUp, hstatus, htransient, isRetried_transientStatus]
  · rcases hfault : response.fault with _ | fault <;>
      simp [Retried, judged, GivenUp, hstatus, htransient, hfault]
    rfl

theorem outcome_ok_iff (n : Nat) : outcome url seen = .ok n ↔
    ∃ response, seen = .ok response ∧ response.Accepted ∧ n = response.body.length := by
  constructor
  · intro hok
    rcases seen with fault | ⟨status, body, fault⟩
    · cases hok
    simp only [outcome, judged, measured] at hok
    split_ifs at hok with hstatus htransient <;> rcases fault with _ | fault <;> cases hok
    exact ⟨_, rfl, ⟨hstatus, rfl⟩, rfl⟩
  · rintro ⟨response, rfl, ⟨hstatus, hwhole⟩, rfl⟩
    simp [outcome, judged, measured, hstatus, hwhole]

theorem retried_outcome_iff (after : World) :
    Retried (outcome url seen, after) ↔ GivenUp seen := by
  refine retried_judged_iff url seen (fun response after => ?_) after
  rcases hfault : response.fault with _ | fault <;> simp [Retried, measured, hfault]

end Outcome

section Writing

variable {host : Host} {url : String} {piece : Int} (hpiece : 1 ≤ piece) {tree : FileTree}
  {file : Path} (hreach : tree.Reachable file) (hwrite : tree.Writable (file.normal tree.here))

include hpiece hreach hwrite

/-- A body is written over whatever an earlier attempt left in the file. -/
theorem eval_writeBody_over (host : Host) (response : Response) {world : World} {before : Bytes} {mode : Nat}
    (hfiles : world.files = tree.put (file.normal tree.here) (.file before mode)) :
    (writeBody piece file response).eval host world =
      (measured response,
        { world with
          files := tree.put (file.normal tree.here)
            (.file (arrived piece.toNat response) mode) }) := by
  have hroot : file.normal tree.here ≠ [] := fun heq => hwrite.1 (by rw [heq, FileTree.node?_root])
  have hput : Change { written := {file.normal tree.here} } tree world.files :=
    hfiles ▸ .putFile hwrite.1
  have hnode : world.files.node? (file.normal world.files.here) = some (.file before mode) := by
    rw [hput.here, hfiles, FileTree.node?_put, if_neg hroot, if_pos rfl]
  have hagain : world.files.Writable (file.normal world.files.here) :=
    ⟨by simp [hnode], by simp [hnode]⟩
  have hpositive : piece ≤ 0 → response.body = [] := fun hle => absurd hle (by omega)
  have hthere := hput.reachable hreach
  rw [eval_writeBody_emptied hthere hagain host hpositive (hthere.eval_writeFile hnode []) rfl, hput.here]
  simp only [hfiles, FileTree.put_put]

/-- **Step.** Whatever the file held before, an attempt ends by its own answer. If that is accepted,
its body is what the file holds then. -/
theorem eval_attempt_writeBody {world : World} {before : Bytes} {mode : Nat}
    (hfiles : world.files = tree.put (file.normal tree.here) (.file before mode)) :
    ∃ contents, (attempt url (writeBody piece file)).eval host world =
        (outcome url (reply host url world.requests).1,
          { world with
            requests := (reply host url world.requests).2
            files := tree.put (file.normal tree.here) (.file contents mode) }) ∧
      ∀ response, (reply host url world.requests).1 = .ok response → response.Accepted →
        contents = response.body := by
  unfold attempt
  rw [Action.eval_bind, eval_open]
  rcases reply host url world.requests with ⟨fault | response, past⟩
  · exact ⟨before, by simp only [← hfiles]; rfl, by rintro _ ⟨⟩⟩
  dsimp only
  by_cases hstatus : response.status = 200
  · have hopened : ({ world with requests := past } : World).files =
        tree.put (file.normal tree.here) (.file before mode) := hfiles
    rw [checkStatus, if_pos hstatus, Action.eval_bind_ok (Action.eval_pure _ _ _),
      eval_writeBody_over hpiece hreach hwrite host response hopened]
    refine ⟨arrived piece.toNat response, by simp only [outcome, judged, if_pos hstatus], ?_⟩
    rintro _ ⟨⟩ haccepted
    simp [arrived, haccepted.whole]
  · refine ⟨before, ?_, by rintro _ ⟨⟩ haccepted; exact absurd haccepted.status hstatus⟩
    simp only [← hfiles, outcome, judged, checkStatus, if_neg hstatus]
    by_cases htransient : response.status ∈ transientStatuses
    · simp [htransient, Action.eval_bind]
    · rcases hfault : response.fault with _ | fault <;>
        simp [htransient, Action.eval_bind, Response.read, hfault]

variable {world : World} {before : Bytes} {mode : Nat}
  (hfiles : world.files = tree.put (file.normal tree.here) (.file before mode))

include hfiles

theorem start_writeBody (k : Nat) :
    (start host url (writeBody piece file) world k).requests = asked host url world.requests k ∧
      ∃ contents, (start host url (writeBody piece file) world k).files =
        tree.put (file.normal tree.here) (.file contents mode) := by
  induction k with
  | zero => exact ⟨rfl, before, hfiles⟩
  | succ k ih =>
    obtain ⟨hasked, contents, hstart⟩ := ih
    obtain ⟨contents', heval, -⟩ := eval_attempt_writeBody hpiece hreach hwrite hstart
    rw [start_succ, tried, heval, hasked]
    exact ⟨rfl, contents', rfl⟩

/-- **Run.** An attempt ends by the answer that the requests before it lead to, and leaves in the file
what came of that answer. -/
theorem tried_writeBody (k : Nat) :
    ∃ contents after, tried host url (writeBody piece file) world k =
        (outcome url (answer host url world.requests k), after) ∧
      after.requests = asked host url world.requests (k + 1) ∧
      after.files = tree.put (file.normal tree.here) (.file contents mode) ∧
      ∀ response, answer host url world.requests k = .ok response → response.Accepted →
        contents = response.body := by
  obtain ⟨hasked, before', hstart⟩ := start_writeBody hpiece hreach hwrite hfiles k
  obtain ⟨contents, heval, hwritten⟩ := eval_attempt_writeBody hpiece hreach hwrite hstart
  rw [hasked] at heval hwritten
  exact ⟨contents, _, heval, rfl, rfl, hwritten⟩

theorem retried_tried_iff (k : Nat) : Retried (tried host url (writeBody piece file) world k) ↔
    GivenUp (answer host url world.requests k) := by
  obtain ⟨-, after, htried, -⟩ := tried_writeBody hpiece hreach hwrite hfiles k
  rw [htried, retried_outcome_iff]

/-- The fetch comes to its end with the first answer that is not given up, if that is accepted. -/
theorem fetch_writeBody_ok_iff (maxAttempts : Int) (n : Nat) (after : World) :
    (fetch maxAttempts url (writeBody piece file)).eval host world = (.ok n, after) ↔
      ∃ k ≤ (maxAttempts - 1).toNat, ∃ response,
        Delivered host url world.requests k response ∧ n = response.body.length ∧
          tried host url (writeBody piece file) world k = (.ok n, after) := by
  have hretried : ∀ k, Retried (tried host url (writeBody piece file) world k) ↔
      GivenUp (answer host url world.requests k) :=
    retried_tried_iff hpiece hreach hwrite hfiles
  have heval : ∀ k ≤ (maxAttempts - 1).toNat, (∀ i < k, GivenUp (answer host url world.requests i)) →
      ¬GivenUp (answer host url world.requests k) →
      (fetch maxAttempts url (writeBody piece file)).eval host world =
        tried host url (writeBody piece file) world k := fun k hle hgivenUp hsettled =>
    attemptsFrom_eq_tried (Nat.zero_le k) (by omega) (fun i _ hi => (hretried i).mpr (hgivenUp i hi))
      fun hagain => hsettled ((hretried k).mp hagain)
  constructor
  · intro hok
    rcases @fetch_cases _ host url (writeBody piece file) world maxAttempts with
      ⟨k, hle, hgivenUp, -, hends⟩ | ⟨-, fault, hexhausted⟩
    · have htried := hends.symm.trans hok
      obtain ⟨-, ended, hended, -⟩ := tried_writeBody hpiece hreach hwrite hfiles k
      obtain ⟨response, hanswer, haccepted, hlength⟩ := (outcome_ok_iff url _ n).mp
        (congrArg Prod.fst (hended.symm.trans htried))
      exact ⟨k, hle, response, ⟨fun i hi => (hretried i).mp (hgivenUp i hi), hanswer, haccepted⟩,
        hlength, htried⟩
    · cases hexhausted.symm.trans hok
  · rintro ⟨k, hle, response, hdelivered, -, htried⟩
    rw [← htried]
    refine heval k hle hdelivered.givenUp ?_
    rw [hdelivered.answer]
    exact hdelivered.accepted.not_givenUp

end Writing

/-! ### Downloads -/

section Download

variable {host : Host} {world : World} {piece : Int} {url : String} {target : Path}
  (hrooted : ".." ∉ world.files.here) (hpiece : 1 ≤ piece)

include hrooted hpiece

/-- The body that was delivered is in a file with the mode of the temporary one. -/
theorem of_eval_downloadBy_ok {maxAttempts : Int} {n : Nat} {after : World}
    (heval : (downloadBy piece maxAttempts url target).eval host world = (.ok n, after)) :
    ∃ k ≤ (maxAttempts - 1).toNat, ∃ response,
      Delivered host url world.requests k response ∧
        after.requests = asked host url world.requests (k + 1) ∧ n = response.body.length ∧
        after.files.Reachable target ∧
        after.files.node? (target.normal world.files.here) = some (.file response.body 0o600) := by
  obtain ⟨sibling, begun, filled, ⟨⟨ready, place, hbeside, hbegun⟩, hfetch, hrequests, hreach,
    contents, mode, hplace, htarget⟩⟩ := exists_filled hrooted heval
  obtain ⟨hreadable, hwrite⟩ := hbeside.writable (.refl _ (ready.put place (.file [] 0o600)))
  have hfiles := (congrArg World.files hbegun).trans hbeside.put_again
  obtain ⟨k, hle, response, hdelivered, hlength, htried⟩ :=
    (fetch_writeBody_ok_iff hpiece hreadable hwrite hfiles maxAttempts n filled).mp hfetch
  obtain ⟨written, ended, hended, hasked, hwritten, hbody⟩ :=
    tried_writeBody hpiece hreadable hwrite hfiles k
  obtain rfl : ended = filled := congrArg Prod.snd (hended.symm.trans htried)
  subst hbegun
  refine ⟨k, hle, response, hdelivered, hrequests.trans hasked, hlength, hreach, ?_⟩
  rw [hbeside.normal, hwritten, hbeside.normal] at hplace
  obtain ⟨rfl, rfl⟩ : written = contents ∧ 0o600 = mode := by
    simpa [FileTree.node?_put, hbeside.place_ne_root] using hplace
  rw [htarget, hbody response hdelivered.answer hdelivered.accepted]

/-- **One body.** A download that returns was answered by plain success with a whole body, after
answers that were all given up. The target holds that body and no more, whatever part of a body came
before, and nothing else has changed but directories that were made above the target. -/
theorem downloadBy_holds (maxAttempts : Int) {n : Nat} {after : World}
    (heval : (downloadBy piece maxAttempts url target).eval host world = (.ok n, after)) :
    ∃ k ≤ (maxAttempts - 1).toNat, ∃ response,
      Delivered host url world.requests k response ∧
        after.requests = asked host url world.requests (k + 1) ∧
        after.files.Holds target response.body ∧ n = response.body.length ∧
        ∀ location, location ≠ target.normal world.files.here →
          SameOrAbove target world.files after.files location := by
  have hreplaced := @Replaces.downloadBy host _ target hrooted piece maxAttempts url world rfl
  rw [heval] at hreplaced
  obtain ⟨hchange, -⟩ := hreplaced
  obtain ⟨k, hle, response, hdelivered, hasked, hlength, hreach, hnode⟩ :=
    of_eval_downloadBy_ok hrooted hpiece heval
  refine ⟨k, hle, response, hdelivered, hasked, ?_, hlength, fun location hother =>
    hchange.same_or_made (by simpa using hother) (Set.notMem_empty _)⟩
  exact FileTree.holds_iff.mpr ⟨hreach, _, by rw [hchange.here]; exact hnode⟩

omit hrooted in
/-- A temporary file is filled if an answer is accepted in time. -/
theorem fetch_beside_returns {maxAttempts : Int} {k : Nat} {response : Response} {ready : FileTree}
    {sibling : Path} {place : Location}
    (hbeside : FileTree.Beside target world.files ready sibling place)
    (hle : k ≤ (maxAttempts - 1).toNat) (hdelivered : Delivered host url world.requests k response) :
    ∃ filled, (fetch maxAttempts url (writeBody piece sibling)).eval host
      { world with files := ready.put place (.file [] 0o600) } = (.ok response.body.length, filled) := by
  obtain ⟨hreadable, hwrite⟩ := hbeside.writable (.refl _ (ready.put place (.file [] 0o600)))
  obtain ⟨-, after, htried, -⟩ := @tried_writeBody host url piece hpiece _ sibling hreadable hwrite
    { world with files := ready.put place (.file [] 0o600) } _ _ hbeside.put_again k
  have hok := (outcome_ok_iff url (answer host url world.requests k) response.body.length).mpr
    ⟨response, hdelivered.answer, hdelivered.accepted, rfl⟩
  exact ⟨after, (fetch_writeBody_ok_iff hpiece hreadable hwrite hbeside.put_again maxAttempts _ _).mpr
    ⟨k, hle, response, hdelivered, rfl, htried.trans (Prod.ext hok rfl)⟩⟩

/-- A download to where a file can be written returns if an answer is accepted in time. -/
theorem downloadBy_returns {maxAttempts : Int} {k : Nat} {response : Response}
    (hreceives : world.files.Receives target) (hle : k ≤ (maxAttempts - 1).toNat)
    (hdelivered : Delivered host url world.requests k response) :
    ∃ after, (downloadBy piece maxAttempts url target).eval host world =
      (.ok response.body.length, after) :=
  Action.eval_withSibling_ok hrooted hreceives (fun _ _ _ hmoving => hmoving)
    (fetch_writeBody_keeps hrooted maxAttempts) fun _ _ _ hbeside =>
      fetch_beside_returns hpiece hbeside hle hdelivered

end Download

/-- A network that breaks off in the middle of a long body first, and then has a short one. -/
def brokenOnce : Host :=
  { Host.idle with
    network := fun past _ =>
      if past.isEmpty then .response 200 none [1, 2, 3, 4, 5] (some (.of .readError ""))
      else .response 200 none [6, 7] none }

theorem downloadBy_holds_brokenOnce :
    ∃ after, (downloadBy 2 3 "http://h/" ⟨"", ["out"]⟩).eval brokenOnce { files := .bare } =
        (.ok 2, after) ∧
      ∃ k ≤ 2, ∃ response, Delivered brokenOnce "http://h/" [] k response ∧
        response.body = [6, 7] ∧ after.requests = asked brokenOnce "http://h/" [] (k + 1) := by
  have hreturned : (downloadBy 2 3 "http://h/" ⟨"", ["out"]⟩).eval brokenOnce { files := .bare } =
      (.ok 2, ((downloadBy 2 3 "http://h/" ⟨"", ["out"]⟩).eval brokenOnce { files := .bare }).2) :=
    Action.eq_of_value (by decide +kernel)
  have hcontents : ((downloadBy 2 3 "http://h/" ⟨"", ["out"]⟩).eval brokenOnce
      { files := .bare }).2.files.Holds ⟨"", ["out"]⟩ [6, 7] := by decide +kernel
  obtain ⟨k, hle, response, hdelivered, hasked, hholds, -, -⟩ :=
    downloadBy_holds (by decide) (by decide) 3 hreturned
  exact ⟨_, hreturned, k, hle, response, hdelivered, hholds.unique hcontents, hasked⟩

end Http

end JarRefinery
