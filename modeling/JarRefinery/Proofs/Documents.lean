import JarRefinery.Proofs.Delivery

/-!
# Documents

What getting a document comes to is told by the answers alone: by the first that is not given up, if
it comes in time. What is asked for is the address of the document, once for each attempt, and from
there on wherever the answers redirect to.
-/

namespace JarRefinery.Http

variable {α : Type} {host : Host} {url : String}

/-! ### Fetching without a trace -/

section Verdicts

variable {use : Response → Action α} {verdict : Response → Except Fault α}
  (huse : ∀ response world, (use response).eval host world = (verdict response, world))

include huse

/-- **Step.** An attempt leaves nothing but its requests. -/
theorem eval_attempt_of_verdict (world : World) : (attempt url use).eval host world =
    (judged url verdict (reply host url world.requests).1,
      { world with requests := (reply host url world.requests).2 }) := by
  unfold attempt
  rw [Action.eval_bind, eval_open]
  rcases reply host url world.requests with ⟨fault | response, past⟩
  · rfl
  dsimp only
  rw [judged, checkStatus]
  by_cases hstatus : response.status = 200
  · simp [hstatus, huse]
  by_cases htransient : response.status ∈ transientStatuses
  · simp [hstatus, htransient, Action.eval_bind]
  · rcases hfault : response.fault with _ | fault <;>
      simp [hstatus, htransient, Action.eval_bind, Response.read, hfault]

theorem start_requests (world : World) (k : Nat) :
    (start host url use world k).requests = asked host url world.requests k := by
  induction k with
  | zero => rfl
  | succ k ih =>
    rw [start_succ, tried, eval_attempt_of_verdict huse, ih]
    rfl

theorem tried_of_verdict (world : World) (k : Nat) :
    (tried host url use world k).1 = judged url verdict (answer host url world.requests k) ∧
      (tried host url use world k).2.requests = asked host url world.requests (k + 1) := by
  rw [tried, eval_attempt_of_verdict huse, start_requests huse]
  exact ⟨rfl, rfl⟩

/-- **Run.** The first answer that is not given up decides, if it comes in time. -/
theorem fetch_of_verdict (hverdict : ∀ response after, Retried (verdict response, after) ↔
      ∃ fault, response.fault = some fault ∧ isRetried fault = true)
    (maxAttempts : Int) {world after : World} {result : Except Fault α}
    (heval : (fetch maxAttempts url use).eval host world = (result, after)) :
    (∃ k ≤ (maxAttempts - 1).toNat, (∀ i < k, GivenUp (answer host url world.requests i)) ∧
      ¬GivenUp (answer host url world.requests k) ∧
      result = judged url verdict (answer host url world.requests k) ∧
      after.requests = asked host url world.requests (k + 1)) ∨
    (∀ i ≤ (maxAttempts - 1).toNat, GivenUp (answer host url world.requests i)) ∧
      ∃ attempts last, result = .error (.retriesExceeded url attempts last) ∧
        after.requests = asked host url world.requests ((maxAttempts - 1).toNat + 1) := by
  have hretried : ∀ k, Retried (tried host url use world k) ↔
      GivenUp (answer host url world.requests k) := fun k => by
    rw [← retried_judged_iff url _ hverdict (tried host url use world k).2,
      ← (tried_of_verdict huse world k).1]
  have hrequests : ∀ k, (tried host url use world k).2.requests =
      asked host url world.requests (k + 1) := fun k => (tried_of_verdict huse world k).2
  rcases @fetch_cases _ host url use world maxAttempts with
    ⟨k, hle, hgivenUp, hsettled, hends⟩ | ⟨hgivenUp, fault, hexhausted⟩
  · have htried := hends.symm.trans heval
    refine .inl ⟨k, hle, fun i hi => (hretried i).mp (hgivenUp i hi),
      fun hagain => hsettled ((hretried k).mpr hagain), ?_, ?_⟩
    · rw [← (tried_of_verdict huse world k).1, htried]
    · rw [← hrequests, htried]
  · obtain ⟨rfl, rfl⟩ := Prod.mk.inj (hexhausted.symm.trans heval)
    exact .inr ⟨fun i hi => (hretried i).mp (hgivenUp i hi), _, fault, rfl, hrequests _⟩

end Verdicts

/-! ### What is asked for -/

/-- The address answers with a redirect to another one. -/
def Redirects (host : Host) (past : List String) (url target : Url) : Prop :=
  ∃ status location body fault,
    host.network past url.toString = .response status (some location) body fault ∧
      status ∈ redirectStatuses ∧
      ∀ world, (redirectUrl url location).eval host world = (.ok target, world)

/-- An address was asked for after the requests `past`, and then where each answer redirected to. -/
inductive Hops (host : Host) : (past : List String) → Url → (later : List String) → Prop
  | last (past : List String) (url : Url) : Hops host past url (past ++ [url.toString])
  | redirected {past later : List String} {url target : Url} : Redirects host past url target →
    Hops host (past ++ [url.toString]) target later → Hops host past url later

/-- After the requests `past` only the text `url` was asked for as an address, and where the answers
redirected to. -/
inductive Visits (host : Host) (url : String) (past : List String) : (later : List String) → Prop
  | none : Visits host url past past
  | again {middle later : List String} {parsed : Url} : Visits host url past middle →
    Url.parse url = .ok parsed →
    Hops host middle (if parsed.isAbsolute then parsed else parsed.fromTop) later →
    Visits host url past later

theorem redirectUrl_pure (host : Host) (url : Url) (location : String) :
    ∃ result, ∀ world, (redirectUrl url location).eval host world = (result, world) := by
  unfold redirectUrl
  rcases Url.parse location with flaw | target
  · exact ⟨_, fun world => rfl⟩
  rcases hhosted : hosted url target with flaw | hosted
  · exact ⟨.error (invalidUrl flaw), fun world => by simp [Action.eval_bind, hhosted, Except.mapError]⟩
  rcases habsolute : absolute url hosted with flaw | absolute
  · exact ⟨.error (invalidUrl flaw), fun world => by
      simp [Action.eval_bind, hhosted, habsolute, Except.mapError, Except.map]⟩
  · exact ⟨.ok (fragmented url absolute), fun world => by
      simp [Action.eval_bind, hhosted, habsolute, Except.mapError, Except.map]⟩

/-- An answer leads to another address only by a redirect. -/
theorem answered_cases (host : Host) (url : Url) (past : List String) (world : World) :
    ∃ result, (answered url (host.network past url.toString)).eval host world = (result, world) ∧
      ∀ response target, result = .ok (response, some target) → Redirects host past url target := by
  rcases hreply : host.network past url.toString with ⟨status, location, body, fault⟩ | fault
  swap
  · exact ⟨.error fault, rfl, by simp⟩
  unfold answered
  rw [Action.eval_bind]
  rcases habsolute : !url.isAbsolute with _ | _
  swap
  · exact ⟨_, rfl, by simp⟩
  rw [Action.eval_refuse_false]
  rcases hredirects : redirectStatuses.contains status with _ | _
  · exact ⟨_, rfl, by simp⟩
  rcases location with _ | location
  · exact ⟨_, rfl, by simp⟩
  obtain ⟨target, htarget⟩ := redirectUrl_pure host url location
  dsimp only
  rw [Action.eval_bind, htarget]
  rcases target with failed | target
  · exact ⟨.error failed, rfl, by simp⟩
  rcases fault with _ | fault
  · refine ⟨.ok (⟨status, body, none⟩, some target), rfl, ?_⟩
    rintro _ _ ⟨⟩
    exact ⟨status, location, body, none, hreply, List.contains_iff_mem.mp hredirects, htarget⟩
  · exact ⟨.error fault, rfl, by simp⟩

theorem send_hops (left : Nat) (url : Url) (world : World) :
    Hops host world.requests url ((send left url).eval host world).2.requests := by
  have hexchange : ∀ (url : Url) (world : World), ∃ result, (exchange url).eval host world =
      (result, { world with requests := world.requests ++ [url.toString] }) ∧
        ∀ response target, result = .ok (response, some target) →
          Redirects host world.requests url target := by
    intro url world
    obtain ⟨result, heval, hredirects⟩ := answered_cases host url world.requests
      { world with requests := world.requests ++ [url.toString] }
    exact ⟨result, heval, hredirects⟩
  induction left generalizing url world with
  | zero =>
    obtain ⟨result, heval, -⟩ := hexchange url world
    unfold send
    rw [Action.eval_bind, heval]
    rcases result with fault | ⟨response, _ | target⟩ <;> exact .last _ _
  | succ left ih =>
    obtain ⟨result, heval, hredirects⟩ := hexchange url world
    unfold send
    rw [Action.eval_bind, heval]
    rcases result with fault | ⟨response, _ | target⟩
    · exact .last _ _
    · exact .last _ _
    · exact .redirected (hredirects response target rfl)
        (ih target { world with requests := world.requests ++ [url.toString] })

/-- However often an address is asked for, it is asked for alone. -/
theorem asked_visits (past : List String) (k : Nat) : Visits host url past (asked host url past k) := by
  induction k with
  | zero => exact .none
  | succ k ih =>
    rw [asked]
    unfold reply open_ parseUrl
    rcases hparse : Url.parse url with flaw | parsed
    · exact ih
    · exact .again ih hparse
        (send_hops redirectLimit _ { files := ⟨[], []⟩, requests := asked host url past k })

/-! ### Documents that are read -/

/-- The document that a whole body is. -/
def readDocument (body : Bytes) : Except Fault Json :=
  match Text.decodeDocument body with
  | .error error => .error (.undecodable error)
  | .ok chars => (Json.read chars).mapError .json

def Response.document (response : Response) : Except Fault Json :=
  match response.fault with
  | some fault => .error fault
  | none => readDocument response.body

theorem isRetried_readDocument {body : Bytes} {fault : Fault}
    (hread : readDocument body = .error fault) : isRetried fault = false := by
  unfold readDocument at hread
  rcases hchars : Text.decodeDocument body with error | chars <;> rw [hchars] at hread
  · cases hread
    rfl
  · rcases hjson : Json.read chars with error | json <;> simp only [hjson] at hread <;> cases hread
    cases error <;> rfl

theorem retried_document_iff (response : Response) (after : World) :
    Retried (response.document, after) ↔
      ∃ fault, response.fault = some fault ∧ isRetried fault = true := by
  unfold Response.document
  rcases response.fault with _ | fault
  · simp only [reduceCtorEq, false_and, exists_false, iff_false]
    rintro ⟨fault, hread, hretried⟩
    rw [isRetried_readDocument hread] at hretried
    cases hretried
  · simp [Retried]

/-- The faults of a request that is answered by nothing that could be read. -/
inductive Unread : Fault → Prop
  | told {fault : Fault} : fault.isAny [.httpFetchError, .valueError] = true → Unread fault
  | address (flaw : Url.Flaw) : Unread (invalidUrl flaw)
  | redirects : Unread (.of .tooManyRedirects "Exceeded maximum allowed redirects.")

/-- The faults that requests end with, of their own or in transport. -/
def Failing (fault : Fault) : Prop :=
  Astray fault ∨ fault.isA .transportError = true

theorem Unread.of_failing {fault : Fault} (hfailing : Failing fault)
    (hretried : isRetried fault = false) : Unread fault := by
  rcases hfailing with hastray | htransport
  · cases hastray with
    | address flaw => exact .address flaw
    | location flaw => cases hretried
    | scheme url => exact .told rfl
    | redirects => exact .redirects
  · simp [isRetried, Fault.isAny, htransport] at hretried

theorem reply_yields (hnetwork : FailsWith host fun fault => fault.isA .transportError = true)
    (past : List String) : (∀ fault, (reply host url past).1 = .error fault → Failing fault) ∧
      ∀ response, (reply host url past).1 = .ok response → response.BreaksWith Failing := by
  have hopen : (open_ url).Yields host (Response.BreaksWith Failing) Failing :=
    open_yields (hnetwork.mono fun _ => Or.inr) (fun _ => Or.inl) url
  have hyields := hopen { files := ⟨[], []⟩, requests := past }
  unfold reply
  rcases heval : (open_ url).eval host { files := ⟨[], []⟩, requests := past } with
    ⟨fault | response, after⟩ <;> rw [heval] at hyields
  · exact ⟨by rintro _ ⟨⟩; exact hyields, by simp⟩
  · exact ⟨by simp, by rintro _ ⟨⟩; exact hyields⟩

/-- An answer that is not given up is accepted, or all that comes of it is a fault. -/
theorem judged_unread {seen : Except Fault Response} (hsettled : ¬GivenUp seen)
    (hfails : ∀ fault, seen = .error fault → Failing fault)
    (hbreaks : ∀ response, seen = .ok response → response.BreaksWith Failing) :
    (∃ response, seen = .ok response ∧ response.Accepted) ∨
      ∃ fault, judged url Response.document seen = .error fault ∧ Unread fault := by
  rcases seen with fault | response
  · exact .inr ⟨fault, rfl, .of_failing (hfails fault rfl) (Bool.eq_false_iff.mpr hsettled)⟩
  obtain ⟨htransient, hbroken⟩ := not_or.mp hsettled
  rcases hfault : response.fault with _ | fault
  · by_cases hstatus : response.status = 200
    · exact .inl ⟨response, rfl, hstatus, hfault⟩
    · refine .inr ⟨.badStatus url response.status
        (Text.strip (Text.Utf8.decodeReplacing (response.body.take shownBytes))), ?_, .told rfl⟩
      simp only [judged, hstatus, htransient, hfault, if_false]
  · have hretried : isRetried fault = false :=
      Bool.eq_false_iff.mpr fun hretried => hbroken ⟨fault, hfault, hretried⟩
    refine .inr ⟨fault, ?_, .of_failing (hbreaks response rfl fault hfault) hretried⟩
    by_cases hstatus : response.status = 200
    · simp only [judged, hstatus, if_true, Response.document, hfault]
    · simp only [judged, hstatus, htransient, hfault, if_false]

/-- Getting a document comes to what the delivered body is read as, or nothing was delivered. -/
theorem getJson_cases (hnetwork : FailsWith host fun fault => fault.isA .transportError = true)
    {maxAttempts : Int} {world after : World} {result : Except Fault Json}
    (heval : (getJson maxAttempts url).eval host world = (result, after)) :
    (∃ k ≤ (maxAttempts - 1).toNat, ∃ response, Delivered host url world.requests k response ∧
      after.requests = asked host url world.requests (k + 1) ∧
      result = readDocument response.body) ∨
    (∀ k ≤ (maxAttempts - 1).toNat, ∀ response, ¬Delivered host url world.requests k response) ∧
      (∃ fault, result = .error fault ∧ Unread fault) ∧
      ∃ attempts, after.requests = asked host url world.requests attempts := by
  have huse : ∀ (response : Response) (world : World), Action.eval (do
      let chars ← Action.ofExcept .undecodable (Text.decodeDocument (← response.read))
      Action.ofExcept .json (Json.read chars)) host world = (response.document, world) := by
    intro response world
    unfold Response.read Response.document readDocument
    rcases response.fault with _ | fault
    · rcases hchars : Text.decodeDocument response.body with error | chars <;>
        simp [hchars, Action.eval_bind, Except.mapError]
    · rfl
  rcases fetch_of_verdict huse retried_document_iff maxAttempts heval with
    ⟨k, hle, hgivenUp, hsettled, hresult, hasked⟩ | ⟨hgivenUp, attempts, last, hresult, hasked⟩
  · obtain ⟨hfails, hbreaks⟩ := reply_yields hnetwork (asked host url world.requests k)
    by_cases hdelivered : ∃ response, Delivered host url world.requests k response
    · obtain ⟨response, hdelivered⟩ := hdelivered
      refine .inl ⟨k, hle, response, hdelivered, hasked, ?_⟩
      rw [hresult, hdelivered.answer, judged, if_pos hdelivered.accepted.status, Response.document,
        hdelivered.accepted.whole]
    · refine .inr ⟨fun l _ response hother => ?_, ?_, _, hasked⟩
      · obtain rfl := hother.index_eq hgivenUp hsettled
        exact hdelivered ⟨response, hother⟩
      · rcases @judged_unread url _ hsettled hfails hbreaks with
          ⟨response, hanswer, haccepted⟩ | ⟨fault, hfault, hunread⟩
        · exact absurd ⟨response, hgivenUp, hanswer, haccepted⟩ hdelivered
        · exact ⟨fault, hresult.trans hfault, hunread⟩
  · refine .inr ⟨fun k hle response hdelivered => ?_, ⟨_, hresult, .told rfl⟩, _, hasked⟩
    exact hdelivered.accepted.not_givenUp (hdelivered.answer ▸ hgivenUp k hle)

end JarRefinery.Http
