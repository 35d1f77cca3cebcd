import JarRefinery.Http.Client
import JarRefinery.Proofs.Discipline

/-!
# Requests

Getting a document asks the network and waits between attempts, and does nothing else to the world
by itself. What becomes of the answer is up to its use.
-/

namespace JarRefinery

/-- Some address answers with this document. -/
def Host.Delivers (host : Host) (json : Json) : Prop :=
  ∃ past address status location body fault chars,
    host.network past address = .response status location body fault ∧
      Text.decodeDocument body = .ok chars ∧ Json.read chars = .ok json

namespace Http

open Action (any)

variable {α : Type} {d : Discipline}

theorem parseUrl_keeps (text : String) : (parseUrl text).Keeps d any :=
  .ofExcept (fun _ _ => rfl) fun _ _ => trivial

theorem redirectUrl_keeps (url : Url) (location : String) :
    (redirectUrl url location).Keeps d any := by
  unfold redirectUrl
  refine .andThen (.ofExcept (fun _ _ => rfl) fun _ _ => trivial) fun parsed => ?_
  refine .andThen (.ofExcept (fun _ _ => rfl) fun _ _ => trivial) fun hosted => ?_
  exact .andThen (.ofExcept (fun _ _ => rfl) fun _ _ => trivial) fun absolute => .pure trivial

/-- A response that the network gave. If its body breaks off it does so with a fault that the
discipline admits. -/
structure Response.Sound (d : Discipline) (response : Response) : Prop where
  given : ∃ past address location,
    d.host.network past address = .response response.status location response.body response.fault
  faults : ∀ fault, response.fault = some fault → d.faults fault

theorem Response.Sound.read_value {response : Response} (hsound : response.Sound d) :
    response.read.Keeps d (· = response.body) := by
  unfold Response.read
  split
  · exact .pure rfl
  · rename_i fault hfault
    exact .throw (hsound.faults fault hfault)

theorem Response.Sound.read_keeps {response : Response} (hsound : response.Sound d) :
    response.read.Keeps d any :=
  hsound.read_value.anyway

section Requests

variable (hrequests : d.AllowsRequests)

include hrequests

theorem ask_keeps (address : String) :
    (ask address).Keeps d fun reply => ∃ past, d.host.network past address = reply :=
  fun world hhere _ => ⟨hrequests.ask world address, hhere, world.requests, rfl⟩

theorem answered_keeps {url : Url} {reply : Reply} {past : List String}
    (hreply : d.host.network past url.toString = reply) :
    (answered url reply).Keeps d fun answer => answer.1.Sound d := by
  cases reply with
  | failure fault => exact .throw (hrequests.failure past _ fault hreply)
  | response status location body fault =>
    have hsound : Response.Sound d ⟨status, body, fault⟩ :=
      ⟨⟨past, _, location, hreply⟩, fun broken hbroken =>
        hrequests.broken past _ status location body broken (by rw [hreply, ← hbroken])⟩
    refine .bind (.refuse fun _ => d.ordinary _ rfl) fun _ _ => ?_
    dsimp only
    split
    · exact .andThen (redirectUrl_keeps _ _) fun target =>
        hsound.read_keeps.andThen fun _ => .pure hsound
    · exact .pure hsound

theorem exchange_keeps (url : Url) :
    (exchange url).Keeps d fun answer => answer.1.Sound d :=
  (ask_keeps hrequests _).bind fun _ ⟨_, hreply⟩ => answered_keeps hrequests hreply

theorem send_keeps (left : Nat) (url : Url) : (send left url).Keeps d (Response.Sound d) := by
  induction left generalizing url with
  | zero =>
    unfold send
    refine (exchange_keeps hrequests url).bind fun answer hsound => ?_
    obtain ⟨response, _ | target⟩ := answer
    · exact .pure hsound
    · exact .throw (d.ordinary _ rfl)
  | succ left ih =>
    unfold send
    refine (exchange_keeps hrequests url).bind fun answer hsound => ?_
    obtain ⟨response, _ | target⟩ := answer
    · exact .pure hsound
    · exact ih target

theorem open_keeps (url : String) : (open_ url).Keeps d (Response.Sound d) :=
  (parseUrl_keeps url).andThen fun _ => send_keeps hrequests _ _

omit hrequests in
theorem checkStatus_keeps {url : String} {response : Response} (hsound : response.Sound d) :
    (checkStatus url response).Keeps d any := by
  unfold checkStatus
  split
  · exact .pure trivial
  split
  · exact .throw (d.ordinary _ rfl)
  · exact hsound.read_keeps.andThen fun _ => .throw (d.ordinary _ rfl)

theorem attempt_keeps {use : Response → Action α} {post : α → Prop}
    (huse : ∀ response, response.Sound d → (use response).Keeps d post) (url : String) :
    (attempt url use).Keeps d post := by
  refine (open_keeps hrequests url).bind fun response hsound => ?_
  exact (checkStatus_keeps hsound).andThen fun _ => huse response hsound

end Requests

variable (hnetwork : d.AllowsNetwork)

include hnetwork

section Attempts

variable {use : Response → Action α} {post : α → Prop}
  (huse : ∀ response, response.Sound d → (use response).Keeps d post)

include huse

theorem attemptsFrom_keeps (url : String) (left n : Nat) :
    (attemptsFrom url use left n).Keeps d post := by
  induction left generalizing n with
  | zero =>
    exact (attempt_keeps hnetwork.toAllowsRequests huse url).handle fun _ _ _ => .throw (d.ordinary _ rfl)
  | succ left ih =>
    refine (attempt_keeps hnetwork.toAllowsRequests huse url).handle fun _ _ _ => ?_
    refine .andThen (.modify fun world hhere _ => ⟨hnetwork.wait world _, hhere⟩) fun _ => ?_
    exact ih (n + 1)

/-- All attempts together keep to what the use of an answer keeps to. -/
theorem fetch_keeps (maxAttempts : Int) (url : String) : (fetch maxAttempts url use).Keeps d post :=
  attemptsFrom_keeps hnetwork huse url _ 1

end Attempts

/-- A document is what the network delivers. -/
theorem getJson_delivered (maxAttempts : Int) (url : String) :
    (getJson maxAttempts url).Keeps d d.host.Delivers := by
  refine fetch_keeps hnetwork (fun response hsound => ?_) maxAttempts url
  obtain ⟨past, address, location, hreply⟩ := hsound.given
  refine hsound.read_value.bind ?_
  rintro _ rfl
  have hchars : (Action.ofExcept .undecodable (Text.decodeDocument response.body)).Keeps d
      fun chars => Text.decodeDocument response.body = .ok chars :=
    .ofExcept (fun _ _ => rfl) fun _ hvalue => hvalue
  refine hchars.bind fun chars hchars => .ofExcept (fun error _ => ?_) fun json hjson => ?_
  · cases error <;> rfl
  · exact ⟨past, address, _, location, _, _, chars, hreply, hchars, hjson⟩

theorem getJson_keeps (maxAttempts : Int) (url : String) : (getJson maxAttempts url).Keeps d any :=
  (getJson_delivered hnetwork maxAttempts url).anyway

end Http

end JarRefinery
