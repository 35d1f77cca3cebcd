import JarRefinery.Proofs.Contents
import JarRefinery.Proofs.Files.Receiving

/-!
# What a download asks for

A download makes a temporary file and reads its address before it asks for anything. If both succeed
it asks for the address, whatever becomes of it then, and otherwise it asks for nothing.
-/

namespace JarRefinery.Http

open Action (any)

variable {α β : Type} {host : Host} {world : World} {url : String} {parsed : Url}

/-- What is asked for first to get a document. -/
def firstAddress (url : Url) : String :=
  (if url.isAbsolute then url else url.fromTop).toString

/-- The address was asked for. -/
def Asks (url : String) (before after : World) : Prop :=
  ∃ parsed, Url.parse url = .ok parsed ∧
    before.requests ++ [firstAddress parsed] <+: after.requests

theorem not_asks {before after : World} (hsame : after.requests = before.requests) :
    ¬Asks url before after := by
  rintro ⟨parsed, -, hasked⟩
  have hlength := hasked.length_le
  rw [hsame, List.length_append, List.length_singleton] at hlength
  omega

theorem asked_of_eval {action : Action α} {result : Except Fault α} {after : World}
    (hkeeps : action.Keeps (.asking host world.files.here) any)
    (heval : action.eval host world = (result, after)) : world.requests <+: after.requests := by
  have hstep : world.requests <+: (action.eval host world).2.requests := hkeeps.step rfl trivial
  rwa [heval] at hstep

/-- What was asked for stays so, whatever is done next. -/
theorem asked_bind {action : Action α} {next : α → Action β} {post : α → Prop}
    {asked : List String} (haction : asked <+: (action.eval host world).2.requests)
    (hpost : action.Keeps (.asking host world.files.here) post)
    (hnext : ∀ value, post value → (next value).Keeps (.asking host world.files.here) any) :
    asked <+: ((action >>= next).eval host world).2.requests := by
  rw [Action.eval_bind]
  rcases heval : action.eval host world with ⟨fault | value, after⟩ <;> rw [heval] at haction
  · exact haction
  · have hhere : (action.eval host world).2.files.here = world.files.here := hpost.here rfl trivial
    rw [heval] at hhere
    exact haction.trans ((hnext value (hpost.value rfl trivial heval)).step hhere trivial)

theorem asked_handle {action : Action α} {answers : Fault → Bool} {handler : Fault → Action α}
    {asked : List String} (haction : asked <+: (action.eval host world).2.requests)
    (hhandler : ∀ fault here, (handler fault).Keeps (.asking host here) any) :
    asked <+: ((action.handle answers handler).eval host world).2.requests := by
  rw [Action.eval_handle]
  rcases heval : action.eval host world with ⟨fault | value, after⟩ <;> rw [heval] at haction
  · dsimp only
    split
    · exact haction.trans ((hhandler fault after.files.here).step rfl trivial)
    · exact haction
  · exact haction

theorem send_asks (left : Nat) (url : Url) (world : World) :
    world.requests ++ [url.toString] <+: ((send left url).eval host world).2.requests := by
  have hasking : ∀ here, (Discipline.asking host here).AllowsRequests := fun _ =>
    Discipline.asking.allowsNetwork.toAllowsRequests
  have hexchange : world.requests ++ [url.toString] <+:
      ((exchange url).eval host world).2.requests := by
    have hask : (ask url.toString).eval host world =
        (.ok (host.network world.requests url.toString),
          { world with requests := world.requests ++ [url.toString] }) := rfl
    have hanswered : (answered url (host.network world.requests url.toString)).Keeps
        (.asking host world.files.here) any := (answered_keeps (hasking _) rfl).anyway
    unfold exchange
    rw [Action.eval_bind_ok hask]
    exact (hanswered { world with requests := world.requests ++ [url.toString] } rfl trivial).1
  have hsound := (exchange_keeps (hasking world.files.here) url).anyway
  cases left with
  | zero =>
    refine asked_bind hexchange hsound fun answer _ => ?_
    obtain ⟨response, _ | target⟩ := answer
    · exact .pure trivial
    · exact .throw trivial
  | succ left =>
    refine asked_bind hexchange hsound fun answer _ => ?_
    obtain ⟨response, _ | target⟩ := answer
    · exact .pure trivial
    · exact (send_keeps (hasking _) left target).anyway

section Fetch

variable {use : Response → Action α}

/-- An address that is none is asked for nowhere. -/
theorem eval_fetch_of_flaw {flaw : Url.Flaw} (hparse : Url.parse url = .error flaw)
    (maxAttempts : Int) (world : World) :
    (fetch maxAttempts url use).eval host world = (.error (invalidUrl flaw), world) := by
  have hattempt : (attempt url use).eval host world = (.error (invalidUrl flaw), world) := by
    have hopen : (open_ url).eval host world = (.error (invalidUrl flaw), world) := by
      unfold open_ parseUrl
      rw [hparse]
      rfl
    unfold attempt
    exact Action.eval_bind_error hopen
  unfold fetch
  cases (maxAttempts - 1).toNat <;> rw [attemptsFrom, Action.eval_handle, hattempt] <;> rfl

theorem fetch_asks (hparse : Url.parse url = .ok parsed)
    (huse : ∀ response here, (use response).Keeps (.asking host here) any) (maxAttempts : Int)
    (world : World) : world.requests ++ [firstAddress parsed] <+:
      ((fetch maxAttempts url use).eval host world).2.requests := by
  have hasking : ∀ here, (Discipline.asking host here).AllowsRequests := fun _ =>
    Discipline.asking.allowsNetwork.toAllowsRequests
  have hopen : world.requests ++ [firstAddress parsed] <+:
      ((open_ url).eval host world).2.requests := by
    unfold open_ parseUrl
    rw [hparse]
    exact send_asks redirectLimit _ world
  have hattempt : world.requests ++ [firstAddress parsed] <+:
      ((attempt url use).eval host world).2.requests :=
    asked_bind hopen (open_keeps (hasking _) url) fun response hsound =>
      (checkStatus_keeps hsound).andThen fun _ => huse response _
  unfold fetch
  cases (maxAttempts - 1).toNat with
  | zero =>
    rw [attemptsFrom]
    exact asked_handle hattempt fun _ _ => .throw trivial
  | succ left =>
    rw [attemptsFrom]
    refine asked_handle hattempt fun _ here => ?_
    refine .andThen (.modify fun world hhere _ => ⟨List.prefix_rfl, hhere⟩) fun _ => ?_
    exact attemptsFrom_keeps (d := .asking host here) Discipline.asking.allowsNetwork
      (fun response _ => huse response here) _ _ _

end Fetch

/-! ### Downloads -/

theorem writeBody_asking (piece : Int) (file : Path) (response : Response) (here : Location) :
    (writeBody piece file response).Keeps (.asking host here) any := by
  have hread : response.read.Keeps (.asking host here) any := by
    unfold Response.read
    split
    · exact .pure trivial
    · exact .throw trivial
  unfold writeBody
  refine (writeFile_keeps (Discipline.asking.allowsFiles _) _).andThen fun _ => ?_
  refine .bind (.refuse fun _ => trivial) fun _ _ => ?_
  refine (writePieces_keeps (Discipline.asking.allowsFiles _) _).andThen fun _ => ?_
  refine hread.andThen fun _ => ?_
  exact (writePieces_keeps (Discipline.asking.allowsFiles _) _).andThen fun _ => .pure trivial

variable {maxAttempts : Int} {target : Path}

theorem download_asks (hprepares : world.files.Prepares target) (hparse : Url.parse url = .ok parsed) :
    Asks url world ((download maxAttempts url target).eval host world).2 := by
  obtain ⟨sibling, ready, hnew⟩ := hprepares
  refine ⟨parsed, hparse, ?_⟩
  unfold download downloadBy
  rw [Action.eval_withSibling, hnew]
  dsimp only
  rw [Action.eval_discarding]
  exact asked_bind (fetch_asks hparse (writeBody_asking _ _) maxAttempts { world with files := ready })
    (fetch_keeps Discipline.asking.allowsNetwork (fun response _ => writeBody_asking _ _ response _) _ _)
    fun _ _ => .andThen (.change (Discipline.asking.allowsFiles _) fun tree hhere =>
      hhere ▸ FileTree.rename_change tree sibling target) fun _ => .pure trivial

/-- A download ends as its fetch does if that ends in a fault. -/
theorem eval_download_of_fault {fault : Fault} (hprepares : world.files.Prepares target)
    (hfetch : ∀ (use : Response → Action Nat) (start : World),
      ∃ tried, (fetch maxAttempts url use).eval host start = (.error fault, tried)) :
    ∃ after, (download maxAttempts url target).eval host world = (.error fault, after) := by
  obtain ⟨sibling, ready, hnew⟩ := hprepares
  obtain ⟨tried, htried⟩ := hfetch (writeBody defaultPiece sibling) { world with files := ready }
  unfold download downloadBy
  rw [Action.eval_withSibling, hnew]
  dsimp only
  rw [Action.eval_discarding]
  unfold Action.moving
  rw [Action.eval_bind_error htried]
  exact ⟨_, rfl⟩

/-- A download that cannot begin ends in a fault, and asks for nothing. -/
theorem download_silent
    (hnot : ¬(world.files.Prepares target ∧ ∃ parsed, Url.parse url = .ok parsed)) :
    ∃ fault after, (download maxAttempts url target).eval host world = (.error fault, after) ∧
      after.requests = world.requests := by
  unfold download downloadBy
  rw [Action.eval_withSibling]
  rcases hnew : (FileTree.newSibling target).eval world.files with ⟨error | sibling, ready⟩
  · exact ⟨_, _, rfl, rfl⟩
  rcases hparse : Url.parse url with flaw | parsed
  swap
  · exact absurd ⟨⟨sibling, ready, hnew⟩, parsed, hparse⟩ hnot
  dsimp only
  rw [Action.eval_discarding]
  unfold Action.moving
  rw [Action.eval_bind_error (eval_fetch_of_flaw hparse maxAttempts { world with files := ready })]
  exact ⟨_, _, rfl, rfl⟩

theorem download_asks_iff {result : Except Fault Nat} {after : World}
    (heval : (download maxAttempts url target).eval host world = (result, after)) :
    Asks url world after ↔
      world.files.Prepares target ∧ ∃ parsed, Url.parse url = .ok parsed := by
  constructor
  · intro hasks
    by_contra hnot
    obtain ⟨fault, silent, hsilent, hrequests⟩ := download_silent hnot
    obtain ⟨-, rfl⟩ := Prod.mk.inj (hsilent.symm.trans heval)
    exact not_asks hrequests hasks
  · rintro ⟨hprepares, parsed, hparse⟩
    have hasks : Asks url world ((download maxAttempts url target).eval host world).2 :=
      download_asks hprepares hparse
    rwa [heval] at hasks

end JarRefinery.Http
