import JarRefinery.Proofs.Atomicity

/-!
# How fetching ends

A fetch is a row of attempts. What it comes to was made of the answer to the last of them, and that
answer was a plain success. The faults of the client's own are a final status and too many attempts.
-/

namespace JarRefinery

open Action (any)

namespace Action

variable {α β : Type} {host : Host}

/-- In every world the action ends with a value of which `post` holds or a fault of which `sort`
holds. -/
def Yields (host : Host) (action : Action α) (post : α → Prop) (sort : Fault → Prop) : Prop :=
  ∀ world, match (action.eval host world).1 with
    | .ok value => post value
    | .error fault => sort fault

namespace Yields

variable {post : α → Prop} {sort : Fault → Prop}

theorem fault {action : Action α} (haction : Yields host action post sort) {world after : World}
    {fault : Fault} (heval : action.eval host world = (.error fault, after)) : sort fault := by
  have hends := haction world
  rw [heval] at hends
  exact hends

theorem pure {value : α} (hpost : post value) : Yields host (Pure.pure value) post sort :=
  fun _ => hpost

/-- An action that has no faults. -/
theorem faultless {action : Action α}
    (hvalue : ∀ world, ∃ value, (action.eval host world).1 = .ok value) : Yields host action any sort := by
  intro world
  obtain ⟨value, heval⟩ := hvalue world
  rw [heval]
  trivial

theorem throw {fault : Fault} (hfault : sort fault) :
    Yields host (MonadExcept.throw fault : Action α) post sort :=
  fun _ => hfault

theorem bind {action : Action α} {next : α → Action β} {last : β → Prop}
    (haction : Yields host action post sort)
    (hnext : ∀ value, post value → Yields host (next value) last sort) :
    Yields host (action >>= next) last sort := by
  intro world
  have hfirst := haction world
  rw [eval_bind]
  rcases heval : action.eval host world with ⟨fault | value, after⟩ <;> rw [heval] at hfirst
  · exact hfirst
  · exact hnext value hfirst after

theorem andThen {action : Action α} {next : α → Action β} {last : β → Prop}
    (haction : Yields host action any sort) (hnext : ∀ value, Yields host (next value) last sort) :
    Yields host (action >>= next) last sort :=
  haction.bind fun value _ => hnext value

theorem weaken {action : Action α} {weaker : α → Prop} {wider : Fault → Prop}
    (haction : Yields host action post sort) (hpost : ∀ value, post value → weaker value)
    (hsort : ∀ fault, sort fault → wider fault) : Yields host action weaker wider := by
  intro world
  have hends := haction world
  rcases heval : (action.eval host world).1 with fault | value <;> rw [heval] at hends
  · exact hsort fault hends
  · exact hpost value hends

theorem map {action : Action α} {change : α → β} {last : β → Prop}
    (haction : Yields host action (fun value => last (change value)) sort) :
    Yields host (change <$> action) last sort := by
  rw [map_eq_pure_bind]
  exact haction.bind fun _ hvalue => .pure hvalue

theorem refuse {so : Bool} {fault : Fault} (hfault : so = true → sort fault) :
    Yields host (Action.refuse so fault) any sort := by
  cases so with
  | false => exact .pure trivial
  | true => exact .throw (hfault rfl)

theorem ofExcept {ε : Type} {fault : ε → Fault} {result : Except ε α}
    (hpost : ∀ value, result = .ok value → post value)
    (hfault : ∀ error, result = .error error → sort (fault error)) :
    Yields host (Action.ofExcept fault result) post sort := by
  cases result with
  | ok value => exact .pure (hpost value rfl)
  | error error => exact .throw (hfault error rfl)

theorem onFiles (operation : FileTree.Action α) (hsort : ∀ error, sort (.ofFile error)) :
    Yields host (Action.onFiles operation) any sort := by
  intro world
  rw [eval_onFiles]
  rcases operation.eval world.files with ⟨error | value, files⟩
  · exact hsort error
  · trivial

theorem handle {answers : Fault → Bool} {handler : Fault → Action α} {action : Action α}
    {first : Fault → Prop} (haction : Yields host action post first)
    (hhandler : ∀ fault, answers fault = true → Yields host (handler fault) post sort)
    (hleft : ∀ fault, answers fault = false → first fault → sort fault) :
    Yields host (action.handle answers handler) post sort := by
  intro world
  have hends := haction world
  rw [eval_handle]
  rcases heval : action.eval host world with ⟨fault | value, after⟩ <;> rw [heval] at hends
  · cases hanswers : answers fault with
    | true => simpa [hanswers] using hhandler fault hanswers after
    | false => simpa [hanswers] using hleft fault hanswers hends
  · exact hends

theorem explain {answers : Fault → Bool} {outer : Fault → Fault} {action : Action α}
    (haction : Yields host action post sort) (houter : ∀ fault, sort (.because (outer fault) fault)) :
    Yields host (action.explain answers outer) post sort :=
  haction.handle (fun fault _ => .throw (houter fault)) fun _ _ hfault => hfault

theorem forM {γ : Type} {items : List γ} {action : γ → Action PUnit}
    (haction : ∀ item, Yields host (action item) any sort) : Yields host (items.forM action) any sort := by
  induction items with
  | nil => exact .pure trivial
  | cons item rest ih =>
    change Yields host (action item >>= fun _ => rest.forM action) any sort
    exact (haction item).andThen fun _ => ih

theorem mapM {γ : Type} {items : List γ} {action : γ → Action β} {last : γ → β → Prop}
    (haction : ∀ item ∈ items, Yields host (action item) (last item) sort) :
    Yields host (items.mapM action) (List.Forall₂ last items) sort := by
  induction items with
  | nil => exact .pure .nil
  | cons item rest ih =>
    rw [List.mapM_cons]
    refine (haction item List.mem_cons_self).bind fun first hfirst => ?_
    exact (ih fun other hother => haction other (List.mem_cons_of_mem _ hother)).bind
      fun others hothers => .pure (.cons hfirst hothers)

end Yields

/-- In every world whose files have the property the action ends so, and they have it in the end. -/
def Settles (host : Host) (inv : FileTree → Prop) (action : Action α) (post : α → Prop)
    (sort : Fault → Prop) : Prop :=
  ∀ world, inv world.files → inv (action.eval host world).2.files ∧
    match (action.eval host world).1 with
    | .ok value => post value
    | .error fault => sort fault

theorem yields_iff_settles {action : Action α} {post : α → Prop} {sort : Fault → Prop} :
    Yields host action post sort ↔ Settles host (fun _ => True) action post sort :=
  ⟨fun hyields world _ => ⟨trivial, hyields world⟩, fun hsettles world => (hsettles world trivial).2⟩

theorem Yields.settles {action : Action α} {post : α → Prop} {sort : Fault → Prop}
    {inv : FileTree → Prop} (hyields : Yields host action post sort)
    (hstill : ∀ world, (action.eval host world).2.files = world.files) :
    Settles host inv action post sort :=
  fun world hinv => ⟨(hstill world).symm ▸ hinv, hyields world⟩

namespace Settles

variable {inv : FileTree → Prop} {post : α → Prop} {sort : Fault → Prop}

theorem pure {value : α} (hpost : post value) : Settles host inv (Pure.pure value) post sort :=
  fun _ hinv => ⟨hinv, hpost⟩

theorem throw {fault : Fault} (hfault : sort fault) :
    Settles host inv (MonadExcept.throw fault : Action α) post sort :=
  fun _ hinv => ⟨hinv, hfault⟩

theorem bind {action : Action α} {next : α → Action β} {last : β → Prop}
    (haction : Settles host inv action post sort)
    (hnext : ∀ value, post value → Settles host inv (next value) last sort) :
    Settles host inv (action >>= next) last sort := by
  intro world hinv
  have hfirst := haction world hinv
  rw [eval_bind]
  rcases heval : action.eval host world with ⟨fault | value, after⟩ <;> rw [heval] at hfirst
  · exact hfirst
  · exact hnext value hfirst.2 after hfirst.1

theorem andThen {action : Action α} {next : α → Action β} {last : β → Prop}
    (haction : Settles host inv action any sort)
    (hnext : ∀ value, Settles host inv (next value) last sort) :
    Settles host inv (action >>= next) last sort :=
  haction.bind fun value _ => hnext value

theorem map {action : Action α} {change : α → β} {last : β → Prop}
    (haction : Settles host inv action (fun value => last (change value)) sort) :
    Settles host inv (change <$> action) last sort := by
  rw [map_eq_pure_bind]
  exact haction.bind fun _ hvalue => .pure hvalue

theorem weaken {action : Action α} {weaker : α → Prop} {wider : Fault → Prop}
    (haction : Settles host inv action post sort) (hpost : ∀ value, post value → weaker value)
    (hsort : ∀ fault, sort fault → wider fault) : Settles host inv action weaker wider := by
  intro world hinv
  obtain ⟨hafter, hends⟩ := haction world hinv
  refine ⟨hafter, ?_⟩
  rcases heval : (action.eval host world).1 with fault | value <;> rw [heval] at hends
  · exact hsort fault hends
  · exact hpost value hends

theorem refuse {so : Bool} {fault : Fault} (hfault : so = true → sort fault) :
    Settles host inv (Action.refuse so fault) any sort := by
  cases so with
  | false => exact .pure trivial
  | true => exact .throw (hfault rfl)

theorem ofExcept {ε : Type} {fault : ε → Fault} {result : Except ε α}
    (hpost : ∀ value, result = .ok value → post value)
    (hfault : ∀ error, result = .error error → sort (fault error)) :
    Settles host inv (Action.ofExcept fault result) post sort := by
  cases result with
  | ok value => exact .pure (hpost value rfl)
  | error error => exact .throw (hfault error rfl)

theorem handle {answers : Fault → Bool} {handler : Fault → Action α} {action : Action α}
    {first : Fault → Prop} (haction : Settles host inv action post first)
    (hhandler : ∀ fault, answers fault = true → first fault →
      Settles host inv (handler fault) post sort)
    (hleft : ∀ fault, answers fault = false → first fault → sort fault) :
    Settles host inv (action.handle answers handler) post sort := by
  intro world hinv
  obtain ⟨hafter, hends⟩ := haction world hinv
  rw [eval_handle]
  rcases heval : action.eval host world with ⟨fault | value, after⟩ <;> rw [heval] at hafter hends
  · cases hanswers : answers fault with
    | true => simpa [hanswers] using hhandler fault hanswers hends after hafter
    | false => simpa [hanswers] using ⟨hafter, hleft fault hanswers hends⟩
  · exact ⟨hafter, hends⟩

theorem explain {answers : Fault → Bool} {outer : Fault → Fault} {action : Action α}
    {first : Fault → Prop} (haction : Settles host inv action post first)
    (houter : ∀ fault, answers fault = true → first fault → sort (.because (outer fault) fault))
    (hleft : ∀ fault, answers fault = false → first fault → sort fault) :
    Settles host inv (action.explain answers outer) post sort :=
  haction.handle (fun fault hanswers hfirst => .throw (houter fault hanswers hfirst)) hleft

end Settles

theorem discarding_yields {action : Action α} {path : Path} {post : α → Prop} {sort : Fault → Prop}
    (haction : Yields host action post sort) : Yields host (action.discarding path) post sort := by
  intro world
  have hends := haction world
  rw [eval_discarding]
  exact hends

theorem withSibling_yields {target : Path} {use : Path → Action α} {post : α → Prop}
    {sort : Fault → Prop} (hfiles : ∀ error, sort (.ofFile error))
    (huse : ∀ sibling, Yields host (use sibling) post sort) :
    Yields host (Action.withSibling target use) post sort :=
  .andThen (.onFiles _ hfiles) fun sibling => discarding_yields (huse sibling)

theorem moving_yields {sibling target : Path} {fill : Action α} {post : α → Prop}
    {sort : Fault → Prop} (hfiles : ∀ error, sort (.ofFile error))
    (hfill : Yields host fill post sort) : Yields host (Action.moving sibling target fill) post sort :=
  hfill.bind fun _ hvalue => .andThen (.onFiles _ hfiles) fun _ => .pure hvalue

end Action

namespace Http

variable {α : Type} {host : Host}

/-- The faults that requests have of their own: addresses that are none, and redirects without
end. -/
inductive Misdirected : Fault → Prop
  | address (flaw : Url.Flaw) : Misdirected (invalidUrl flaw)
  | location (flaw : Url.Flaw) : Misdirected (invalidLocation flaw)
  | scheme (text : String) : Misdirected (.value text)
  | redirects (text : String) : Misdirected (.of .tooManyRedirects text)

/-- The same faults, with the texts that they have. -/
inductive Astray : Fault → Prop
  | address (flaw : Url.Flaw) : Astray (invalidUrl flaw)
  | location (flaw : Url.Flaw) : Astray (invalidLocation flaw)
  | scheme (url : Url) : Astray (.value ("unknown url type: " ++ Text.quote url.toString))
  | redirects : Astray (.of .tooManyRedirects "Exceeded maximum allowed redirects.")

theorem Astray.misdirected {fault : Fault} (hfault : Astray fault) : Misdirected fault := by
  cases hfault with
  | address flaw => exact .address flaw
  | location flaw => exact .location flaw
  | scheme url => exact .scheme _
  | redirects => exact .redirects _

/-- What the network itself fails with is of this sort. -/
structure FailsWith (host : Host) (sort : Fault → Prop) : Prop where
  failure : ∀ past address fault, host.network past address = .failure fault → sort fault
  broken : ∀ past address status location body fault,
    host.network past address = .response status location body (some fault) → sort fault

theorem FailsWith.mono {sort wider : Fault → Prop} (hnetwork : FailsWith host sort)
    (hsort : ∀ fault, sort fault → wider fault) : FailsWith host wider where
  failure := fun past address fault hreply => hsort fault (hnetwork.failure past address fault hreply)
  broken := fun past address status location body fault hreply =>
    hsort fault (hnetwork.broken past address status location body fault hreply)

/-- A network that answers everything whole never fails. -/
theorem FailsWith.of_whole {sort : Fault → Prop} (hwhole : ∀ past address, ∃ status location body,
    host.network past address = .response status location body none) : FailsWith host sort where
  failure := by
    intro past address fault hreply
    obtain ⟨_, _, _, hother⟩ := hwhole past address
    cases hreply.symm.trans hother
  broken := by
    intro past address _ _ _ fault hreply
    obtain ⟨_, _, _, hother⟩ := hwhole past address
    cases hreply.symm.trans hother

theorem isRetried_transientStatus (code : Nat) : isRetried (.transientStatus code) = true :=
  rfl

section Sorts

variable {sort : Fault → Prop} (hnetwork : FailsWith host sort)
  (hown : ∀ fault, Astray fault → sort fault)

/-- A body that breaks off does so with a fault of the sort. -/
def Response.BreaksWith (sort : Fault → Prop) (response : Response) : Prop :=
  ∀ fault, response.fault = some fault → sort fault

theorem Response.BreaksWith.read_yields {response : Response} (hbreaks : response.BreaksWith sort) :
    Action.Yields host response.read any sort := by
  unfold Response.read
  split
  · exact .pure trivial
  · rename_i fault hfault
    exact .throw (hbreaks fault hfault)

include hown

theorem redirectUrl_yields (url : Url) (location : String) :
    Action.Yields host (redirectUrl url location) any sort := by
  unfold redirectUrl
  refine .andThen (.ofExcept (fun _ _ => trivial) fun _ _ => hown _ (.location _)) fun parsed => ?_
  refine .andThen (.ofExcept (fun _ _ => trivial) fun _ _ => hown _ (.address _)) fun hosted => ?_
  exact .andThen (.ofExcept (fun _ _ => trivial) fun _ _ => hown _ (.address _)) fun _ =>
    .pure trivial

include hnetwork

theorem exchange_yields (url : Url) :
    Action.Yields host (exchange url) (fun answer => answer.1.BreaksWith sort) sort := by
  have hask : Action.Yields host (ask url.toString)
      (fun reply => ∃ past, host.network past url.toString = reply) sort :=
    fun world => ⟨world.requests, rfl⟩
  refine hask.bind fun reply ⟨past, hreply⟩ => ?_
  cases reply with
  | failure fault => exact .throw (hnetwork.failure _ _ fault hreply)
  | response status location body fault =>
    have hbreaks : Response.BreaksWith sort ⟨status, body, fault⟩ := fun broken hbroken =>
      hnetwork.broken _ _ status location body broken (by rw [hreply, ← hbroken])
    refine .andThen (.refuse fun _ => hown _ (.scheme _)) fun _ => ?_
    dsimp only
    split
    · exact (redirectUrl_yields hown _ _).andThen fun _ =>
        hbreaks.read_yields.andThen fun _ => .pure hbreaks
    · exact .pure hbreaks

theorem open_yields (url : String) :
    Action.Yields host (open_ url) (Response.BreaksWith sort) sort := by
  have hsend : ∀ left url, Action.Yields host (send left url) (Response.BreaksWith sort) sort := by
    intro left
    induction left with
    | zero =>
      intro url
      refine (exchange_yields hnetwork hown url).bind fun answer hanswer => ?_
      obtain ⟨response, _ | target⟩ := answer
      · exact .pure hanswer
      · exact .throw (hown _ .redirects)
    | succ left ih =>
      intro url
      refine (exchange_yields hnetwork hown url).bind fun answer hanswer => ?_
      obtain ⟨response, _ | target⟩ := answer
      · exact .pure hanswer
      · exact ih target
  exact .andThen (.ofExcept (fun _ _ => trivial) fun _ _ => hown _ (.address _)) fun _ => hsend _ _

/-- A final status, too many attempts, or a fault of the sort that no further attempt may mend. -/
inductive FetchFault (url : String) (sort : Fault → Prop) : Fault → Prop
  | status (code : Nat) (body : String) : FetchFault url sort (.badStatus url code body)
  | retries (attempts : Nat) (last : Fault) : FetchFault url sort (.retriesExceeded url attempts last)
  | other {fault : Fault} : sort fault → isRetried fault = false → FetchFault url sort fault

/-- What uses an answer may rely on files that the attempts leave alone. -/
theorem fetch_settles {inv : FileTree → Prop} {use : Response → Action α} {post : α → Prop}
    (huse : ∀ response, response.BreaksWith sort → Action.Settles host inv (use response) post sort)
    (maxAttempts : Int) (url : String) :
    Action.Settles host inv (fetch maxAttempts url use) post (FetchFault url sort) := by
  have hattempt : Action.Settles host inv (attempt url use) post fun fault =>
      isRetried fault = false → FetchFault url sort fault := by
    have hother : ∀ fault, sort fault → isRetried fault = false → FetchFault url sort fault :=
      fun _ hsort hretried => .other hsort hretried
    have hopen : Action.Settles host inv (open_ url) (Response.BreaksWith sort) sort :=
      (open_yields hnetwork hown url).settles (Action.files_eq_of_still fun _ =>
        (open_keeps Discipline.still.allowsNetwork.toAllowsRequests url).anyway)
    unfold attempt
    refine (hopen.weaken (fun _ hvalue => hvalue) hother).bind fun response hresponse => ?_
    refine .andThen ?_ fun _ => (huse response hresponse).weaken (fun _ hvalue => hvalue) hother
    unfold checkStatus
    split
    · exact .pure trivial
    split
    · exact .throw fun hretried => absurd hretried (by simp [isRetried_transientStatus])
    · refine .andThen ?_ fun _ => .throw fun _ => .status _ _
      unfold Response.read
      split
      · exact .pure trivial
      · rename_i fault hfault
        exact .throw (hother fault (hresponse fault hfault))
  have hattempts : ∀ left n, Action.Settles host inv (attemptsFrom url use left n) post
      (FetchFault url sort) := by
    intro left
    induction left with
    | zero =>
      exact fun n => hattempt.handle (fun fault _ _ => .throw (.retries _ _))
        fun fault hretried hfault => hfault hretried
    | succ left ih =>
      refine fun n => hattempt.handle (fun fault _ _ => ?_)
        fun fault hretried hfault => hfault hretried
      exact .andThen (fun _ hinv => ⟨hinv, trivial⟩) fun _ => ih (n + 1)
  exact hattempts _ _

theorem fetch_yields {use : Response → Action α} {post : α → Prop}
    (huse : ∀ response, response.BreaksWith sort → Action.Yields host (use response) post sort)
    (maxAttempts : Int) (url : String) :
    Action.Yields host (fetch maxAttempts url use) post (FetchFault url sort) :=
  Action.yields_iff_settles.mpr (fetch_settles hnetwork hown
    (fun response hbreaks => Action.yields_iff_settles.mp (huse response hbreaks)) maxAttempts url)

omit hnetwork hown in
theorem isRetried_ofFile (error : FileError) : isRetried (.ofFile error) = false := by
  obtain error | _ := error
  · obtain ⟨code, _⟩ := error
    cases code <;> rfl
  · rfl

variable (hfiles : ∀ error, sort (.ofFile error))

include hfiles

omit hnetwork hown in
theorem writePieces_yields (file : Path) (pieces : List Bytes) :
    (writePieces file pieces).Yields host any sort := by
  induction pieces with
  | nil => exact .pure trivial
  | cons piece rest ih =>
    exact .andThen (.onFiles _ hfiles) fun _ => ih.andThen fun _ => .pure trivial

omit hnetwork hown in
theorem writeBody_yields {piece : Int} (hpiece : 0 < piece) (file : Path) {response : Response}
    (hbreaks : response.BreaksWith sort) :
    (writeBody piece file response).Yields host any sort := by
  unfold writeBody
  refine .andThen (.onFiles _ hfiles) fun _ => ?_
  refine .andThen (.refuse fun hso => ?_) fun _ => ?_
  · exact absurd (of_decide_eq_true hso).1 (not_le.mpr hpiece)
  · refine (writePieces_yields hfiles file _).andThen fun _ => ?_
    refine hbreaks.read_yields.andThen fun _ => ?_
    exact (writePieces_yields hfiles file _).andThen fun _ => .pure trivial

theorem download_yields (maxAttempts : Int) (url : String) (target : Path) :
    (download maxAttempts url target).Yields host any (FetchFault url sort) := by
  have hother : ∀ error, FetchFault url sort (.ofFile error) := fun error =>
    .other (hfiles error) (isRetried_ofFile error)
  refine Action.withSibling_yields hother fun sibling => Action.moving_yields hother ?_
  exact fetch_yields hnetwork hown
    (fun response hbreaks => writeBody_yields hfiles (by decide) _ hbreaks) _ _

end Sorts

section Answers

variable {text : String} {url : Url} {status : Nat} {body : Bytes}

/-- An address that always answers is asked once. -/
theorem eval_open_of_reply (hparse : Url.parse text = .ok url) (habsolute : url.isAbsolute = true)
    (hreply : ∀ past, host.network past url.toString = .response status none body none)
    (world : World) : (open_ text).eval host world =
      (.ok ⟨status, body, none⟩, { world with requests := world.requests ++ [url.toString] }) := by
  have hask : (ask url.toString).eval host world = (.ok (.response status none body none),
      { world with requests := world.requests ++ [url.toString] }) :=
    Prod.ext (congrArg Except.ok (hreply world.requests)) rfl
  unfold open_ parseUrl
  rw [hparse, Action.eval_bind_ok (Action.eval_ofExcept _ _ _ _), habsolute, if_pos rfl]
  unfold redirectLimit send exchange answered
  rw [Action.eval_bind, Action.eval_bind_ok hask]
  simp only [habsolute]
  cases redirectStatuses.contains status <;> rfl

/-- An answer that is final and no success ends the attempts. -/
theorem eval_fetch_of_refusal {use : Response → Action α} (hparse : Url.parse text = .ok url)
    (habsolute : url.isAbsolute = true) (hstatus : status ≠ 200)
    (hfinal : transientStatuses.contains status = false)
    (hreply : ∀ past, host.network past url.toString = .response status none body none)
    (maxAttempts : Int) (world : World) : (fetch maxAttempts text use).eval host world =
      (.error (.badStatus text status (Text.strip (Text.Utf8.decodeReplacing (body.take shownBytes)))),
        { world with requests := world.requests ++ [url.toString] }) := by
  have hattempt : (attempt text use).eval host world =
      (.error (.badStatus text status (Text.strip (Text.Utf8.decodeReplacing (body.take shownBytes)))),
        { world with requests := world.requests ++ [url.toString] }) := by
    unfold attempt
    rw [Action.eval_bind_ok (eval_open_of_reply hparse habsolute hreply world)]
    unfold checkStatus
    rw [if_neg hstatus, hfinal]
    rfl
  unfold fetch
  cases (maxAttempts - 1).toNat <;> rw [attemptsFrom, Action.eval_handle, hattempt] <;> rfl

theorem eval_getJson_of_reply (hparse : Url.parse text = .ok url) (habsolute : url.isAbsolute = true)
    (hreply : ∀ past, host.network past url.toString = .response 200 none body none)
    {chars : List Char} {json : Json} (hchars : Text.decodeDocument body = .ok chars)
    (hjson : Json.read chars = .ok json) (maxAttempts : Int) (world : World) :
    (getJson maxAttempts text).eval host world =
      (.ok json, { world with requests := world.requests ++ [url.toString] }) := by
  unfold getJson fetch
  have hattempt : (attempt text fun response => do
      let chars ← Action.ofExcept .undecodable (Text.decodeDocument (← response.read))
      Action.ofExcept .json (Json.read chars)).eval host world =
        (.ok json, { world with requests := world.requests ++ [url.toString] }) := by
    unfold attempt
    rw [Action.eval_bind_ok (eval_open_of_reply hparse habsolute hreply world)]
    simp [checkStatus, Response.read, hchars, hjson, Action.ofExcept]
  cases (maxAttempts - 1).toNat <;> rw [attemptsFrom, Action.eval_handle, hattempt]

end Answers

end Http

end JarRefinery
