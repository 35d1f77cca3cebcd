import JarRefinery.Proofs.Course
import JarRefinery.Proofs.Files.Hidden

/-!
# Worlds that are alike

Two worlds are alike if they differ in no more than their logs, their waits, what was asked for before
and files that are not seen. Two operations match if on alike worlds, under networks that give the
same answers to all that the first of them asks for, they end in the same way and leave alike worlds.
This module puts matching operations together.
-/

namespace JarRefinery

open Action (any)

/-- The names of the records that a run keeps. -/
def recordNames : List String := ["events.jsonl", "run_report.json"]

/-- What tools do does not depend on what the files at these places hold. -/
def Host.IsBlindTo (host : Host) (hidden : List Location) : Prop :=
  ∀ calls call (files others : FileTree), files.veiled hidden = others.veiled hidden →
    (host.tools calls call files).1 = (host.tools calls call others).1 ∧
      (host.tools calls call files).2.veiled hidden = (host.tools calls call others).2.veiled hidden

/-- What tools do does not depend on what stands at the places that are gone either. -/
def Host.Overlooks (host : Host) (gone : Set Location) (hidden : List Location) : Prop :=
  ∀ calls call (files others : FileTree),
    (files.without gone).veiled hidden = (others.without gone).veiled hidden →
    (host.tools calls call files).1 = (host.tools calls call others).1 ∧
      ((host.tools calls call files).2.without gone).veiled hidden =
        ((host.tools calls call others).2.without gone).veiled hidden

theorem Host.IsBlindTo.overlooks {host : Host} {hidden : List Location}
    (hblind : host.IsBlindTo hidden) : host.Overlooks ∅ hidden := by
  intro calls call files others
  simpa only [FileTree.without_empty] using hblind calls call files others

/-- What is not seen when worlds are compared. The first world has its network from the host, the
second one has another. What was asked for before the comparison begins may differ; from then on both
networks answer the same to addresses that are shared. -/
structure Likeness extends FileTree.View where
  host : Host
  network : List String → String → Reply
  asked : List String
  askedOther : List String
  shared : Set String
  agree : ∀ past, ∀ address ∈ shared,
    host.network (asked ++ past) address = network (askedOther ++ past) address
  named : ∀ location ∈ hidden, ∃ name ∈ recordNames, location.getLast? = some name
  tools : host.Overlooks gone hidden
  dotless : gone.Nonempty → ∀ calls call (files : FileTree), files.Dotless →
    (host.tools calls call files).2.Dotless

namespace Likeness

/-- All is compared but for what the files at the hidden places hold. -/
def veiling (host : Host) (here : Location) (hidden : List Location)
    (hnamed : ∀ location ∈ hidden, ∃ name ∈ recordNames, location.getLast? = some name)
    (htools : host.IsBlindTo hidden) : Likeness where
  here := here
  hidden := hidden
  gone := ∅
  closed := fun hgone _ => hgone
  rooted := fun hgone => absurd hgone Set.not_nonempty_empty
  host := host
  network := host.network
  asked := []
  askedOther := []
  shared := Set.univ
  agree := fun _ _ _ => rfl
  named := hnamed
  tools := htools.overlooks
  dotless := fun hgone => absurd hgone Set.not_nonempty_empty

variable (l : Likeness)

/-- What the second world has around it. -/
def other : Host :=
  { l.host with network := l.network }

/-- A path to files that are not hidden. -/
def Sees (path : Path) : Prop :=
  ∀ here, path.normal here ∉ l.hidden

/-- A jar that is seen, in the official names. -/
structure Shows (artifact : Artifact) : Prop where
  sees : l.Sees artifact.path
  clear : l.Clear artifact.path
  space : artifact.space = officialNamespace

/-- What later stages read of what has been handed on is seen. -/
structure Legible (state : RunState) : Prop where
  primary : ∀ artifact, state.primary = some artifact → l.Shows artifact
  payload : ∀ artifact, state.payload = some artifact → l.Shows artifact
  stripped : ∀ artifact, state.stripped = some artifact → artifact.space = officialNamespace
  sets : ∀ set ∈ state.mappingSets, set.name = intermediaryNamespace ∨ set.name = namedNamespace

structure Alike (first second : World) : Prop where
  files : FileTree.Alike l.toView first.files second.files
  requests : ∃ past, first.requests = l.asked ++ past ∧ second.requests = l.askedOther ++ past
  calls : first.calls = second.calls
  state : first.state = second.state
  legible : l.Legible first.state

/-- Something was asked for to which the networks need not answer the same. -/
def Strayed (world : World) : Prop :=
  ∃ past, world.requests = l.asked ++ past ∧ ∃ address ∈ past, address ∉ l.shared

/-- What the first operations may rely on. -/
structure Sound (world : World) : Prop where
  legible : l.Legible world.state
  dotless : l.gone.Nonempty → world.files.Dotless

/-- The first operations ask for more and more. -/
def growing : Discipline where
  host := l.host
  here := l.here
  inv := l.Sound
  step := fun before after =>
    before.requests <+: after.requests ∧ (l.Sound before → l.Sound after)
  faults := fun _ => True
  refl := fun _ => ⟨List.prefix_rfl, id⟩
  trans := fun hfirst hsecond =>
    ⟨hfirst.1.trans hsecond.1, fun hsound => hsecond.2 (hfirst.2 hsound)⟩
  keep := fun hstep hsound => hstep.2 hsound
  ordinary := fun _ _ => trivial

variable {l}

theorem growing_allowsNetwork : l.growing.AllowsNetwork where
  ask := fun _ _ => ⟨List.prefix_append _ _, fun hsound => ⟨hsound.legible, hsound.dotless⟩⟩
  failure := fun _ _ _ _ => trivial
  broken := fun _ _ _ _ _ _ _ => trivial
  wait := fun _ _ => ⟨List.prefix_rfl, fun hsound => ⟨hsound.legible, hsound.dotless⟩⟩

theorem Strayed.later {before after : World} (hstrayed : l.Strayed before)
    (hgrown : before.requests <+: after.requests) : l.Strayed after := by
  obtain ⟨past, hpast, address, hmem, haddress⟩ := hstrayed
  obtain ⟨more, hmore⟩ := hgrown
  exact ⟨past ++ more, by rw [← hmore, hpast, List.append_assoc], address,
    List.mem_append_left _ hmem, haddress⟩

theorem siblingName_notMem (name : String) (n : Nat) :
    FileTree.siblingName name n ∉ recordNames := by
  intro hmem
  have hhead : (FileTree.siblingName name n).toList.head? = some '.' := by
    simp [FileTree.siblingName]
  simp only [recordNames, List.mem_cons, List.not_mem_nil, or_false] at hmem
  rcases hmem with heq | heq <;> simp [heq] at hhead

theorem sees_of_endsIn {path : Path} {name : String} (hends : path.EndsIn name)
    (hname : name ∉ recordNames) : l.Sees path := by
  intro here hhidden
  obtain ⟨other, hother, hlast⟩ := l.named _ hhidden
  rw [hends here] at hlast
  exact hname (Option.some.inj hlast ▸ hother)

theorem sees_sibling (directory : Location) (name : String) (n : Nat) :
    l.Sees (.ofLocation (directory ++ [FileTree.siblingName name n])) := by
  refine sees_of_endsIn (fun here => ?_) (siblingName_notMem name n)
  have hdots := FileTree.siblingName_ne_dots name n
  change (Path.walk [] (directory ++ [_])).getLast? = _
  rw [Path.walk_append]
  simp [Path.walk, hdots]

namespace Alike

variable {first second : World} (halike : l.Alike first second)

include halike

theorem withFiles {files others : FileTree} (hfiles : FileTree.Alike l.toView files others) :
    l.Alike { first with files } { second with files := others } :=
  ⟨hfiles, halike.requests, halike.calls, halike.state, halike.legible⟩

theorem sound : l.Sound first :=
  ⟨halike.legible, halike.files.dotless⟩

theorem ready : l.growing.Ready first :=
  ⟨halike.files.here, halike.sound⟩

end Alike

/-- Where everything is shared nothing strays. -/
theorem not_strayed (l : Likeness) (hall : ∀ address, address ∈ l.shared) (world : World) :
    ¬l.Strayed world :=
  fun ⟨_, _, address, _, hnot⟩ => hnot (hall address)

end Likeness

/-- Operations end in the same way, in alike worlds, unless the first of them strayed. -/
def Likeness.Agrees {α : Type} (l : Likeness) (first second : Except Fault α × World) : Prop :=
  l.Strayed first.2 ∨ first.1 = second.1 ∧ l.Alike first.2 second.2

theorem Likeness.Agrees.alike {α : Type} {l : Likeness} {first second : Except Fault α × World}
    (hagrees : l.Agrees first second) (hall : ∀ address, address ∈ l.shared) :
    first.1 = second.1 ∧ l.Alike first.2 second.2 :=
  hagrees.resolve_left (l.not_strayed hall _)

/-- Where nothing strays, what follows may rely on how both operations ended. -/
theorem Likeness.Agrees.bind {α β : Type} {l : Likeness} {first second : Action α}
    {next other : α → Action β} {world world' : World} (hall : ∀ address, address ∈ l.shared)
    (hagrees : l.Agrees (first.eval l.host world) (second.eval l.other world'))
    (hnext : ∀ value after after', first.eval l.host world = (.ok value, after) →
      second.eval l.other world' = (.ok value, after') → l.Alike after after' →
      l.Agrees ((next value).eval l.host after) ((other value).eval l.other after')) :
    l.Agrees ((first >>= next).eval l.host world) ((second >>= other).eval l.other world') := by
  obtain ⟨hresult, hboth⟩ := hagrees.alike hall
  rw [Action.eval_bind, Action.eval_bind]
  rcases heval : first.eval l.host world with ⟨fault | value, after⟩ <;>
    rcases heval' : second.eval l.other world' with ⟨fault' | value', after'⟩ <;>
    rw [heval, heval'] at hresult hboth
  · exact .inr ⟨congrArg Except.error (Except.error.inj hresult), hboth⟩
  · cases hresult
  · cases hresult
  · obtain rfl := Except.ok.inj hresult
    exact hnext value after after' heval heval' hboth

namespace Action

variable {α β : Type}

/-- On alike worlds the operations end in the same way, and leave alike worlds. The condition holds of
the value of the first one wherever it is evaluated. -/
structure Matches (l : Likeness) (first second : Action α) (post : α → Prop) : Prop where
  keeps : first.Keeps l.growing post
  agrees : ∀ world other, l.Alike world other →
    l.Agrees (first.eval l.host world) (second.eval l.other other)

/-- The operation does not see what is not to be seen. -/
abbrev Blind (l : Likeness) (action : Action α) (post : α → Prop) : Prop :=
  action.Matches l action post

namespace Matches

variable {l : Likeness}

theorem weaken {first second : Action α} {post weaker : α → Prop}
    (hmatches : first.Matches l second post) (himp : ∀ value, post value → weaker value) :
    first.Matches l second weaker :=
  ⟨hmatches.keeps.weaken himp, hmatches.agrees⟩

theorem congr {first second : Action α} {post : α → Prop} (hsame : first = second)
    (hblind : second.Blind l post) : first.Matches l second post :=
  hsame ▸ hblind

theorem anyway {first second : Action α} {post : α → Prop}
    (hmatches : first.Matches l second post) : first.Matches l second any :=
  hmatches.weaken fun _ _ => trivial

/-- More may be known of the first operation. -/
theorem along {first second : Action α} {post more : α → Prop}
    (hmatches : first.Matches l second post) (hkeeps : first.Keeps l.growing more) :
    first.Matches l second more :=
  ⟨hkeeps, hmatches.agrees⟩

/-- The value comes from an evaluation. -/
theorem evaluated {first second : Action α} {post : α → Prop}
    (hmatches : first.Matches l second post) : first.Matches l second fun value =>
      post value ∧ ∃ world, (first.eval l.host world).1 = .ok value := by
  refine hmatches.along fun world hhere hsound => ?_
  obtain ⟨hstep, hafter, hresult⟩ := hmatches.keeps world hhere hsound
  refine ⟨hstep, hafter, ?_⟩
  rcases heval : (first.eval l.growing.host world).1 with fault | value
  · trivial
  · rw [heval] at hresult
    exact ⟨hresult, world, heval⟩

theorem pure {value : α} {post : α → Prop} (hpost : post value) :
    Blind l (Pure.pure value) post :=
  ⟨.pure hpost, fun _ _ halike => .inr ⟨rfl, halike⟩⟩

theorem throw {fault : Fault} {post : α → Prop} : Blind l (MonadExcept.throw fault) post :=
  ⟨.throw trivial, fun _ _ halike => .inr ⟨rfl, halike⟩⟩

/-- Only the network differs between what is around the worlds. -/
theorem reading {next other : Host → Action β} {post : β → Prop}
    (hsame : other l.other = other l.host) (hnext : (next l.host).Matches l (other l.host) post) :
    Matches l ((MonadReader.read : Action Host) >>= next)
      ((MonadReader.read : Action Host) >>= other) post where
  keeps := Keeps.bind (.read (show (· = l.host) l.growing.host from rfl)) fun _ hhost =>
    hhost ▸ hnext.keeps
  agrees := by
    intro world world' halike
    rw [eval_bind_ok (eval_read _ _), eval_bind_ok (eval_read _ _), hsame]
    exact hnext.agrees world world' halike

/-- What follows may rely on how the first operations ended. -/
theorem thenAgrees {first second : Action α} {next other : α → Action β} {middle : α → Prop}
    {world world' : World} (hfirst : first.Matches l second middle) (halike : l.Alike world world')
    (hkeeps : ∀ value, middle value → (next value).Keeps l.growing any)
    (hnext : ∀ value after after', first.eval l.host world = (.ok value, after) →
      second.eval l.other world' = (.ok value, after') → middle value → l.Alike after after' →
      l.Agrees ((next value).eval l.host after) ((other value).eval l.other after')) :
    l.Agrees ((first >>= next).eval l.host world) ((second >>= other).eval l.other world') := by
  have hready := halike.ready
  have hafter := hready.after hfirst.keeps
  rw [eval_bind, eval_bind]
  rcases hfirst.agrees world world' halike with hstrayed | ⟨hresult, hboth⟩ <;>
    rcases heval : first.eval l.host world with ⟨fault | value, after⟩
  · rw [heval] at hstrayed
    exact .inl hstrayed
  · have hvalue := hfirst.keeps.value hready.here hready.inv heval
    change l.growing.Ready (first.eval l.host world).2 at hafter
    rw [heval] at hstrayed hafter
    exact .inl (hstrayed.later ((hkeeps value hvalue).step hafter.here hafter.inv).1)
  · rw [heval] at hresult hboth
    rcases heval' : second.eval l.other world' with ⟨fault' | value', after'⟩ <;>
      rw [heval'] at hresult hboth
    · exact .inr ⟨congrArg Except.error (Except.error.inj hresult), hboth⟩
    · cases hresult
  · have hvalue := hfirst.keeps.value hready.here hready.inv heval
    rw [heval] at hresult hboth
    rcases heval' : second.eval l.other world' with ⟨fault' | value', after'⟩ <;>
      rw [heval'] at hresult hboth
    · cases hresult
    · obtain rfl := Except.ok.inj hresult
      exact hnext value after after' heval heval' hvalue hboth

theorem bind {first second : Action α} {next other : α → Action β} {middle : α → Prop}
    {post : β → Prop} (hfirst : first.Matches l second middle)
    (hnext : ∀ value, middle value → (next value).Matches l (other value) post) :
    Matches l (first >>= next) (second >>= other) post where
  keeps := hfirst.keeps.bind fun value hvalue => (hnext value hvalue).keeps
  agrees := fun _ _ halike => hfirst.thenAgrees halike
    (fun value hvalue => (hnext value hvalue).keeps.anyway)
    fun value after after' _ _ hvalue hafter => (hnext value hvalue).agrees after after' hafter

theorem andThen {first second : Action α} {next other : α → Action β} {post : β → Prop}
    (hfirst : first.Matches l second any)
    (hnext : ∀ value, (next value).Matches l (other value) post) :
    Matches l (first >>= next) (second >>= other) post :=
  hfirst.bind fun value _ => hnext value

theorem map {first second : Action α} {change : α → β} {post : β → Prop}
    (hmatches : first.Matches l second fun value => post (change value)) :
    Matches l (change <$> first) (change <$> second) post := by
  rw [map_eq_pure_bind, map_eq_pure_bind]
  exact hmatches.bind fun value hvalue => .pure hvalue

theorem refuse {so : Bool} {fault : Fault} : Blind l (Action.refuse so fault) fun _ => so = false := by
  cases so with
  | false => exact .pure rfl
  | true => exact .throw

theorem handle {answers : Fault → Bool} {handler : Fault → Action α} {first second : Action α}
    {post : α → Prop} (hmatches : first.Matches l second post)
    (hhandler : ∀ fault, answers fault = true → (handler fault).Blind l post) :
    Matches l (first.handle answers handler) (second.handle answers handler) post := by
  have hkeeps : (first.handle answers handler).Keeps l.growing post :=
    hmatches.keeps.handle fun fault hanswers _ => (hhandler fault hanswers).keeps
  refine ⟨hkeeps, fun world world' halike => ?_⟩
  have hready := halike.ready
  have hafter := hready.after hmatches.keeps
  change l.growing.Ready (first.eval l.host world).2 at hafter
  rw [eval_handle, eval_handle]
  rcases hmatches.agrees world world' halike with hstrayed | ⟨hresult, hboth⟩
  · rcases heval : first.eval l.host world with ⟨fault | value, after⟩ <;>
      rw [heval] at hstrayed hafter
    · dsimp only
      cases hanswers : answers fault with
      | true =>
        have hstep := (hhandler fault hanswers).keeps.step hafter.here hafter.inv
        exact .inl (hstrayed.later hstep.1)
      | false => exact .inl hstrayed
    · exact .inl hstrayed
  rcases heval : first.eval l.host world with ⟨fault | value, after⟩ <;>
    rcases heval' : second.eval l.other world' with ⟨fault' | value', after'⟩ <;>
    rw [heval, heval'] at hresult hboth
  · obtain rfl := Except.error.inj hresult
    dsimp only
    cases hanswers : answers fault with
    | true => exact (hhandler fault hanswers).agrees after after' hboth
    | false => exact .inr ⟨rfl, hboth⟩
  · cases hresult
  · cases hresult
  · obtain rfl := Except.ok.inj hresult
    exact .inr ⟨rfl, hboth⟩

theorem explain {answers : Fault → Bool} {outer : Fault → Fault} {first second : Action α}
    {post : α → Prop} (hmatches : first.Matches l second post) :
    Matches l (first.explain answers outer) (second.explain answers outer) post :=
  hmatches.handle fun _ _ => .throw

theorem outcome {first second : Action α} {post : α → Prop}
    (hmatches : first.Matches l second post) :
    Matches l first.outcome second.outcome fun result => ∀ value, result = .ok value → post value where
  keeps := hmatches.keeps.outcome.weaken fun result hresult value hvalue => by
    rw [hvalue] at hresult
    exact hresult
  agrees := by
    intro world world' halike
    rw [eval_outcome, eval_outcome]
    exact (hmatches.agrees world world' halike).imp_right fun ⟨hresult, hboth⟩ =>
      ⟨congrArg Except.ok hresult, hboth⟩

theorem ofExcept {ε : Type} {fault : ε → Fault} {result : Except ε α} {post : α → Prop}
    (hpost : ∀ value, result = .ok value → post value) :
    Blind l (Action.ofExcept fault result) post := by
  cases result with
  | ok value => exact .pure (hpost value rfl)
  | error error => exact .throw

theorem ofResult {result : Except Fault α} {post : α → Prop}
    (hpost : ∀ value, result = .ok value → post value) : Blind l (Action.ofResult result) post :=
  .ofExcept hpost

theorem forM {items : List α} {action : α → Action PUnit}
    (haction : ∀ item ∈ items, (action item).Blind l any) : Blind l (items.forM action) any := by
  induction items with
  | nil => exact .pure trivial
  | cons item rest ih =>
    change Blind l (action item >>= fun _ => rest.forM action) any
    exact (haction item List.mem_cons_self).andThen fun _ =>
      ih fun item hitem => haction item (List.mem_cons_of_mem _ hitem)

/-- What holds of the value for every item holds of all values. -/
theorem mapM {items : List α} {action : α → Action β} {post : β → Prop}
    (haction : ∀ item ∈ items, (action item).Blind l post) :
    Blind l (items.mapM action) fun values => ∀ value ∈ values, post value := by
  induction items with
  | nil => exact .pure (by simp)
  | cons item rest ih =>
    rw [List.mapM_cons]
    refine (haction item List.mem_cons_self).bind fun value hvalue => ?_
    refine (ih fun item hitem => haction item (List.mem_cons_of_mem _ hitem)).bind
      fun values hvalues => .pure ?_
    exact List.forall_mem_cons.mpr ⟨hvalue, hvalues⟩

theorem onFiles {first second : FileTree.Action α} {post : α → Prop}
    (hmatches : first.Matches l.toView second)
    (hpost : ∀ tree value, tree.here = l.here → (first.eval tree).1 = .ok value → post value) :
    Matches l (Action.onFiles first) (Action.onFiles second) post where
  keeps := by
    intro world hhere hsound
    -- a tree is alike to itself, so the first operation leaves what is seen of trees
    obtain ⟨-, hafter⟩ := hmatches world.files world.files ⟨rfl, hhere, hsound.dotless⟩
    rw [eval_onFiles]
    refine ⟨⟨List.prefix_rfl, fun _ => ⟨hsound.legible, hafter.dotless⟩⟩, hafter.here, ?_⟩
    rcases heval : (first.eval world.files).1 with error | value
    · trivial
    · exact hpost world.files value hhere heval
  agrees := by
    intro world other halike
    rw [eval_onFiles, eval_onFiles]
    obtain ⟨hresult, hafter⟩ := hmatches world.files other.files halike.files
    exact .inr ⟨by simp only [hresult], halike.withFiles hafter⟩

theorem files {operation : FileTree.Action α} (hblind : operation.Blind l.toView) :
    Blind l (Action.onFiles operation) any :=
  .onFiles hblind fun _ _ _ _ => trivial

theorem locating {path : Path} (hclear : l.Clear path) :
    Blind l (Action.onFiles (FileTree.locating path)) (· = path.normal l.here) :=
  .onFiles (FileTree.locating_blind hclear) fun _ _ hhere hlocation =>
    hhere ▸ FileTree.locating_ok hlocation

/-- Looking at the world, of which the operations see the same. -/
theorem getting {next : World → Action β} {post : β → Prop}
    (hkeeps : ∀ world, l.Sound world → (next world).Keeps l.growing post)
    (hnext : ∀ world other, l.Alike world other →
      l.Agrees ((next world).eval l.host world) ((next other).eval l.other other)) :
    Blind l ((MonadState.get : Action World) >>= next) post where
  keeps := Keeps.bind (.get fun _ _ hsound => hsound) hkeeps
  agrees := by
    intro world other halike
    rw [eval_bind_ok (eval_get _ _), eval_bind_ok (eval_get _ _)]
    exact hnext world other halike

theorem changing {change : World → World}
    (hsound : ∀ world, l.Sound world → world.files.here = l.here →
      world.requests <+: (change world).requests ∧ l.Sound (change world) ∧
        (change world).files.here = l.here)
    (hchange : ∀ world other, l.Alike world other → l.Alike (change world) (change other)) :
    Blind l (modify change : Action PUnit) any where
  keeps := .modify fun world hhere hworld =>
    have ⟨hgrown, hafter, hplace⟩ := hsound world hworld hhere
    ⟨⟨hgrown, fun _ => hafter⟩, hplace⟩
  agrees := fun world other halike => .inr ⟨rfl, hchange world other halike⟩

theorem discarding {first second : Action α} {path : Path} {post : α → Prop}
    (hclear : l.Clear path) (hmatches : first.Matches l second post) :
    Matches l (first.discarding path) (second.discarding path) post := by
  unfold Action.discarding
  refine hmatches.outcome.bind fun result hresult => ?_
  refine .andThen (.files (FileTree.discard_blind hclear)) fun _ => ?_
  cases result with
  | ok value => exact .pure (hresult value rfl)
  | error fault => exact .throw

/-- What fills a temporary file may rely on its being seen. -/
theorem withSibling {target : Path} {use : Path → Action α} {post : α → Prop}
    (htarget : l.Takes target)
    (huse : ∀ sibling, l.Sees sibling → l.Clear sibling → (use sibling).Blind l post) :
    Blind l (Action.withSibling target use) post := by
  have hsibling : Blind l (Action.onFiles (FileTree.newSibling target)) fun sibling =>
      l.Sees sibling ∧ l.Clear sibling := by
    refine .onFiles (FileTree.newSibling_blind htarget) fun tree sibling hhere hmade => ?_
    obtain ⟨n, rfl⟩ := FileTree.newSibling_ok hmade
    rw [hhere]
    exact ⟨Likeness.sees_sibling _ target.name n, htarget.clear_sibling n⟩
  unfold Action.withSibling
  exact hsibling.bind fun sibling ⟨hsees, hclear⟩ => (huse sibling hsees hclear).discarding hclear

theorem moving {sibling target : Path} {fill : Action α} {post : α → Prop}
    (hsees : l.Sees sibling) (hsibling : l.Clear sibling) (htarget : l.Clear target)
    (hfill : fill.Blind l post) : Blind l (Action.moving sibling target fill) post := by
  unfold Action.moving
  refine hfill.bind fun value hvalue => ?_
  exact .andThen (.files (FileTree.rename_blind hsibling hsees htarget)) fun _ => .pure hvalue

end Matches

end Action

end JarRefinery
