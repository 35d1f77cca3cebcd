import JarRefinery.Proofs.Atomicity
import JarRefinery.Proofs.Course
import JarRefinery.Proofs.Fetching
import JarRefinery.Proofs.Files.Receiving
import JarRefinery.Proofs.Pieces

/-!
# What a produced file holds

A target that was replaced holds what its temporary file held in the end: the body of the answer that
was downloaded last, or what a compressed file decompresses to.
-/

namespace JarRefinery

open Action (any)

variable {α : Type} {host : Host}

/-! ### Targets -/

/-- The temporary file was filled beside the target and is the target now. -/
structure Filled (host : Host) (target : Path) (fill : Path → Action α) (world : World) (value : α)
    (after : World) (sibling : Path) (start filled : World) : Prop where
  beside : ∃ ready place, FileTree.Beside target world.files ready sibling place ∧
    start = { world with files := ready.put place (.file [] 0o600) }
  fill : (fill sibling).eval host start = (.ok value, filled)
  requests : after.requests = filled.requests
  reachable : after.files.Reachable target
  contents : ∃ contents mode, filled.files.node? (sibling.normal world.files.here) =
      some (.file contents mode) ∧
    after.files.node? (target.normal world.files.here) = some (.file contents mode)

/-- What fills a temporary file changes nothing else. -/
theorem Action.filling_change {target sibling : Path} {world filled : World} {ready : FileTree}
    {place : Location} (hbeside : FileTree.Beside target world.files ready sibling place)
    {fill : Action α}
    (hkeeps : fill.Keeps (.filling host world.files.here (sibling.normal world.files.here)) any)
    {result : Except Fault α}
    (heval : fill.eval host { world with files := ready.put place (.file [] 0o600) } =
      (result, filled)) :
    Change { written := {place} } (ready.put place (.file [] 0o600)) filled.files := by
  have hhere : (ready.put place (.file [] 0o600)).here = world.files.here := hbeside.made.here
  obtain ⟨hstep, -⟩ := hkeeps { world with files := ready.put place (.file [] 0o600) } hhere trivial
  rw [hbeside.normal] at hstep
  change Change { written := {place} } (ready.put place (.file [] 0o600))
    (fill.eval host _).2.files at hstep
  rwa [heval] at hstep

/-- A target that was replaced was filled beside its place before. -/
theorem Action.of_eval_withSibling_ok {target : Path} {use fill : Path → Action α}
    {world after : World} {value : α} (hrooted : ".." ∉ world.files.here)
    (huse : ∀ sibling start value filled, (use sibling).eval host start = (.ok value, filled) →
      (Action.moving sibling target (fill sibling)).eval host start = (.ok value, filled))
    (hfill : ∀ sibling, (fill sibling).Keeps
      (.filling host world.files.here (sibling.normal world.files.here)) any)
    (heval : (Action.withSibling target use).eval host world = (.ok value, after)) :
    ∃ sibling start filled, Filled host target fill world value after sibling start filled := by
  rw [eval_withSibling] at heval
  rcases FileTree.newSibling_cases hrooted target with
    ⟨ready, sibling, place, hbeside, hsibling⟩ | ⟨error, failed, -, hsibling⟩
  swap
  · simp [hsibling] at heval
  rw [hsibling] at heval
  simp only [eval_discarding] at heval
  rcases hresult : (use sibling).eval host { world with files := ready.put place (.file [] 0o600) }
    with ⟨fault | found, moved⟩
  · simp [hresult] at heval
  rw [hresult] at heval
  obtain ⟨rfl, rfl⟩ : found = value ∧
      { moved with files := ((FileTree.discard sibling).eval moved.files).2 } = after := by
    simpa using heval
  have hmoving := huse _ _ _ _ hresult
  obtain ⟨value, filled, hfilled, hmoving⟩ := of_eval_bind_ok hmoving
  obtain ⟨_, renamed, hrename, hpure⟩ := of_eval_bind_ok hmoving
  obtain ⟨rfl, rfl⟩ : value = found ∧ renamed = moved := by simpa using hpure
  have hchange := filling_change hbeside (hfill sibling) hfilled
  rw [eval_onFiles] at hrename
  rcases hmove : (FileTree.rename sibling target).eval filled.files with ⟨error | _, files⟩
  · simp [hmove, Except.mapError] at hrename
  rw [hmove] at hrename
  obtain ⟨-, rfl⟩ := Prod.mk.inj hrename
  obtain ⟨-, ⟨contents, mode, hplace, htarget⟩, hsame⟩ := hbeside.moved hchange hmove
  refine ⟨sibling, _, filled, ⟨ready, place, hbeside, rfl⟩, hfilled, rfl, ?_, contents, mode, ?_, ?_⟩
  · simp only [hsame]
    exact .of_rename hmove
  · rw [hbeside.normal]
    exact hplace
  · simp only [hsame]
    exact htarget

/-- A target that can be written is, if the file beside it can be filled. -/
theorem Action.eval_withSibling_ok {target : Path} {use fill : Path → Action α} {world : World}
    {value : α} (hrooted : ".." ∉ world.files.here) (hreceives : world.files.Receives target)
    (huse : ∀ sibling start after,
      (Action.moving sibling target (fill sibling)).eval host start = (.ok value, after) →
        (use sibling).eval host start = (.ok value, after))
    (hkeeps : ∀ sibling, (fill sibling).Keeps
      (.filling host world.files.here (sibling.normal world.files.here)) any)
    (hfill : ∀ ready sibling place, FileTree.Beside target world.files ready sibling place →
      ∃ filled, (fill sibling).eval host { world with files := ready.put place (.file [] 0o600) } =
        (.ok value, filled)) :
    ∃ after, (Action.withSibling target use).eval host world = (.ok value, after) := by
  obtain ⟨ready, sibling, place, hbeside, hsibling, -, hrename⟩ := hreceives.rename hrooted
  obtain ⟨filled, hfilled⟩ := hfill ready sibling place hbeside
  obtain ⟨moved, hmoved⟩ := hrename filled.files (filling_change hbeside (hkeeps sibling) hfilled)
  have hmoving : (Action.moving sibling target (fill sibling)).eval host
      { world with files := ready.put place (.file [] 0o600) } =
        (.ok value, { filled with files := moved }) := by
    unfold Action.moving
    rw [eval_bind_ok hfilled, eval_bind, eval_onFiles, hmoved]
    rfl
  rw [eval_withSibling, hsibling]
  simp only [eval_discarding, huse _ _ _ hmoving]
  exact ⟨_, rfl⟩

/-- What fails to fill the file beside a target fails to replace it. -/
theorem Action.eval_withSibling_error {target : Path} {use : Path → Action α} {world : World}
    {fault : Fault} (hrooted : ".." ∉ world.files.here) (hprepares : world.files.Prepares target)
    (huse : ∀ ready sibling place, FileTree.Beside target world.files ready sibling place →
      ∃ after, (use sibling).eval host { world with files := ready.put place (.file [] 0o600) } =
        (.error fault, after)) :
    ∃ after, (Action.withSibling target use).eval host world = (.error fault, after) := by
  obtain ⟨found, made, hnew⟩ := hprepares
  rcases FileTree.newSibling_cases hrooted target with
    ⟨ready, sibling, place, hbeside, hsibling⟩ | ⟨error, unmade, -, herror⟩
  swap
  · cases herror.symm.trans hnew
  obtain ⟨failed, hfailed⟩ := huse ready sibling place hbeside
  rw [eval_withSibling, hsibling]
  simp only [eval_discarding, hfailed]
  exact ⟨_, rfl⟩

/-! ### Downloads -/

/-- What was asked for stays so. -/
def Discipline.asking (host : Host) (here : Location) : Discipline where
  host := host
  here := here
  inv := fun _ => True
  step := fun before after => before.requests <+: after.requests
  faults := fun _ => True
  refl := fun _ => List.prefix_rfl
  trans := fun hfirst hsecond => hfirst.trans hsecond
  keep := fun _ _ => trivial
  ordinary := fun _ _ => trivial

namespace Discipline.asking

variable {here : Location}

theorem allowsFiles (footprint : Footprint) : (asking host here).AllowsFiles footprint :=
  fun _ _ _ _ _ _ => List.prefix_rfl

theorem allowsNetwork : (asking host here).AllowsNetwork where
  ask := fun _ _ => List.prefix_append _ _
  wait := fun _ _ => List.prefix_rfl
  failure := fun _ _ _ _ => trivial
  broken := fun _ _ _ _ _ _ _ => trivial

end Discipline.asking

namespace Http

variable {d : Discipline} {url : String} {use : Response → Action α} {post : α → Prop}

theorem of_eval_attempt_ok {world after : World} {value : α}
    (heval : (attempt url use).eval host world = (.ok value, after)) :
    ∃ response opened, (open_ url).eval host world = (.ok response, opened) ∧
      response.status = 200 ∧ (use response).eval host opened = (.ok value, after) := by
  unfold attempt at heval
  obtain ⟨response, opened, hopen, heval⟩ := Action.of_eval_bind_ok heval
  obtain ⟨_, checked, hcheck, huse⟩ := Action.of_eval_bind_ok heval
  unfold checkStatus at hcheck
  split at hcheck
  · rename_i hstatus
    obtain ⟨-, rfl⟩ := Prod.mk.inj hcheck
    exact ⟨response, opened, hopen, hstatus, huse⟩
  split at hcheck
  · simp at hcheck
  · obtain ⟨_, _, -, hthrow⟩ := Action.of_eval_bind_ok hcheck
    simp at hthrow

variable (hnetwork : d.AllowsNetwork)
  (huse : ∀ response, response.Sound d → (use response).Keeps d post)

include hnetwork huse

/-- What a row of attempts comes to is made of the answer to the last one. -/
theorem of_eval_attemptsFrom_ok {left n : Nat} {world after : World} {value : α}
    (hready : d.Ready world)
    (heval : (attemptsFrom url use left n).eval d.host world = (.ok value, after)) :
    ∃ start response opened, d.Ready start ∧ d.step world start ∧
      (open_ url).eval d.host start = (.ok response, opened) ∧ response.status = 200 ∧
      (use response).eval d.host opened = (.ok value, after) := by
  have hkeeps := attempt_keeps hnetwork.toAllowsRequests huse url
  have htried := hready.after hkeeps
  have hstep := hkeeps.step hready.here hready.inv
  induction left generalizing world n with
  | zero =>
    unfold attemptsFrom at heval
    rw [Action.eval_handle] at heval
    rcases hattempt : (attempt url use).eval d.host world with ⟨fault | found, tried⟩
    · rw [hattempt] at heval
      cases hretried : isRetried fault <;> simp [hretried] at heval
    · rw [hattempt] at heval
      obtain ⟨rfl, rfl⟩ : found = value ∧ tried = after := by simpa using heval
      obtain ⟨response, opened, hends⟩ := of_eval_attempt_ok hattempt
      exact ⟨world, response, opened, hready, d.refl world, hends⟩
  | succ left ih =>
    unfold attemptsFrom at heval
    rw [Action.eval_handle] at heval
    rcases hattempt : (attempt url use).eval d.host world with ⟨fault | found, tried⟩
    · rw [hattempt] at heval htried hstep
      cases hretried : isRetried fault
      · simp [hretried] at heval
      simp only [hretried, if_true] at heval
      have hwait := hnetwork.wait tried (waitAfter n)
      have hwaited : d.Ready { tried with waits := tried.waits ++ [waitAfter n] } :=
        ⟨htried.here, d.keep hwait htried.inv⟩
      obtain ⟨start, response, opened, hstart, hsteps, hends⟩ := ih hwaited heval
        (hwaited.after hkeeps) (hkeeps.step hwaited.here hwaited.inv)
      exact ⟨start, response, opened, hstart, d.trans hstep (d.trans hwait hsteps), hends⟩
    · rw [hattempt] at heval
      obtain ⟨rfl, rfl⟩ : found = value ∧ tried = after := by simpa using heval
      obtain ⟨response, opened, hends⟩ := of_eval_attempt_ok hattempt
      exact ⟨world, response, opened, hready, d.refl world, hends⟩

omit hnetwork huse

/-- A body that was written is whole. -/
theorem of_eval_writeBody_ok {piece : Int} {file : Path} {response : Response} {world after : World}
    {length : Nat} (heval : (writeBody piece file response).eval host world = (.ok length, after)) :
    response.fault = none ∧ after.requests = world.requests ∧ ∃ mode,
      after.files.node? (file.normal world.files.here) = some (.file response.body mode) := by
  have hrun := heval
  unfold writeBody at hrun
  obtain ⟨_, emptied, hempty, hrun⟩ := Action.of_eval_bind_ok hrun
  obtain ⟨_, checked, hrefuse, -⟩ := Action.of_eval_bind_ok hrun
  have hpiece : piece ≤ 0 → response.body = [] := by
    simpa using (Action.of_eval_refuse_ok hrefuse).1
  obtain ⟨_, hemptyFile, -⟩ := Action.of_eval_onFiles_ok hempty
  rcases FileTree.writeFile_cases world.files file [] with ⟨hreach, hwrite, -⟩ | ⟨-, error, herror⟩
  swap
  · cases herror.symm.trans hemptyFile
  obtain ⟨mode, hwritten⟩ := eval_writeBody hreach hwrite host hpiece
  rw [hwritten world rfl] at heval
  rcases hfault : response.fault with _ | fault
  swap
  · simp [measured, hfault] at heval
  obtain ⟨-, rfl⟩ := Prod.mk.inj heval
  have hroot : file.normal world.files.here ≠ [] := fun heq =>
    hwrite.1 (by rw [heq, FileTree.node?_root])
  exact ⟨rfl, rfl, mode, by simp [FileTree.node?_put, hroot, arrived, hfault]⟩

/-- The last answer between the two worlds was a plain success, and this is its whole body. -/
inductive Brought (host : Host) (url : String) (before : World) (body : Bytes) (after : World) :
    Prop
  | last {start opened : World} {response : Response} :
    before.requests <+: start.requests → (open_ url).eval host start = (.ok response, opened) →
    after.requests = opened.requests → response.status = 200 → response.fault = none →
    response.body = body → Brought host url before body after

section Filling

variable {piece maxAttempts : Int} {target : Path} {world after : World} {length : Nat}
  (hrooted : ".." ∉ world.files.here)

include hrooted

theorem fetch_writeBody_keeps (maxAttempts : Int) (sibling : Path) :
    (fetch maxAttempts url (writeBody piece sibling)).Keeps
      (.filling host world.files.here (sibling.normal world.files.here)) any :=
  fetch_keeps Discipline.filling.allowsNetwork (fun _ hsound =>
    writeBody_keeps (Discipline.filling.allowsFiles hrooted) _ hsound) maxAttempts url

/-- A target that was downloaded was filled beside its place before. -/
theorem exists_filled
    (heval : (downloadBy piece maxAttempts url target).eval host world = (.ok length, after)) :
    ∃ sibling start filled,
      Filled host target (fun sibling => fetch maxAttempts url (writeBody piece sibling)) world length
        after sibling start filled :=
  Action.of_eval_withSibling_ok hrooted (fun _ _ _ _ hmoving => hmoving)
    (fetch_writeBody_keeps hrooted maxAttempts) heval

theorem reachable_of_eval_download_ok
    (heval : (download maxAttempts url target).eval host world = (.ok length, after)) :
    after.files.Reachable target := by
  obtain ⟨sibling, start, filled, hfilled⟩ := exists_filled hrooted heval
  exact hfilled.reachable

/-- A target that was downloaded holds the body that came last. -/
theorem of_eval_download_ok
    (heval : (download maxAttempts url target).eval host world = (.ok length, after)) :
    ∃ body mode, Brought host url world body after ∧
      after.files.node? (target.normal world.files.here) = some (.file body mode) := by
  obtain ⟨sibling, start, filled, hfilled⟩ := exists_filled hrooted heval
  obtain ⟨ready, place, hbeside, rfl⟩ := hfilled.beside
  have hready : (Discipline.asking host world.files.here).Ready
      { world with files := ready.put place (.file [] 0o600) } := ⟨hbeside.made.here, trivial⟩
  obtain ⟨start, response, opened, hstart, hasked, hopen, hstatus, hwrite⟩ :=
    of_eval_attemptsFrom_ok Discipline.asking.allowsNetwork (fun response hsound =>
      writeBody_keeps (Discipline.asking.allowsFiles _) _ hsound) hready hfilled.fill
  obtain ⟨hfault, hrequests, mode, hnode⟩ := of_eval_writeBody_ok hwrite
  obtain ⟨contents, mode', hsibling, htarget⟩ := hfilled.contents
  rw [hbeside.normal] at hnode hsibling
  obtain ⟨rfl, rfl⟩ : response.body = contents ∧ mode = mode' := by simpa [hnode] using hsibling
  exact ⟨response.body, mode, .last hasked hopen (hfilled.requests.trans hrequests) hstatus hfault
    rfl, htarget⟩

end Filling

end Http

/-! ### Files made from others -/

namespace Mapping

variable {ε : Type} {derive : Bytes → Except ε Bytes} {fault : ε → Fault} {source target : Path}
  {world after : World}

/-- What a file was filled with is what is made of the file that was read. -/
theorem of_eval_deriving_ok {file : Path} {value : Unit}
    (heval : Action.eval (do
      let bytes ← Action.onFiles (FileTree.readFile source)
      let content ← Action.ofExcept fault (derive bytes)
      Action.onFiles (FileTree.writeFile file content)) host world = (.ok value, after)) :
    ∃ read mode content mode',
      world.files.node? (source.normal world.files.here) = some (.file read mode) ∧
      derive read = .ok content ∧
      after.files.node? (file.normal world.files.here) = some (.file content mode') := by
  obtain ⟨bytes, read, hread, heval⟩ := Action.of_eval_bind_ok heval
  obtain ⟨content, derived, hderive, hwrite⟩ := Action.of_eval_bind_ok heval
  obtain ⟨files, hreadFile, rfl⟩ := Action.of_eval_onFiles_ok hread
  obtain rfl : files = world.files := by
    rw [← FileTree.eval_readFile_snd world.files source, hreadFile]
  rw [Action.eval_ofExcept] at hderive
  obtain ⟨hcontent, rfl⟩ := Prod.mk.inj hderive
  obtain ⟨written, hwriteFile, rfl⟩ := Action.of_eval_onFiles_ok hwrite
  obtain ⟨-, mode, hnode⟩ := FileTree.readFile_ok _ _ hreadFile
  obtain ⟨mode', hfile, -⟩ := FileTree.of_eval_writeFile_ok hwriteFile
  refine ⟨bytes, mode, content, mode', hnode, ?_, hfile⟩
  rcases hresult : derive bytes with error | found
  · simp [hresult, Except.mapError] at hcontent
  · simpa [hresult, Except.mapError] using hcontent

/-- The target of a file that was filled so holds what is made of the source. -/
theorem of_eval_derived_ok {fill : Path → Action Unit} {answers : Fault → Bool}
    {outer : Fault → Fault} {path : Path} (hrooted : ".." ∉ world.files.here)
    (hkeeps : ∀ sibling, (fill sibling).Keeps
      (.filling host world.files.here (sibling.normal world.files.here)) any)
    (hfill : ∀ file start (value : Unit) filled, (fill file).eval host start = (.ok value, filled) →
      ∃ read mode content mode',
        start.files.node? (source.normal start.files.here) = some (.file read mode) ∧
        derive read = .ok content ∧
        filled.files.node? (file.normal start.files.here) = some (.file content mode'))
    (heval : (Action.withSibling target fun sibling => Action.explain answers outer
      (Action.moving sibling target do
        fill sibling
        pure target)).eval host world = (.ok path, after)) {bytes : Bytes} {mode : Nat}
    (hsource : world.files.node? (source.normal world.files.here) = some (.file bytes mode)) :
    ∃ content mode, derive bytes = .ok content ∧
      after.files.node? (target.normal world.files.here) = some (.file content mode) := by
  have hfilling : ∀ sibling, (do fill sibling; pure target : Action Path).Keeps
      (.filling host world.files.here (sibling.normal world.files.here)) any := fun sibling =>
    (hkeeps sibling).andThen fun _ => .pure trivial
  obtain ⟨sibling, start, filled, hfilled⟩ := Action.of_eval_withSibling_ok hrooted
    (fun _ _ _ _ hmoving => Action.of_eval_explain_ok hmoving) hfilling heval
  obtain ⟨ready, place, hbeside, rfl⟩ := hfilled.beside
  obtain ⟨_, written, hfillEval, hpure⟩ := Action.of_eval_bind_ok hfilled.fill
  obtain ⟨-, rfl⟩ : target = path ∧ written = filled := by simpa using hpure
  obtain ⟨read, mode', content, mode'', hread, hcontent, hnode⟩ := hfill _ _ _ _ hfillEval
  have hhere : (ready.put place (.file [] 0o600)).here = world.files.here := hbeside.made.here
  have hsame := hbeside.node?_file hsource
  simp only [hhere, hsame, Option.some.injEq, Node.file.injEq] at hread
  simp only [hhere] at hnode
  obtain ⟨contents, mode', hsibling, htarget⟩ := hfilled.contents
  rw [hsibling] at hnode
  simp only [Option.some.injEq, Node.file.injEq] at hnode
  exact ⟨contents, mode', by rw [hread.1, hnode.1]; exact hcontent, htarget⟩

variable {path : Path} (hrooted : ".." ∉ world.files.here)

include hrooted

/-- What a compressed file was decompressed to is what it decompresses to. -/
theorem of_eval_gunzip_ok (heval : (gunzip source target).eval host world = (.ok path, after))
    {compressed : Bytes} {mode : Nat}
    (hsource : world.files.node? (source.normal world.files.here) = some (.file compressed mode)) :
    ∃ content mode, Gzip.decompress compressed = .ok content ∧
      after.files.node? (target.normal world.files.here) = some (.file content mode) :=
  of_eval_derived_ok hrooted
    (fun _ => fillFromCompressed_keeps (Discipline.filling.allowsFiles hrooted) source)
    (fun _ _ _ _ hfill => of_eval_deriving_ok hfill) heval hsource

/-- What an entry was extracted to is its content. -/
theorem of_eval_extractEntry_ok {name : String}
    (heval : (extractEntry source name target).eval host world = (.ok path, after))
    {archive : Bytes} {mode : Nat}
    (hsource : world.files.node? (source.normal world.files.here) = some (.file archive mode)) :
    ∃ content mode, entryContent source name archive = .ok content ∧
      after.files.node? (target.normal world.files.here) = some (.file content mode) :=
  of_eval_derived_ok hrooted
    (fun _ => fillFromEntry_keeps (Discipline.filling.allowsFiles hrooted) source name)
    (fun _ _ _ _ hfill => of_eval_deriving_ok hfill) heval hsource

end Mapping

end JarRefinery
