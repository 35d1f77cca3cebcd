import JarRefinery.Proofs.Conditions
import JarRefinery.Proofs.DocumentNames
import JarRefinery.Proofs.RunDirectory

/-!
# The event log of a run

Every event that a run tells of goes to the end of its event log, and nothing else changes the log: it
is none of the files that stages make or remove, and tools spare it.
-/

namespace JarRefinery

open Action (any)

/-! ### Files that are not the event log -/

namespace Pipeline

variable {run : Run} {host : Host} {here : Location} {target : Path}

theorem Fits.events_ne_of_endsIn (hfits : Fits run) {name : String} (hends : target.EndsIn name)
    (hname : name ≠ "events.jsonl") (here : Location) :
    run.events.path.normal here ≠ target.normal here := by
  intro heq
  have hlast := hends here
  rw [← heq, hfits.normal_events, List.getLast?_concat] at hlast
  exact hname (Option.some.inj hlast).symm

/-- A file whose name ends with a letter that the name of the event log does not have. -/
theorem Fits.events_ne_div (hfits : Fits run) (path : Path) (text ending : String) (c : Char)
    (hslash : '/' ∉ ending.toList) (hmem : c ∈ ending.toList) (hdot : c ≠ '.')
    (hother : c ∉ "events.jsonl".toList) (here : Location) :
    run.events.path.normal here ≠ (path / (text ++ ending)).normal here := by
  obtain ⟨front, rest, -, hparts⟩ := Path.parts_ofString text ending c hslash hmem hdot
  obtain ⟨front', hparts'⟩ := Path.parts_div path hparts
  have hname : c ∈ (rest ++ ending).toList := by simp [hmem]
  refine hfits.events_ne_of_endsIn (Path.endsIn_of_parts hparts' (Path.named_of_mem hname hdot).2)
    (fun heq => hother ?_) here
  rwa [← heq]

/-- No library is the event log: libraries have a directory of their own. -/
theorem Fits.events_ne_library (hfits : Fits run) (hrooted : ".." ∉ here) {rest : List String}
    (hdots : ".." ∉ rest) :
    run.events.path.normal here ≠
      (Path.ofLocation (run.workspace.librariesDirectory.normal here ++ rest)).normal here := by
  have hplain : ".." ∉ run.workspace.librariesDirectory.normal here ++ rest := by
    simpa using ⟨Path.dots_notMem_normal hrooted _, hdots⟩
  have hlibraries : run.workspace.librariesDirectory.normal here =
      run.workspace.root.normal here ++ ["libraries"] := FileTree.IsName.normal_div
    ⟨by decide, by decide, by decide, by decide⟩ here
  have hruns : run.workspace.runsDirectory.normal here = run.workspace.root.normal here ++ ["runs"] :=
    FileTree.IsName.normal_div ⟨by decide, by decide, by decide, by decide⟩ here
  rw [Path.normal_ofLocation hplain, hfits.normal_events, hfits.normal_runDirectory, hlibraries, hruns]
  simp

end Pipeline

/-- No document of a release is the event log. -/
theorem MappingProvider.Chained.DocumentOf.ne_events {run : Run} (hfits : Pipeline.Fits run)
    {workspace : Workspace} {version : String} {path : Path}
    (hpath : DocumentOf workspace version path) (here : Location) :
    run.events.path.normal here ≠ path.normal here := by
  obtain ⟨name, hends, c, hletter, hmem⟩ := hpath.endsIn
  refine hfits.events_ne_of_endsIn hends ?_ here
  rintro rfl
  obtain rfl | rfl | rfl : c = 'a' ∨ c = 'y' ∨ c = 'z' := by simpa using hletter
  all_goals exact absurd hmem (by decide)

/-! ### What leaves the event log alone -/

namespace Pipeline

variable {run : Run} {host : Host} {here : Location} {target : Path}

/-- The run is kept, and nothing is added to its event log. -/
def silent (host : Host) (here : Location) (run : Run) : Discipline where
  host := host
  here := here
  inv := fun world => Kept run world.files
  step := fun before after =>
    (Kept run before.files → Kept run after.files) ∧
      after.files.node? (run.events.path.normal here) =
        before.files.node? (run.events.path.normal here)
  faults := fun _ => True
  refl := fun _ => ⟨id, rfl⟩
  trans := fun hfirst hsecond =>
    ⟨fun hkept => hsecond.1 (hfirst.1 hkept), hsecond.2.trans hfirst.2⟩
  keep := fun hstep hkept => hstep.1 hkept
  ordinary := fun _ _ => trivial

namespace silent

theorem allowsNetwork : (silent host here run).AllowsNetwork where
  ask := fun _ _ => ⟨id, rfl⟩
  wait := fun _ _ => ⟨id, rfl⟩
  failure := fun _ _ _ _ => trivial
  broken := fun _ _ _ _ _ _ _ => trivial

theorem allowsFiles (hrooted : ".." ∉ here) {footprint : Footprint}
    (hwritten : run.events.path.normal here ∉ footprint.written)
    (hremoved : run.events.path.normal here ∉ footprint.removed) :
    (silent host here run).AllowsFiles footprint := by
  intro world files hhere hkept _ hchange
  have hchange := hchange hrooted
  obtain ⟨contents, mode, hnode⟩ := hkept.events
  rw [hhere] at hnode
  exact ⟨fun hkept => hkept.mono hchange (hhere ▸ hremoved),
    (hchange.node?_file hwritten hremoved hnode).trans hnode.symm⟩

theorem produces (hrooted : ".." ∉ here) (hfits : Fits run)
    (hother : run.events.path.normal here ≠ target.normal here) :
    (silent host here run).Produces target := by
  refine allowsNetwork.produces (allowsFiles hrooted ?_ (events_notMem_siblings hfits target))
  rintro (hsibling | htarget)
  · exact events_notMem_siblings hfits target hsibling
  · exact hother htarget

end silent

/-- The run is reported, all faults are failures of a stage, and nothing is added to the event log. -/
def muted (host : Host) (here : Location) (run : Run) : Discipline where
  host := host
  here := here
  inv := Reporting run ∅
  step := fun before after => (Reporting run ∅ before → Reporting run ∅ after) ∧
    after.files.here = before.files.here ∧
      after.files.node? (run.events.path.normal here) =
        before.files.node? (run.events.path.normal here)
  faults := fun fault => Stage.isFailure fault = true
  refl := fun _ => ⟨id, rfl, rfl⟩
  trans := fun hfirst hsecond => ⟨fun hbefore => hsecond.1 (hfirst.1 hbefore),
    hsecond.2.1.trans hfirst.2.1, hsecond.2.2.trans hfirst.2.2⟩
  keep := fun hstep hbefore => hstep.1 hbefore
  ordinary := fun _ hfault => hfault

namespace muted

theorem allowsNetwork (hnetwork : host.AnswersOrdinarily) : (muted host here run).AllowsNetwork where
  ask := fun _ _ => ⟨fun hbefore => ⟨hbefore.kept, hbefore.handed, hbefore.free⟩, rfl, rfl⟩
  wait := fun _ _ => ⟨fun hbefore => ⟨hbefore.kept, hbefore.handed, hbefore.free⟩, rfl, rfl⟩
  failure := hnetwork.failure
  broken := hnetwork.broken

theorem allowsLog : (muted host here run).AllowsLog :=
  fun _ _ => ⟨fun hbefore => ⟨hbefore.kept, hbefore.handed, hbefore.free⟩, rfl, rfl⟩

theorem hands : (muted host here run).Hands run where
  handed := fun _ hinv => hinv.handed
  hand := fun change hchange world hinv =>
    have hallows : (reporting host here run ∅).AllowsHand change := reporting.allowsHand change hchange
    ⟨hallows world hinv, rfl, rfl⟩

theorem allowsFiles (hrooted : ".." ∉ here) {footprint : Footprint}
    (hwritten : run.events.path.normal here ∉ footprint.written)
    (hremoved : run.events.path.normal here ∉ footprint.removed) :
    (muted host here run).AllowsFiles footprint := by
  intro world files hhere hinv hafter hchange
  have hreporting : (reporting host here run ∅).AllowsFiles footprint :=
    reporting.allowsFiles hrooted hremoved (by simp)
  have hsilent : (silent host here run).AllowsFiles footprint :=
    silent.allowsFiles hrooted hwritten hremoved
  exact ⟨hreporting world files hhere hinv hafter hchange, hafter.trans hhere.symm,
    (hsilent world files hhere hinv.kept hafter hchange).2⟩

theorem allowsMade (hrooted : ".." ∉ here) (made : Set Location) :
    (muted host here run).AllowsFiles { made } :=
  allowsFiles hrooted (Set.notMem_empty _) (Set.notMem_empty _)

variable (hfits : Fits run)

include hfits

theorem produces (hrooted : ".." ∉ here) (hnetwork : host.AnswersOrdinarily)
    (hother : run.events.path.normal here ≠ target.normal here) :
    (muted host here run).Produces target := by
  refine (allowsNetwork hnetwork).produces
    (allowsFiles hrooted ?_ (events_notMem_siblings hfits target))
  rintro (hsibling | htarget)
  · exact events_notMem_siblings hfits target hsibling
  · exact hother htarget

theorem allowsCall (hspares : host.SparesRuns run.workspace here) (call : ToolCall) :
    (muted host here run).AllowsCall call := by
  intro world hhere hinv
  refine ⟨reporting.allowsCall hfits hspares (by simp) call world hhere hinv, rfl,
    hspares.below world.calls call world.files _ ?_⟩
  rw [hfits.normal_events, hfits.normal_runDirectory, List.append_assoc]
  exact List.prefix_append _ _

theorem allowsPass (hrooted : ".." ∉ here) (hspares : host.SparesRuns run.workspace here)
    (remapper : Remapper) {set : MappingSet}
    (hset : set.name = intermediaryNamespace ∨ set.name = namedNamespace) :
    (muted host here run).AllowsPass remapper run.workspace set where
  made := allowsMade hrooted _
  removed := allowsFiles hrooted (Set.notMem_empty _) (events_notMem_passOutput hfits hset)
  call := fun _ => allowsCall hfits hspares _

end muted

/-! ### What the event log holds -/

/-- The run is reported, and its event log holds what was told of it: exactly these events. -/
structure Logs (host : Host) (here : Location) (run : Run) (told : List Event) (world : World) :
    Prop where
  log : ∃ mode, world.files.node? (run.events.path.normal here) =
    some (.file (told.flatMap (line host)) mode)
  here : world.files.here = here
  reporting : Reporting run ∅ world

variable {told : List Event} {world : World}

theorem Logs.ready (hlogs : Logs host here run told world) : (muted host here run).Ready world :=
  ⟨hlogs.here, hlogs.reporting⟩

theorem Logs.stable : (muted host here run).Stable (Logs host here run told) := by
  rintro before after ⟨hreporting, hhere, hsame⟩ ⟨⟨mode, hnode⟩, hbefore, hreported⟩
  exact ⟨⟨mode, hsame.trans hnode⟩, hhere.trans hbefore, hreporting hreported⟩

/-- One more event goes to the end. -/
theorem Logs.append (hlogs : Logs host here run told world) (hrooted : ".." ∉ here)
    (hfits : Fits run) (event : Event) : ∃ after,
      (run.events.append event).eval host world = (.ok (), after) ∧
        Logs host here run (told ++ [event]) after := by
  obtain ⟨⟨mode, hnode⟩, hhere, hreporting⟩ := hlogs
  obtain ⟨contents, mode', hnode', heval⟩ := hreporting.kept.eval_append hfits host event
  have hsucceeds : (run.events.append event).Succeeds (Pipeline.reporting host here run ∅) any :=
    Pipeline.reporting.append_succeeds hrooted hfits event
  obtain ⟨value, after, heval', -, hready, -⟩ := hsucceeds.value ⟨hhere, hreporting⟩
  obtain ⟨-, rfl⟩ := Prod.mk.inj (heval.symm.trans heval')
  rw [hhere, hnode] at hnode'
  obtain ⟨rfl, rfl⟩ : told.flatMap (line host) = contents ∧ mode = mode' := by simpa using hnode'
  refine ⟨_, heval, ⟨mode, ?_⟩, hready.here, hready.inv⟩
  change (world.files.put _ _).node? _ = _
  rw [hhere, FileTree.node?_put, if_neg (by simp [hfits.normal_events]), if_pos rfl]
  simp

end Pipeline

/-! ### Actions that only tell -/

namespace Action

open Pipeline

variable {α β : Type} {host : Host} {here : Location} {run : Run} {events : List Event}

/-- The action comes to a value and tells of exactly these events. -/
def Says (host : Host) (here : Location) (run : Run) (events : List Event) (action : Action α)
    (post : α → Prop) : Prop :=
  ∀ told world, Logs host here run told world → ∃ value after,
    action.eval host world = (.ok value, after) ∧ post value ∧
      Logs host here run (told ++ events) after

namespace Says

theorem pure {value : α} {post : α → Prop} (hpost : post value) :
    Says host here run [] (Pure.pure value) post :=
  fun told world hlogs => ⟨value, world, rfl, hpost, by simpa using hlogs⟩

theorem bind {action : Action α} {next : α → Action β} {others : List Event} {first : α → Prop}
    {post : β → Prop} (haction : Says host here run events action first)
    (hnext : ∀ value, first value → Says host here run others (next value) post) :
    Says host here run (events ++ others) (action >>= next) post := by
  intro told world hlogs
  obtain ⟨value, middle, heval, hvalue, hmiddle⟩ := haction told world hlogs
  obtain ⟨last, after, heval', hlast, hafter⟩ := hnext value hvalue _ middle hmiddle
  exact ⟨last, after, (eval_bind_ok heval).trans heval', hlast, by simpa using hafter⟩

theorem andThen {action : Action α} {next : α → Action β} {others : List Event} {post : β → Prop}
    (haction : Says host here run events action any)
    (hnext : ∀ value, Says host here run others (next value) post) :
    Says host here run (events ++ others) (action >>= next) post :=
  haction.bind fun value _ => hnext value

theorem read {post : Host → Prop} (hpost : post host) :
    Says host here run [] (MonadReader.read : Action Host) post :=
  fun told world hlogs => ⟨host, world, rfl, hpost, by simpa using hlogs⟩

theorem log (level : LogLevel) (event : String) (fields : Json.Fields) :
    Says host here run [] (Run.log level event fields) any := by
  intro told world hlogs
  have hkeeps : (Run.log level event fields).Keeps (muted host here run) any :=
    Run.log_keeps muted.allowsLog level event fields
  refine ⟨(), _, rfl, trivial, ?_⟩
  rw [List.append_nil]
  exact Logs.stable (hkeeps.step hlogs.here hlogs.reporting) hlogs

theorem forM {items : List α} {action : α → Action PUnit} {tells : α → List Event}
    (haction : ∀ item ∈ items, Says host here run (tells item) (action item) any) :
    Says host here run (items.flatMap tells) (items.forM action) any := by
  induction items with
  | nil => exact Says.pure trivial
  | cons item rest ih =>
    rw [List.flatMap_cons]
    change Says host here run _ (action item >>= fun _ => rest.forM action) any
    exact (haction item List.mem_cons_self).andThen fun _ =>
      ih fun item hitem => haction item (List.mem_cons_of_mem _ hitem)

/-- An action without a fault has none that would have to be caught. -/
theorem caught {action : Action α} {post : α → Prop} (haction : Says host here run events action post) :
    Says host here run events (Stage.caught action) fun result =>
      ∃ value, result = .ok value ∧ post value := by
  intro told world hlogs
  obtain ⟨value, after, heval, hvalue, hafter⟩ := haction told world hlogs
  refine ⟨.ok value, after, ?_, ⟨value, rfl, hvalue⟩, hafter⟩
  rw [Stage.eval_caught, heval]

theorem append (hrooted : ".." ∉ here) (hfits : Fits run) (event : Event) :
    Says host here run [event] (run.events.append event) any := by
  intro told world hlogs
  obtain ⟨after, heval, hafter⟩ := hlogs.append hrooted hfits event
  exact ⟨(), after, heval, trivial, hafter⟩

end Says

end Action

end JarRefinery
