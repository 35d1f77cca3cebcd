import JarRefinery.Proofs.Additions
import JarRefinery.Proofs.Results

/-!
# What is told of soft failures

Only fetching and mapping have warnings, and what they warn of is told of as it happens: each library
that could not be had by an event of its own, and the layer that is missing by one event. This is so
in every run, whatever tools do to the event log between the stages.
-/

namespace JarRefinery

open Action (any)

/-! ### Warnings -/

theorem Action.Yields.anyhow {α : Type} (host : Host) (action : Action α) :
    action.Yields host any any := by
  intro world
  split <;> trivial

namespace Stage

section

variable (run : Run) (host : Host)

theorem resolve_warnings : (resolve run).Yields host (·.warnings = []) any := by
  unfold resolve
  refine (Action.Yields.anyhow host _).andThen fun entry => ?_
  refine (Action.Yields.anyhow host _).andThen fun metadata => ?_
  refine (Action.Yields.anyhow host _).andThen fun _ => ?_
  exact (Action.Yields.anyhow host _).andThen fun _ => .pure rfl

theorem unpack_warnings : (unpack run).Yields host (·.warnings = []) any := by
  unfold unpack
  refine (Action.Yields.anyhow host _).andThen fun state => ?_
  split
  · exact .throw trivial
  refine (Action.Yields.anyhow host _).andThen fun inspected => ?_
  refine (Action.Yields.anyhow host _).andThen fun _ => ?_
  dsimp only
  split
  · refine (Action.Yields.anyhow host _).andThen fun _ => ?_
    exact (Action.Yields.anyhow host _).andThen fun ref => .pure rfl
  · exact .pure rfl

theorem sanitize_warnings : (sanitize run).Yields host (·.warnings = []) any := by
  unfold sanitize
  refine (Action.Yields.anyhow host _).andThen fun state => ?_
  split
  · exact .throw trivial
  refine (Action.Yields.anyhow host _).andThen fun stripped => ?_
  refine (Action.Yields.anyhow host _).andThen fun _ => ?_
  exact (Action.Yields.anyhow host _).andThen fun ref => .pure rfl

theorem remap_warnings : (remap run).Yields host (·.warnings = []) any := by
  unfold remap
  refine (Action.Yields.anyhow host _).andThen fun state => ?_
  dsimp only
  split
  · exact .throw trivial
  refine (Action.Yields.anyhow host _).andThen fun state => ?_
  refine (Action.Yields.anyhow host _).andThen fun passes => ?_
  split
  · exact .throw trivial
  · exact (Action.Yields.anyhow host _).andThen fun _ => .pure rfl

theorem decompile_warnings : (decompile run).Yields host (·.warnings = []) any := by
  unfold decompile
  refine (Action.Yields.anyhow host _).andThen fun state => ?_
  split
  · exact .throw trivial
  refine (Action.Yields.anyhow host _).andThen fun result => ?_
  refine (Action.Yields.anyhow host _).andThen fun _ => ?_
  refine (Action.Yields.anyhow host _).andThen fun _ => ?_
  exact (Action.Yields.anyhow host _).andThen fun files => .pure rfl

/-- The stages other than fetching and mapping warn of nothing. -/
theorem perform_warnings {stage : Stage} (hstage : stage ∈ all) (hfetch : stage.name ≠ "fetch")
    (hmappings : stage.name ≠ "mappings") :
    (stage.perform run).Yields host (·.warnings = []) any := by
  simp only [all, List.mem_cons, List.not_mem_nil, or_false] at hstage
  rcases hstage with rfl | rfl | rfl | rfl | rfl | rfl | rfl
  · exact resolve_warnings run host
  · exact absurd rfl hfetch
  · exact unpack_warnings run host
  · exact sanitize_warnings run host
  · exact absurd rfl hmappings
  · exact remap_warnings run host
  · exact decompile_warnings run host

end

end Stage

/-! ### Directories up to the first fetch -/

namespace Pipeline

/-- Directories stay. -/
def rising (host : Host) (here : Location) : Discipline where
  host := host
  here := here
  inv := fun _ => True
  step := fun before after => ∀ location, before.files.node? location = some .directory →
    after.files.node? location = some .directory
  faults := fun _ => True
  refl := fun _ _ => id
  trans := fun hfirst hsecond location hnode => hsecond location (hfirst location hnode)
  keep := fun _ _ => trivial
  ordinary := fun _ _ => trivial

namespace rising

variable {host : Host} {here : Location}

theorem allowsNetwork : (rising host here).AllowsNetwork where
  ask := fun _ _ _ => id
  wait := fun _ _ _ => id
  failure := fun _ _ _ _ => trivial
  broken := fun _ _ _ _ _ _ _ => trivial

theorem allowsLog : (rising host here).AllowsLog :=
  fun _ _ _ => id

theorem allowsFiles (hrooted : ".." ∉ here) (footprint : Footprint) :
    (rising host here).AllowsFiles footprint :=
  fun _ _ _ _ _ hchange => (hchange hrooted).directory

theorem allowsHand (change : RunState → RunState) : (rising host here).AllowsHand change :=
  fun _ _ _ => id

theorem resolve_keeps (hrooted : ".." ∉ here) (run : Run) :
    (Stage.resolve run).Keeps (rising host here) any := by
  unfold Stage.resolve
  refine (ReleaseSource.entry_keeps allowsNetwork _ _).andThen fun entry => ?_
  refine (ReleaseSource.metadata_keeps allowsNetwork _ _).andThen fun metadata => ?_
  refine (Run.hand_keeps (allowsHand _)).andThen fun _ => ?_
  exact (Run.emit_keeps (allowsFiles hrooted _) _ _ _).andThen fun _ => .pure trivial

end rising

variable {host : Host} {run : Run} {stages : List Stage} {start world after : World}

/-- An event that was told of stands in a file. -/
theorem stands_of_append {event : Event}
    (heval : (run.events.append event).eval host world = (.ok (), after)) :
    after.files.Stands run.events.path := by
  unfold EventLog.append at heval
  rw [Action.eval_bind_ok (Action.eval_read host world)] at heval
  obtain ⟨files, happend, rfl⟩ := Action.of_eval_onFiles_ok heval
  rcases FileTree.appendFile_cases world.files run.events.path _ with
    ⟨hreach, ⟨hnode, -⟩, whole, mode, hput⟩ | ⟨-, error, herror⟩
  · obtain ⟨-, rfl⟩ := Prod.mk.inj (hput.symm.trans happend)
    have hroot : run.events.path.normal world.files.here ≠ [] :=
      fun heq => hnode (by rw [heq, FileTree.node?_root])
    exact ⟨(Change.putFile hnode).reachable hreach, whole, mode, by simp [FileTree.node?_put, hroot]⟩
  · cases herror.symm.trans happend

theorem stands_of_begin {stage : Stage} {position : Json}
    (hbegin : (stage.begin run position).eval host world = (.ok (), after)) :
    after.files.Stands run.events.path := by
  unfold Stage.begin at hbegin
  obtain ⟨_, told, happend, hlog⟩ := Action.of_eval_bind_ok hbegin
  obtain ⟨-, rfl⟩ := Prod.mk.inj hlog
  have htold : told.files.Stands run.events.path := stands_of_append happend
  exact htold

/-! ### The stages of a run -/

/-- The stage that has `n` stages before it has begun in `started`, and come to a result and the world
`after`. -/
def Executes (host : Host) (run : Run) (stages : List Stage) (start : World) (n : Nat)
    (started : World) (result : StageResult) (after : World) : Prop :=
  ∃ reached stage, Reaches host run stages start n reached ∧ stages[n]? = some stage ∧
    (stage.begin run (.ofOption (some (position n stages.length)))).eval host reached =
      (.ok (), started) ∧
    (stage.execute run (some (position n stages.length))).eval host reached = (.ok result, after)

/-- Every result of the stages is one that a stage came to. -/
theorem executes_of_executeFrom_ok {rest : List Stage} {n : Nat} (hrest : stages.drop n = rest)
    {reached last : World} (hreaches : Reaches host run stages start n reached)
    {results : List StageResult}
    (heval : (executeFrom run stages.length n rest).eval host reached = (.ok results, last))
    {m : Nat} {result : StageResult} (hresult : results[m]? = some result) :
    ∃ started after, Executes host run stages start (n + m) started result after := by
  induction rest generalizing n reached results m with
  | nil =>
    obtain rfl := Except.ok.inj (Prod.mk.inj heval).1
    cases hresult
  | cons stage rest ih =>
    obtain ⟨hstage, hdrop⟩ := drop_eq_cons_iff.mp hrest
    unfold executeFrom at heval
    obtain ⟨first, middle, hexecute, heval⟩ := Action.of_eval_bind_ok heval
    obtain ⟨started, hbegin, -⟩ := Stage.of_eval_execute_ok hexecute
    have hfirst : Executes host run stages start n started first middle :=
      ⟨reached, stage, hreaches, hstage, hbegin, hexecute⟩
    split at heval
    · obtain ⟨_, logged, -, heval⟩ := Action.of_eval_bind_ok heval
      obtain rfl := Except.ok.inj (Prod.mk.inj heval).1
      cases m with
      | zero => exact Option.some.inj hresult ▸ ⟨started, middle, hfirst⟩
      | succ m => cases hresult
    · rename_i hgoes
      obtain ⟨others, ended, hothers, heval⟩ := Action.of_eval_bind_ok heval
      obtain ⟨hvalue, rfl⟩ := Prod.mk.inj heval
      obtain rfl := Except.ok.inj hvalue
      have hsuccess : first.status = .success :=
        (Stage.status_of_eval_execute_ok hexecute).resolve_right fun hfailed =>
          hgoes (by simp [RunReport.hasFailed, hfailed])
      cases m with
      | zero => exact Option.some.inj hresult ▸ ⟨started, middle, hfirst⟩
      | succ m =>
        rw [show n + (m + 1) = n + 1 + m by omega]
        exact ih hdrop (hreaches.next hstage hexecute hsuccess) hothers hresult

variable {request : Request} {preflight : Preflight} {provider : MappingProvider}
  {ready begun started : World}

/-- Up to the second stage no directory is taken away from a workspace that was entered. -/
theorem directory_of_ready (hrooted : ".." ∉ ready.files.here)
    (hbegun : (beginRun Stage.all request.workspaceOf request.runId request.version request.settings
      provider request.notes).eval host ready = (.ok run, begun))
    {reached : World} (hreaches : Reaches host run Stage.all begun 1 reached) {stage : Stage}
    {position : Json} (hbegin : (stage.begin run position).eval host reached = (.ok (), started)) :
    (rising host ready.files.here).Ready started ∧
      ∀ location, ready.files.node? location = some .directory →
        started.files.node? location = some .directory := by
  have hfiles : ∀ footprint, (rising host ready.files.here).AllowsFiles footprint :=
    rising.allowsFiles hrooted
  have hlog : (rising host ready.files.here).AllowsLog := rising.allowsLog
  rw [eval_beginRun] at hbegun
  have hcleared : (rising host ready.files.here).Ready { ready with state := {} } := ⟨rfl, trivial⟩
  obtain ⟨hopened, hbegan⟩ := hcleared.evaluated (opened_keeps (request.runWith provider)
    (hfiles _) (hfiles _) hlog (hfiles _) rfl Stage.all request.notes) hbegun
  cases hreaches with | next hbefore hstage hexecute _ =>
  cases hbefore with | start =>
  obtain rfl := Option.some.inj hstage
  obtain ⟨hreached, hexecuted⟩ := hopened.evaluated (Stage.execute_keeps (hfiles _) hlog
    (rising.resolve_keeps hrooted run) _) hexecute
  obtain ⟨hready, hstarted⟩ := hreached.evaluated (Stage.begin_keeps (hfiles _) hlog stage _) hbegin
  exact ⟨hready, fun location hnode => hstarted _ (hexecuted _ (hbegan _ hnode))⟩

/-- Nor is one from the files that were there. -/
theorem directory_of_begun (hrooted : ".." ∉ world.files.here)
    (henter : (enter preflight.check request).eval host world = (.ok provider, ready))
    (hbegun : (beginRun Stage.all request.workspaceOf request.runId request.version request.settings
      provider request.notes).eval host ready = (.ok run, begun))
    {reached : World} (hreaches : Reaches host run Stage.all begun 1 reached) {stage : Stage}
    {position : Json} (hbegin : (stage.begin run position).eval host reached = (.ok (), started))
    {location : Location} (hnode : world.files.node? location = some .directory) :
    started.files.node? location = some .directory := by
  have hworld : (rising host world.files.here).Ready world := ⟨rfl, trivial⟩
  obtain ⟨hready, hentered⟩ := hworld.evaluated
    (enter_keeps preflight request (fun _ _ => rising.allowsFiles hrooted _) fun _ => trivial) henter
  exact (directory_of_ready (hready.here ▸ hrooted) hbegun hreaches hbegin).2 _ (hentered _ hnode)

end Pipeline

/-! ### Accounts -/

namespace Stage

open Release (Reports)

variable {run : Run} {output : StageOutput} {events : List Event}

/-- No event of the end of a stage is one of its own work. -/
theorem filter_closing (run : Run) (stage : String) (output : StageOutput) {kind : String}
    (hkind : kind ∉ markers) : (closing run stage output).filter (·.kind = kind) = [] := by
  refine List.filter_eq_nil_iff.mpr fun event hevent hsame => hkind ?_
  obtain rfl := of_decide_eq_true hsame
  simp only [closing, metricsEvents, List.mem_append, List.mem_map] at hevent
  rcases hevent with ⟨warning, -, rfl⟩ | hmetrics | hsuccess
  · simp [warnEvent, markers]
  · split at hmetrics
    · cases hmetrics
    · obtain rfl := List.mem_singleton.mp hmetrics
      simp [markers]
  · obtain rfl := List.mem_singleton.mp hsuccess
    simp [successEvent, markers]

/-- What is told of libraries. Each of them is counted once; there is one warning and one event for
each that could not be had, and one event for each that was there, in their order. -/
structure LibraryAccount (run : Run) (dependencies : List Dependency) (libraries : List LibraryFetch)
    (output : StageOutput) (events : List Event) : Prop where
  reports : List.Forall₂ Reports dependencies libraries
  metrics : output.metrics =
    [("libraries_downloaded", .ofNat (libraries.countP (·.status = .downloaded))),
      ("libraries_present", .ofNat (libraries.countP (·.status = .present))),
      ("libraries_failed", .ofNat (libraries.countP (·.status = .failed)))]
  total : libraries.countP (·.status = .downloaded) + libraries.countP (·.status = .present) +
    libraries.countP (·.status = .failed) = dependencies.length
  warnings : output.warnings.map some = (libraries.filter (·.status = .failed)).map (·.warning)
  missed : events.filter (·.kind = "fetch.library.failed") =
    (libraries.filter (·.status = .failed)).zipWith (missedEvent run) output.warnings
  skipped : events.filter (·.kind = "fetch.library.skip") =
    (libraries.filter (·.status = .present)).map (skipEvent run)

theorem count_statuses (libraries : List LibraryFetch) :
    libraries.countP (·.status = .downloaded) + libraries.countP (·.status = .present) +
      libraries.countP (·.status = .failed) = libraries.length := by
  induction libraries with
  | nil => rfl
  | cons library rest ih =>
    cases hstatus : library.status <;>
      simp only [List.countP_cons, List.length_cons, hstatus, reduceCtorEq, decide_true, decide_false,
        if_true, Bool.false_eq_true, if_false] <;> omega

theorem missed_of_library (library : LibraryFetch) :
    (libraryEvents run library).filter (·.kind = "fetch.library.failed") =
      library.warning.toList.map (missedEvent run library) := by
  unfold libraryEvents
  cases library.warning <;> split <;> simp [skipEvent, missedEvent]

theorem skipped_of_library (library : LibraryFetch) :
    (libraryEvents run library).filter (·.kind = "fetch.library.skip") =
      if library.status = .present then [skipEvent run library] else [] := by
  unfold libraryEvents
  cases library.warning <;> split <;> simp [skipEvent, missedEvent]

theorem skipped_of_libraries (libraries : List LibraryFetch) :
    (libraries.flatMap (libraryEvents run)).filter (·.kind = "fetch.library.skip") =
      (libraries.filter (·.status = .present)).map (skipEvent run) := by
  induction libraries with
  | nil => rfl
  | cons library rest ih =>
    rw [List.flatMap_cons, List.filter_append, skipped_of_library, ih]
    by_cases hpresent : library.status = .present <;> simp [hpresent]

section Libraries

variable {libraries : List LibraryFetch}
  (hwarned : ∀ library ∈ libraries, library.status = .failed ↔ library.warning.isSome)

include hwarned

theorem warnings_of_libraries : (libraries.filterMap (·.warning)).map some =
    (libraries.filter (·.status = .failed)).map (·.warning) := by
  induction libraries with
  | nil => rfl
  | cons library rest ih =>
    have hrest := ih fun other hother => hwarned other (List.mem_cons_of_mem _ hother)
    have hfirst := hwarned library List.mem_cons_self
    cases hwarning : library.warning <;> simp_all

theorem missed_of_libraries :
    (libraries.flatMap (libraryEvents run)).filter (·.kind = "fetch.library.failed") =
      (libraries.filter (·.status = .failed)).zipWith (missedEvent run)
        (libraries.filterMap (·.warning)) := by
  induction libraries with
  | nil => rfl
  | cons library rest ih =>
    have hrest := ih fun other hother => hwarned other (List.mem_cons_of_mem _ hother)
    have hfirst := hwarned library List.mem_cons_self
    rw [List.flatMap_cons, List.filter_append, missed_of_library, hrest]
    cases hwarning : library.warning <;> simp_all

end Libraries

theorem Fetches.account {dependencies : List Dependency} {libraries : List LibraryFetch}
    (hfetches : Fetches run dependencies libraries output events) :
    LibraryAccount run dependencies libraries output
      (events ++ closing run "fetch" output) := by
  obtain ⟨hreports, hmetrics, hwarnings, ref, rfl⟩ := hfetches
  have hwarned : ∀ library ∈ libraries, library.status = .failed ↔ library.warning.isSome :=
    fun library hlibrary =>
      have ⟨_, _, hreport⟩ := Result.exists_item hreports hlibrary
      hreport.warning
  refine
    { reports := hreports
      metrics := hmetrics
      total := (count_statuses libraries).trans hreports.length_eq.symm
      warnings := hwarnings ▸ warnings_of_libraries hwarned
      missed := ?_
      skipped := ?_ }
  · rw [List.filter_append, filter_closing run _ output (by decide), List.append_nil,
      List.filter_cons_of_neg (by simp [artifactEvent]), missed_of_libraries hwarned, hwarnings]
  · rw [List.filter_append, filter_closing run _ output (by decide), List.append_nil,
      List.filter_cons_of_neg (by simp [artifactEvent]), skipped_of_libraries]

/-- What is told of the layer of readable names: that it is missing, in one warning and in one event,
exactly if the chain does not end in readable names. -/
def LayerAccount (run : Run) (sets : List MappingSet) (output : StageOutput) (events : List Event) :
    Prop :=
  ∃ space, sets.getLast?.map (·.target) = some space ∧
    (space = namedNamespace ∧ output.warnings = [] ∧
        events.filter (·.kind = "mappings.layer.missing") = [] ∨
      space ≠ namedNamespace ∧ run.provider ≠ .direct ∧ (∃ warning, output.warnings = [warning]) ∧
        ∃ message, events.filter (·.kind = "mappings.layer.missing") = [missingEvent run message])

theorem Maps.account {sets : List MappingSet} (hmaps : Maps run sets output events) :
    LayerAccount run sets output (events ++ closing run "mappings" output) := by
  obtain ⟨⟨space, hspace, hlayer⟩, hwarnings⟩ := hmaps
  obtain ⟨last, hlast, rfl⟩ := Option.map_eq_some_iff.mp hspace
  have hwarned : output.warnings = if last.target = namedNamespace then []
      else ["Named layer unavailable; output stays in the " ++ last.target ++ " namespace"] := by
    rw [hwarnings, layerWarnings, hlast]
  unfold LayerAccount
  rw [List.filter_append, filter_closing run _ output (by decide), List.append_nil]
  rcases hlayer with ⟨hnamed, hnone⟩ | ⟨hother, hdirect, hmissing⟩
  · exact ⟨last.target, hspace, .inl ⟨hnamed, by rw [hwarned, if_pos hnamed], hnone⟩⟩
  · exact ⟨last.target, hspace, .inr ⟨hother, hdirect, ⟨_, by rw [hwarned, if_neg hother]⟩, hmissing⟩⟩

end Stage

namespace Pipeline

open Stage (LibraryAccount LayerAccount)

variable {host : Host} {run : Run} {request : Request} {preflight : Preflight}
  {world started after : World}

/-- The event log holds these events more than it did. -/
def Grows (host : Host) (run : Run) (before after : FileTree) (events : List Event) : Prop :=
  ∃ contents mode mode',
    before.node? (run.events.path.normal before.here) = some (.file contents mode) ∧
    after.node? (run.events.path.normal before.here) =
      some (.file (contents ++ events.flatMap (line host)) mode')

/-- The account of a stage that began in `started` and came to a result. -/
structure Accounted (host : Host) (run : Run) (started : World) (result : StageResult)
    (after : World) : Prop where
  warned : result.output.warnings ≠ [] → result.stage = "fetch" ∨ result.stage = "mappings"
  fetched : result.stage = "fetch" → result.status = .success → ∃ metadata libraries events,
    started.state.metadata = some metadata ∧ Grows host run started.files after.files events ∧
      LibraryAccount run metadata.dependencies libraries result.output events
  mapped : result.stage = "mappings" → result.status = .success → ∃ events,
    Grows host run started.files after.files events ∧
      LayerAccount run after.state.mappingSets result.output events

/-- The stage that has `n` stages before it has begun in `started` and come to a result. -/
def Request.Executes (request : Request) (preflight : Preflight) (host : Host) (world : World)
    (run : Run) (n : Nat) (started : World) (result : StageResult) (after : World) : Prop :=
  ∃ provider ready begun,
    (enter preflight.check request).eval host world = (.ok provider, ready) ∧
    (beginRun Stage.all request.workspaceOf request.runId request.version request.settings provider
      request.notes).eval host ready = (.ok run, begun) ∧
    Pipeline.Executes host run Stage.all begun n started result after

/-- Every result that a report has is one that a stage of the run came to. -/
theorem Request.executes_of_ending_ok {request : Request} {preflight : Preflight} {host : Host}
    {world : World} {outcome : RunOutcome} (houtcome : (request.ending preflight host world).1 = .ok outcome)
    {n : Nat} {result : StageResult} (hresult : outcome.report.stages[n]? = some result) :
    ∃ started after, request.Executes preflight host world outcome.run n started result after := by
  have heval : (Pipeline.run preflight.check request).eval host world =
      (.ok outcome, (request.ending preflight host world).2) := Prod.ext houtcome rfl
  unfold Pipeline.run runStages at heval
  obtain ⟨provider, ready, henter, heval⟩ := Action.of_eval_bind_ok heval
  rw [Action.eval_bind_ok (Action.eval_read host ready)] at heval
  obtain ⟨run, begun, hbegun, heval⟩ := Action.of_eval_bind_ok heval
  obtain ⟨results, last, hstages, hfinish⟩ := Action.of_eval_bind_ok heval
  obtain ⟨-, hends⟩ := finishRun_frame host run request.notes host.clock results last
  rw [hfinish] at hends
  obtain ⟨⟨-, rfl, rfl, -⟩, -⟩ := hends outcome rfl
  obtain ⟨started, after, hexecutes⟩ := executes_of_executeFrom_ok rfl .start hstages hresult
  rw [Nat.zero_add] at hexecutes
  exact ⟨started, after, provider, ready, begun, henter, hbegun, hexecutes⟩

theorem fetch_second {n : Nat} {stage : Stage} (hstage : Stage.all[n]? = some stage)
    (hname : stage.name = "fetch") : n = 1 ∧ stage = ⟨"fetch", Stage.fetch⟩ := by
  match n, hstage with
  | 1, hstage => exact ⟨rfl, (Option.some.inj hstage).symm⟩
  | 0, hstage | 2, hstage | 3, hstage | 4, hstage | 5, hstage | 6, hstage =>
    cases hstage
    simp at hname
  | n + 7, hstage => simp [Stage.all] at hstage

theorem mappings_fifth {n : Nat} {stage : Stage} (hstage : Stage.all[n]? = some stage)
    (hname : stage.name = "mappings") : n = 4 ∧ stage = ⟨"mappings", Stage.mappings⟩ := by
  match n, hstage with
  | 4, hstage => exact ⟨rfl, (Option.some.inj hstage).symm⟩
  | 0, hstage | 1, hstage | 2, hstage | 3, hstage | 5, hstage | 6, hstage =>
    cases hstage
    simp at hname
  | n + 7, hstage => simp [Stage.all] at hstage

theorem Grown.grows {here : Location} {led : Prop} {contents : Bytes} {mode : Nat}
    {events : List Event} {state : RunState} {before after : World}
    (hbefore : before.files.node? (run.events.path.normal before.files.here) =
      some (.file contents mode)) (hhere : before.files.here = here)
    (hafter : Grown host here run led contents ([] ++ events) state after) :
    Grows host run before.files after.files events := by
  obtain ⟨mode', hlog⟩ := hafter.log
  exact ⟨contents, mode, mode', hbefore, by rw [hhere]; exact hlog⟩

theorem accounted_of_executes (hrooted : ".." ∉ world.files.here)
    (hleads : world.files.Leads world.files.here) {n : Nat} {result : StageResult}
    (hexecutes : request.Executes preflight host world run n started result after) :
    Accounted host run started result after := by
  obtain ⟨provider, ready, begun, henter, hbegun, reached, stage, hreaches, hstage, hbegin, heval⟩ :=
    hexecutes
  obtain ⟨hprovider, rfl, hhere⟩ := Request.of_begun henter hbegun
  have hfixed : ∀ word sets, (request.runWith provider).provider ≠ .fixed word sets :=
    request.provider_ne_fixed hprovider
  have hnames := request.namesLog provider
  obtain ⟨hstarted, hhanded⟩ := Performing.handedOver hfixed ⟨reached, stage, hreaches, hstage, hbegin⟩
  have hstands := stands_of_begin hbegin
  obtain ⟨contents, mode, hnode⟩ := hstands.node
  have hplace : started.files.here = world.files.here := hstarted.trans hhere
  -- The stage finds in its event log whatever was told before it began.
  have hgrown : ∀ {led : Prop}, (led → started.files.Leads
      ((request.runWith provider).events.path.normal world.files.here)) →
      Grown host world.files.here (request.runWith provider) led contents [] started.state started :=
    fun hled => ⟨⟨mode, by simpa [hplace] using hnode⟩, hstands, hled, hplace, rfl⟩
  obtain ⟨_, hbegin', hends⟩ := Stage.of_eval_execute_ok heval
  obtain ⟨-, rfl⟩ := Prod.mk.inj (hbegin.symm.trans hbegin')
  rcases hends with ⟨-, hfailed, houtput, -⟩ | ⟨output, performed, hperform, hfinish⟩
  · exact ⟨by simp [houtput], by simp [hfailed], by simp [hfailed]⟩
  obtain ⟨hname, hwarnings, -⟩ := Stage.of_eval_finish_ok hfinish
  refine ⟨fun hwarned => ?_, fun hfetch hsuccess => ?_, fun hmappings hsuccess => ?_⟩
  · by_contra hother
    rw [not_or, hname] at hother
    have hnone := Stage.perform_warnings (request.runWith provider) host
      (List.mem_of_getElem? hstage) hother.1 hother.2 started
    rw [hperform] at hnone
    exact hwarned (hwarnings.trans hnone)
  · obtain ⟨rfl, rfl⟩ := fetch_second hstage (hname ▸ hfetch)
    have hrises : started.files.Leads world.files.here := hleads.mono fun _ =>
      directory_of_begun hrooted henter hbegun hreaches hbegin
    have hled := hstands.reachable.leads_normal (hplace ▸ hrises)
    rw [hplace] at hled
    obtain ⟨events, state, rfl, ⟨metadata, libraries, hmetadata, hfetches⟩, hafter⟩ :=
      Stage.execute_adds (Stage.fetch_adds hrooted hnames) (hgrown fun _ => hled) hperform hfinish
        hsuccess
    exact ⟨metadata, libraries, _, hmetadata, hafter.grows hnode hplace, hfetches.account⟩
  · obtain ⟨rfl, rfl⟩ := mappings_fifth hstage (hname ▸ hmappings)
    have hstripped := hhanded.stripped (by simp)
    have hspace : ∀ artifact, started.state.stripped = some artifact →
        artifact.space = officialNamespace := by
      intro artifact hartifact
      obtain rfl := Option.some.inj (hstripped.symm.trans hartifact)
      rfl
    obtain ⟨events, state, rfl, hmaps, hafter⟩ := Stage.execute_adds
      (Stage.mappings_adds hrooted hnames hfixed hspace) (hgrown False.elim) hperform hfinish hsuccess
    exact ⟨_, hafter.grows hnode hplace, hafter.state ▸ hmaps.account⟩

/-- **Soft failures are accounted for.** Every stage of a run accounts for its warnings, and the report
has the results of its stages. -/
theorem run_accounts (request : Request) (preflight : Preflight) (host : Host) (world : World)
    (hrooted : ".." ∉ world.files.here) (hleads : world.files.Leads world.files.here) :
    (∀ run n started result after,
      request.Executes preflight host world run n started result after →
        Accounted host run started result after) ∧
    ∀ outcome, (request.ending preflight host world).1 = .ok outcome →
      ∀ n result, outcome.report.stages[n]? = some result → ∃ started after,
        request.Executes preflight host world outcome.run n started result after := by
  refine ⟨fun run n started result after hexecutes =>
    accounted_of_executes hrooted hleads hexecutes, fun outcome houtcome n result hresult => ?_⟩
  exact Request.executes_of_ending_ok houtcome hresult

/-- One version with two libraries, of which the first is not to be had. -/
def libraryService : Host :=
  { Host.idle with
    network := fun _ address =>
      if address = "http://m" then .response 200 none (Text.Utf8.encode
        "\x7b\"versions\": [\x7b\"id\": \"1.0\", \"url\": \"http://v\"\x7d], \"latest\": \x7b\x7d\x7d") none
      else if address = "http://v" then .response 200 none (Text.Utf8.encode
        ("\x7b\"id\": \"1.0\", \"downloads\": \x7b\"server\": \x7b\"url\": \"http://s\"\x7d\x7d, \"libraries\": [" ++
          "\x7b\"name\": \"a\", \"downloads\": \x7b\"artifact\": \x7b\"path\": \"a.jar\", \"url\": \"http://a\"\x7d\x7d\x7d, " ++
          "\x7b\"name\": \"b\", \"downloads\": \x7b\"artifact\": \x7b\"path\": \"b.jar\", \"url\": \"http://b\"\x7d\x7d\x7d]\x7d"))
        none
      else if address = "http://a" then .response 404 none [] none
      else .response 200 none [7] none }

/-- A request that finds its version. -/
def Request.served : Request :=
  { Request.plain with settings := { Request.plain.settings with manifestUrl := "http://m" } }

theorem run_accounts_served : ∃ outcome result started after,
    (Request.served.ending .lenient libraryService { files := .bare }).1 = .ok outcome ∧
    outcome.report.stages[1]? = some result ∧ result.stage = "fetch" ∧ result.status = .success ∧
    result.output.warnings = ["Skipped library a: HTTP 404 for http://a"] ∧
    Request.served.Executes .lenient libraryService { files := .bare } outcome.run 1 started result
      after ∧
    Accounted libraryService outcome.run started result after := by
  have heval : (Request.served.ending .lenient libraryService { files := .bare }).1.toOption.map
      (fun outcome => outcome.report.stages[1]?.map fun result =>
        (result.stage, result.status, result.output.warnings)) =
      some (some ("fetch", .success, ["Skipped library a: HTTP 404 for http://a"])) := by
    decide +kernel
  obtain ⟨outcome, houtcome, hsecond⟩ := Option.map_eq_some_iff.mp heval
  obtain ⟨result, hresult, hfields⟩ := Option.map_eq_some_iff.mp hsecond
  obtain ⟨hstage, hfields⟩ := Prod.mk.inj hfields
  obtain ⟨hstatus, hwarnings⟩ := Prod.mk.inj hfields
  have hending : (Request.served.ending .lenient libraryService { files := .bare }).1 =
      .ok outcome := Action.ok_of_toOption houtcome
  have hleads : FileTree.bare.Leads FileTree.bare.here := by
    intro above habove hother
    rcases List.prefix_cons_iff.mp habove with rfl | ⟨rest, rfl, hrest⟩
    · rfl
    · exact absurd (congrArg _ (List.prefix_nil.mp hrest)) hother
  obtain ⟨haccounts, hreported⟩ := run_accounts Request.served .lenient libraryService
    { files := .bare } (by decide) hleads
  obtain ⟨started, after, hexecutes⟩ := hreported outcome hending 1 result hresult
  exact ⟨outcome, result, started, after, hending, hresult, hstage, hstatus, hwarnings, hexecutes,
    haccounts _ _ _ _ _ hexecutes⟩

end Pipeline

end JarRefinery
