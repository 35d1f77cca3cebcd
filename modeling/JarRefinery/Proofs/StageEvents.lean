import JarRefinery.Proofs.EventLog

/-!
# The events of a stage

A stage that is executed tells of its beginning, of its own work, and of its end. Its own work has one
event for each file that it records. Which of its parts tell of something is followed through each
stage; everything else that a stage does leaves the event log alone.
-/

namespace JarRefinery

open Action (any)

namespace Stage

/-! ### Events -/

section Events

variable (run : Run) (stage : String)

def startEvent : Event :=
  ⟨"stage.start", run.id, .text stage, []⟩

def warnEvent (warning : String) : Event :=
  ⟨"stage.warn", run.id, .text stage, [("message", .text warning)]⟩

/-- There is an event for metrics if there are any. -/
def metricsEvents (metrics : Json.Fields) : List Event :=
  if metrics.isEmpty then []
  else [⟨"stage.metrics", run.id, .text stage, [("metrics", .object metrics)]⟩]

def successEvent : Event :=
  ⟨"stage.success", run.id, .text stage, [("duration_ms", .integer elapsed)]⟩

def failedEvent (error : StageError) : Event :=
  ⟨"stage.failed", run.id, .text stage, [("duration_ms", .integer elapsed),
    ("exc_type", .text error.kind), ("message", .text error.message)]⟩

/-- The event that a stage has recorded a file. -/
def artifactEvent (ref : ArtifactRef) : Event :=
  ⟨"artifact.written", run.id, .text stage, [("path", .text ref.path), ("bytes", .ofNat ref.bytes),
    ("sha256", .text ref.sha256), ("content_type", .ofOption ref.contentType)]⟩

/-- What a stage that succeeds tells of at its end. -/
def closing (output : StageOutput) : List Event :=
  output.warnings.map (warnEvent run stage) ++
    (metricsEvents run stage output.metrics ++ [successEvent run stage])

/-- The kinds of events that mark the course of a run and of its stages. -/
def markers : List String :=
  ["run.env", "run.start", "run.finish", "stage.start", "stage.warn", "stage.metrics",
    "stage.success", "stage.failed"]

/-- An event of the work that the stage itself does. -/
structure Own (event : Event) : Prop where
  stage : event.stage = .text stage
  runId : event.runId = run.id
  kind : event.kind ∉ markers

/-- Events of a stage's own work, in which it recorded exactly these files. -/
structure Works (refs : List ArtifactRef) (events : List Event) : Prop where
  own : ∀ event ∈ events, Own run stage event
  recorded : events.filter (·.kind = "artifact.written") = refs.map (artifactEvent run stage)

end Events

variable {run : Run} {stage : String} {refs : List ArtifactRef} {events : List Event}

theorem Works.nil : Works run stage [] [] :=
  ⟨by simp, rfl⟩

theorem Works.tell (hworks : Works run stage refs events) {event : Event}
    (hown : Own run stage event) (hkind : event.kind ≠ "artifact.written") :
    Works run stage refs (events ++ [event]) where
  own := by simpa [or_imp, forall_and] using ⟨hworks.own, hown⟩
  recorded := by simp [hworks.recorded, hkind]

theorem Works.record (hworks : Works run stage refs events) (ref : ArtifactRef) :
    Works run stage (refs ++ [ref]) (events ++ [artifactEvent run stage ref]) where
  own := by
    have hown : Own run stage (artifactEvent run stage ref) := ⟨rfl, rfl, by simp [artifactEvent, markers]⟩
    simpa [or_imp, forall_and] using ⟨hworks.own, hown⟩
  recorded := by simp [hworks.recorded, artifactEvent]

open Pipeline (Logs muted Fits)

/-- A stage has begun after `earlier` events, and has recorded these files since. -/
def Noted (host : Host) (here : Location) (run : Run) (stage : String) (earlier : List Event)
    (refs : List ArtifactRef) (world : World) : Prop :=
  ∃ own, Works run stage refs own ∧ Logs host here run (earlier ++ own) world

variable {host : Host} {here : Location} {earlier : List Event}

theorem Noted.ready {world : World} (hnoted : Noted host here run stage earlier refs world) :
    (muted host here run).Ready world :=
  have ⟨_, _, hlogs⟩ := hnoted
  hlogs.ready

theorem Noted.stable : (muted host here run).Stable (Noted host here run stage earlier refs) :=
  fun hstep ⟨own, hworks, hlogs⟩ => ⟨own, hworks, Logs.stable hstep hlogs⟩

end Stage

namespace Action

open Pipeline (Logs muted reporting Fits)
open Stage (Noted Own)

variable {α β : Type} {host : Host} {here : Location} {run : Run} {stage : String}
  {earlier : List Event}

/-- From `before` on the action records files: `after` if it comes to a value. -/
def Notes (host : Host) (here : Location) (run : Run) (stage : String) (earlier : List Event)
    (before : List ArtifactRef) (action : Action α) (after : α → List ArtifactRef) : Prop :=
  Leads host (Noted host here run stage earlier before) action
    (fun value => Noted host here run stage earlier (after value))
    fun world => ∃ refs, Noted host here run stage earlier refs world

namespace Notes

variable {before between : List ArtifactRef} {after : β → List ArtifactRef}

theorem pure {value : β} (hafter : after value = before) :
    Notes host here run stage earlier before (Pure.pure value) after :=
  Leads.pure fun _ hnoted => hafter ▸ hnoted

theorem throw {fault : Fault} :
    Notes host here run stage earlier before (MonadExcept.throw fault : Action β) after :=
  Leads.throw fun _ hnoted => ⟨before, hnoted⟩

theorem bind {action : Action α} {next : α → Action β} {first : α → List ArtifactRef}
    (haction : Notes host here run stage earlier before action first)
    (hnext : ∀ value, Notes host here run stage earlier (first value) (next value) after) :
    Notes host here run stage earlier before (action >>= next) after :=
  Leads.bind haction hnext

/-- What keeps the event log as it is records nothing. -/
theorem thenQuiet {action : Action α} {next : α → Action β} {gives : α → Prop}
    (hkeeps : action.Keeps (muted host here run) gives)
    (hnext : ∀ value, gives value → Notes host here run stage earlier before (next value) after) :
    Notes host here run stage earlier before (action >>= next) after := by
  have hquiet : Leads host (Noted host here run stage earlier before) action
      (fun value world => gives value ∧ Noted host here run stage earlier before world)
      fun world => ∃ refs, Noted host here run stage earlier refs world :=
    .keeps hkeeps (fun _ hnoted => hnoted.ready) Noted.stable fun _ hnoted => ⟨before, hnoted⟩
  exact Leads.bind hquiet fun value => .known (hnext value)

/-- What is known of the value from what the action keeps to besides. -/
theorem thenKnown {action : Action α} {next : α → Action β} {gives : α → Prop}
    (haction : Notes host here run stage earlier before action fun _ => between)
    (hkeeps : action.Keeps (reporting host here run ∅) gives)
    (hnext : ∀ value, gives value → Notes host here run stage earlier between (next value) after) :
    Notes host here run stage earlier before (action >>= next) after := by
  have hknown : Leads host (Noted host here run stage earlier before) action
      (fun value world => gives value ∧ Noted host here run stage earlier between world)
      fun world => ∃ refs, Noted host here run stage earlier refs world :=
    ⟨fun hnoted heval => ⟨hkeeps.value hnoted.ready.here hnoted.ready.inv heval,
      haction.value hnoted heval⟩, fun hnoted heval => haction.fault hnoted heval⟩
  exact Leads.bind hknown fun value => .known (hnext value)

/-- What was handed on is known to be of the run. -/
theorem thenHanded {next : RunState → Action β}
    (hnext : ∀ state, Handed run state → Notes host here run stage earlier before (next state) after) :
    Notes host here run stage earlier before (Run.handed >>= next) after :=
  thenQuiet (Stage.handed_keeps muted.hands) hnext

theorem thenHand {change : RunState → RunState} {next : Unit → Action β}
    (hhanded : ∀ state, Handed run state → Handed run (change state))
    (hnext : Notes host here run stage earlier before (next ()) after) :
    Notes host here run stage earlier before (Run.hand change >>= next) after :=
  thenQuiet (Run.hand_keeps (muted.hands.hand change hhanded)) fun _ _ => hnext

section Telling

variable (hrooted : ".." ∉ here) (hfits : Fits run)

include hrooted hfits

theorem append {event : Event} {refs : List ArtifactRef}
    (hworks : ∀ own, Stage.Works run stage before own → Stage.Works run stage refs (own ++ [event])) :
    Notes host here run stage earlier before (run.events.append event) fun _ => refs := by
  have htold : ∀ world, Noted host here run stage earlier before world → ∃ after,
      (run.events.append event).eval host world = (.ok (), after) ∧
        Noted host here run stage earlier refs after := by
    rintro world ⟨own, hown, hlogs⟩
    obtain ⟨after, heval, hafter⟩ := hlogs.append hrooted hfits event
    exact ⟨after, heval, own ++ [event], hworks own hown, by simpa using hafter⟩
  constructor
  · intro world after value hnoted heval
    obtain ⟨_, heval', hafter⟩ := htold world hnoted
    obtain ⟨-, rfl⟩ := Prod.mk.inj (heval.symm.trans heval')
    exact hafter
  · intro world after fault hnoted heval
    obtain ⟨_, heval', -⟩ := htold world hnoted
    cases heval.symm.trans heval'

theorem emit {kind : String} (hkind : kind ∉ "artifact.written" :: Stage.markers)
    (data : Json.Fields) :
    Notes host here run stage earlier before (run.emit stage kind data) fun _ => before := by
  rw [List.mem_cons, not_or] at hkind
  exact append hrooted hfits fun _ hworks => hworks.tell ⟨rfl, rfl, hkind.2⟩ hkind.1

theorem record (contentType : Option String) (path : Path) :
    Notes host here run stage earlier before (run.recordArtifact stage contentType path)
      fun ref => before ++ [ref] := by
  unfold Run.recordArtifact
  refine thenQuiet (FileDigest.ofFile_keeps path) fun digest _ => ?_
  exact (append hrooted hfits fun _ hworks => hworks.record _).bind fun _ => .pure rfl

end Telling

theorem forM {items : List α} {action : α → Action PUnit}
    (haction : ∀ item ∈ items,
      Notes host here run stage earlier before (action item) fun _ => before) :
    Notes host here run stage earlier before (items.forM action) fun _ => before := by
  induction items with
  | nil => exact Notes.pure rfl
  | cons item rest ih =>
    change Notes host here run stage earlier before (action item >>= fun _ => rest.forM action) _
    exact (haction item List.mem_cons_self).bind fun _ =>
      ih fun item hitem => haction item (List.mem_cons_of_mem _ hitem)

/-- Files that are recorded one after the other. -/
theorem mapM {items : List α} {action : α → Action ArtifactRef}
    (haction : ∀ item before,
      Notes host here run stage earlier before (action item) fun ref => before ++ [ref])
    (before : List ArtifactRef) :
    Notes host here run stage earlier before (items.mapM action) fun refs => before ++ refs := by
  induction items generalizing before with
  | nil => exact Notes.pure (List.append_nil before)
  | cons item rest ih =>
    rw [List.mapM_cons]
    refine (haction item before).bind fun ref => (ih (before ++ [ref])).bind fun refs => ?_
    exact .pure (by simp)

end Notes

end Action

/-! ### The stages -/

namespace Stage

open Action (Notes)
open Pipeline (muted reporting Fits)

variable {run : Run} {host : Host} {here : Location} {earlier : List Event}
  (hrooted : ".." ∉ here) (hfits : Fits run)

include hrooted hfits

theorem announceLibrary_notes (before : List ArtifactRef) (library : LibraryFetch) :
    Notes host here run "fetch" earlier before (announceLibrary run library) fun _ => before := by
  have hmissing : Notes host here run "fetch" earlier before (announceMissing run library)
      fun _ => before := by
    unfold announceMissing
    split
    · exact .pure rfl
    · exact .emit hrooted hfits (by decide) _
  rw [announceLibrary_eq]
  split
  · exact (Notes.emit hrooted hfits (by decide) _).bind fun _ => hmissing
  · exact hmissing

theorem announcePass_notes (before : List ArtifactRef) (set : MappingSet) (output : Artifact)
    (result : ToolResult) :
    Notes host here run "remap" earlier before (announcePass run set output result)
      fun ref => before ++ [ref] := by
  unfold announcePass
  exact (Notes.emit hrooted hfits (by decide) _).bind fun _ => .record hrooted hfits _ _

theorem chain_notes (hspares : host.SparesRuns run.workspace here) (remapper : Remapper)
    (artifact : Artifact) {sets : List MappingSet}
    (hsets : ∀ set ∈ sets, set.name = intermediaryNamespace ∨ set.name = namedNamespace)
    (before : List ArtifactRef) :
    Notes host here run "remap" earlier before
      (remapper.chain run.workspace (announcePass run) artifact sets)
      fun passes => before ++ passes.map (·.2) := by
  induction sets generalizing artifact before with
  | nil => exact .pure (List.append_nil before)
  | cons set rest ih =>
    unfold Remapper.chain
    refine .thenQuiet (pass_keeps (muted.allowsPass hfits hrooted hspares remapper
      (hsets set List.mem_cons_self))) fun output _ => ?_
    refine (announcePass_notes hrooted hfits before _ _ _).bind fun ref => ?_
    refine (ih output.1 (fun set hset => hsets set (List.mem_cons_of_mem _ hset))
      (before ++ [ref])).bind fun passes => ?_
    exact .pure (by simp)

variable (hnetwork : host.AnswersOrdinarily)

include hnetwork

theorem muted_producesDocument (hfixed : ∀ word sets, run.provider ≠ .fixed word sets) {path : Path}
    (hpath : run.provider.Documents run.workspace run.side any path) :
    (muted host here run).Produces path := by
  refine muted.produces hfits hrooted hnetwork ?_
  cases hprovider : run.provider with
  | direct =>
    rw [hprovider] at hpath
    rw [show path = _ from hpath]
    exact hfits.events_ne_div _ _ ".txt" 'x' (by decide) (by decide) (by decide) (by decide) here
  | chained metaUrl mavenUrl =>
    rw [hprovider] at hpath
    obtain ⟨version, -, hdocument⟩ := hpath
    exact hdocument.ne_events hfits here
  | fixed word sets => exact absurd hprovider (hfixed word sets)

theorem provide_notes (hfixed : ∀ word sets, run.provider ≠ .fixed word sets)
    (before : List ArtifactRef) :
    Notes host here run "mappings" earlier before (MappingProvider.provide run) fun _ => before := by
  have hdocuments : ∀ path, run.provider.Documents run.workspace run.side any path →
      (muted host here run).Produces path :=
    fun path hpath => muted_producesDocument hrooted hfits hnetwork hfixed hpath
  have hgives : ∀ chained : MappingProvider.Chained, chained.Gives (muted host here run) any :=
    MappingProvider.Chained.gives_any (muted.allowsNetwork hnetwork)
  unfold MappingProvider.provide
  refine .thenHanded fun state hhanded => ?_
  split
  · rename_i metadata stripped hprovider _ hstripped
    have hspace := congrArg Artifact.space (hhanded.stripped stripped hstripped)
    rw [← bind_pure (MappingProvider.provideDirect run metadata stripped)]
    exact .thenQuiet (MappingProvider.provideDirect_keeps hdocuments hprovider metadata hspace)
      fun _ _ => .pure rfl
  · exact .throw
  · rename_i metaUrl mavenUrl stripped hprovider _
    unfold MappingProvider.provideChained
    refine .thenQuiet (MappingProvider.Chained.intermediaryRelease_keeps (hgives _) _)
      fun release hversion => ?_
    refine .thenQuiet (MappingProvider.Chained.fetchIntermediary_keeps _
      (MappingProvider.Chained.produces_document hdocuments hprovider hversion .intermediary)
      (MappingProvider.Chained.produces_document hdocuments hprovider hversion .archive) _)
      fun first _ => ?_
    refine .thenQuiet (MappingProvider.Chained.fetchNamed_keeps hdocuments hprovider (hgives _) _)
      fun result hresult => ?_
    cases result with
    | error fault => exact (Notes.emit hrooted hfits (by decide) _).bind fun _ => .pure rfl
    | ok second =>
      obtain ⟨version, hversion, hsecond⟩ := hresult second rfl
      have htarget :=
        MappingProvider.Chained.produces_document hdocuments hprovider hversion .decompressed
      exact .thenQuiet (MappingProvider.Chained.decompressed_keeps htarget hsecond)
        fun _ _ => .pure rfl
  · exact .throw
  · rename_i word sets hprovider
    exact absurd hprovider (hfixed word sets)

theorem resolve_notes :
    Notes host here run "resolve" earlier [] (resolve run) fun output => output.artifacts := by
  have hallows : (muted host here run).AllowsNetwork := muted.allowsNetwork hnetwork
  unfold resolve
  refine .thenQuiet (ReleaseSource.entry_keeps hallows _ _) fun entry _ => ?_
  refine .thenQuiet (ReleaseSource.metadata_keeps hallows _ _) fun metadata _ => ?_
  refine .thenHand (fun state hhanded => hhanded.setMetadata metadata) ?_
  exact (Notes.emit hrooted hfits (by decide) _).bind fun _ => .pure rfl

theorem fetch_notes :
    Notes host here run "fetch" earlier [] (fetch run) fun output => output.artifacts := by
  have hprimary : (muted host here run).Produces (run.workspace.primary run.side) :=
    muted.produces hfits hrooted hnetwork
      (hfits.events_ne_div _ _ ".jar" 'a' (by decide) (by decide) (by decide) (by decide) here)
  unfold fetch
  refine .thenHanded fun state _ => ?_
  split
  · exact .throw
  refine .thenQuiet (Release.fetchPrimary_keeps _ _ _ _ hprimary) fun fetched hfetched => ?_
  refine .thenQuiet (.ofResult (fun fault hfault => hfetched.1 fault hfault) hfetched.2)
    fun primary hprimary => ?_
  refine .thenHand (fun state hhanded => hhanded.setPrimary hprimary) ?_
  refine (Notes.record hrooted hfits _ _).bind fun ref => ?_
  refine .thenQuiet (Release.fetchLibraries_keeps _ _ (fun rest hrest dependency =>
    Release.fetchLibraryTo_keeps _ dependency (muted.produces hfits hrooted hnetwork
      (hfits.events_ne_library hrooted (hrest.noDots hrooted)))) _) fun libraries _ => ?_
  exact (Notes.forM fun library _ => announceLibrary_notes hrooted hfits _ library).bind fun _ =>
    .pure rfl

theorem sanitize_notes :
    Notes host here run "sanitize" earlier [] (sanitize run) fun output => output.artifacts := by
  have htarget : (muted host here run).Produces (run.workspace.stripped run.side) :=
    muted.produces hfits hrooted hnetwork (hfits.events_ne_div _ _ "-stripped.jar" 'a' (by decide)
      (by decide) (by decide) (by decide) here)
  unfold sanitize Strip.artifact
  refine .thenHanded fun state hhanded => ?_
  split
  · exact .throw
  rename_i payload hpayload
  simp only [bind_assoc, pure_bind]
  refine .thenQuiet (htarget.strip _) fun counts _ => ?_
  have hstripped : payload.derive "stripped" (run.workspace.stripped run.side) none =
      CallPlan.stripped run.workspace run.side :=
    congrArg (Artifact.mk "stripped" _) (hhanded.payload payload hpayload)
  refine .thenHand (fun others hothers => hothers.setStripped hstripped) ?_
  exact (Notes.record hrooted hfits _ _).bind fun ref => .pure rfl

variable (hspares : host.SparesRuns run.workspace here)

include hspares

theorem mappings_notes (hfixed : ∀ word sets, run.provider ≠ .fixed word sets) :
    Notes host here run "mappings" earlier [] (mappings run) fun output => output.artifacts := by
  have hallows := reporting.allowances_empty hrooted hfits hnetwork hspares
  have hprovided : Notes host here run "mappings" earlier [] (providedChain run officialNamespace)
      fun _ => [] := by
    unfold providedChain
    refine (provide_notes hrooted hfits hnetwork hfixed []).bind fun sets => ?_
    exact .thenQuiet (.explain (.ofOrdinary (MappingSet.checkChain_ordinary _ _)) fun _ => rfl)
      fun _ _ => .pure rfl
  unfold mappings
  refine .thenHanded fun state hhanded => ?_
  split
  · exact .throw
  rename_i stripped hstripped
  rw [show stripped.space = officialNamespace from
    congrArg Artifact.space (hhanded.stripped stripped hstripped)]
  refine .thenKnown hprovided (providedChain_keeps hallows.documents hallows.events hallows.gives
    hfixed fun world hinv artifact hartifact =>
      congrArg Artifact.space ((hallows.handed world hinv).stripped artifact hartifact))
    fun sets hsets => ?_
  refine .thenQuiet (normalizedSets_keeps (fun path hpath =>
    muted_producesDocument hrooted hfits hnetwork hfixed hpath) hfixed hsets.1 hsets.2)
    fun sets hchain => ?_
  refine .thenHand (fun state hhanded => hhanded.setSets hchain) ?_
  refine (Notes.emit hrooted hfits (by decide) _).bind fun _ => ?_
  exact (Notes.mapM (fun set before => .record hrooted hfits _ _) []).bind fun refs => .pure rfl

omit hnetwork

theorem unpack_notes :
    Notes host here run "unpack" earlier [] (unpack run) fun output => output.artifacts := by
  unfold unpack
  refine .thenHanded fun state hhanded => ?_
  split
  · exact .throw
  rename_i primary hprimary
  obtain rfl := hhanded.primary primary hprimary
  refine .thenQuiet (package_inspect_keeps (muted.allowsMade hrooted _)
    (muted.allowsCall hfits hspares _) (Package.findPayload_keeps _)) fun inspected hinspected => ?_
  refine .thenHand (fun state hhanded => hhanded.setPayload hinspected.1) ?_
  dsimp only
  split
  · refine (Notes.emit hrooted hfits (by decide) _).bind fun _ => ?_
    exact (Notes.record hrooted hfits _ _).bind fun ref => .pure rfl
  · exact .pure rfl

theorem remap_notes :
    Notes host here run "remap" earlier [] (remap run) fun output => output.artifacts := by
  unfold remap
  refine .thenHanded fun state _ => ?_
  dsimp only
  split
  · exact .throw
  refine .thenHanded fun state hhanded => ?_
  refine (chain_notes hrooted hfits hspares _ _ (fun set hset => ?_) []).bind fun passes => ?_
  · rcases hhanded.sets with hnil | hchain
    · simp [hnil] at hset
    · exact hchain.name_eq hset
  split
  · exact .throw
  · rename_i final ref _
    exact .thenHand (fun state hhanded => hhanded.setMapped final) (.pure rfl)

theorem decompile_notes :
    Notes host here run "decompile" earlier [] (decompile run) fun output => output.artifacts := by
  unfold decompile Decompiler.decompile
  refine .thenHanded fun state _ => ?_
  split
  · exact .throw
  simp only [bind_assoc, pure_bind]
  refine .thenQuiet (ensureDirectories_keeps (muted.allowsMade hrooted _)) fun _ _ => ?_
  refine .thenQuiet (Tool.call_keeps (muted.allowsCall hfits hspares _)) fun result _ => ?_
  refine .thenQuiet (.refuse fun _ => rfl) fun _ _ => ?_
  refine .thenHand (fun state hhanded => hhanded.setSources _) ?_
  refine (Notes.emit hrooted hfits (by decide) _).bind fun _ => ?_
  exact .thenQuiet (countFiles_keeps _) fun files _ => .pure rfl

include hnetwork

/-- Every stage notes the files that its output has. -/
theorem perform_notes (hfixed : ∀ word sets, run.provider ≠ .fixed word sets) {stage : Stage}
    (hstage : stage ∈ all) :
    Notes host here run stage.name earlier [] (stage.perform run) fun output => output.artifacts := by
  simp only [all, List.mem_cons, List.not_mem_nil, or_false] at hstage
  rcases hstage with rfl | rfl | rfl | rfl | rfl | rfl | rfl
  · exact resolve_notes hrooted hfits hnetwork
  · exact fetch_notes hrooted hfits hnetwork
  · exact unpack_notes hrooted hfits hspares
  · exact sanitize_notes hrooted hfits hnetwork
  · exact mappings_notes hrooted hfits hnetwork hspares hfixed
  · exact remap_notes hrooted hfits hspares
  · exact decompile_notes hrooted hfits hspares

end Stage

end JarRefinery
