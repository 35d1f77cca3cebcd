import JarRefinery.Proofs.Handover
import JarRefinery.Proofs.Libraries
import JarRefinery.Proofs.Prefetch
import JarRefinery.Proofs.RunEvents

/-!
# What fetching and mapping add to the event log

The stages that come before a tool may have been called find their event log among the files that
they make, so what they add to it is followed part by part: from whatever it holds when the stage
begins, for as long as it stands.
-/

namespace JarRefinery

open Action (any)

/-- Directories lead to what a path leads to, if they lead to where it begins. -/
theorem FileTree.Passable.leads {tree : FileTree} {location : Location} {parts : List String}
    (hpassable : tree.Passable location parts) (hleads : tree.Leads location) :
    tree.Leads (Path.walk location parts) := by
  induction parts generalizing location with
  | nil => exact hleads
  | cons part rest ih =>
    obtain ⟨hdirectory, -, hrest⟩ := hpassable
    have hwalk : Path.walk location (part :: rest) = Path.walk (Path.walk location [part]) rest := rfl
    rw [hwalk]
    refine ih hrest fun above habove hne => ?_
    by_cases hpart : part = ".."
    · have hback : Path.walk location [part] = location.dropLast := if_pos hpart
      rw [hback] at habove hne
      refine hleads above (habove.trans (List.dropLast_prefix _)) fun hsame => hne ?_
      exact List.IsPrefix.eq_of_length_le habove (by rw [hsame, List.length_dropLast]; omega)
    · have hon : Path.walk location [part] = location ++ [part] := if_neg hpart
      rw [hon] at habove hne
      rcases List.prefix_concat_iff.mp habove with hwhole | hwithin
      · exact absurd hwhole hne
      · by_cases hsame : above = location
        · exact hsame ▸ hdirectory
        · exact hleads above hwithin hsame

theorem FileTree.Reachable.leads_normal {tree : FileTree} {path : Path} (hreach : tree.Reachable path)
    (hleads : tree.Leads tree.here) : tree.Leads (path.normal tree.here) := by
  refine hreach.passable.leads ?_
  unfold Path.start
  split
  · exact fun above habove hne => absurd (List.prefix_nil.mp habove) hne
  · exact hleads

namespace Pipeline

/-! ### The event log among other files -/

/-- The event log has its own name. -/
def NamesLog (run : Run) : Prop :=
  run.events.path.EndsIn "events.jsonl"

theorem Request.namesLog (request : Request) (provider : MappingProvider) :
    NamesLog (request.runWith provider) := by
  intro here
  change ((eventsPath request.workspaceOf request.runId).normal here).getLast? = _
  rw [eventsPath, isName_events.normal_div]
  exact List.getLast?_concat

variable {run : Run} {host : Host} {here : Location} {target : Path} (hnames : NamesLog run)

include hnames

theorem NamesLog.ne_of_endsIn {name : String} (hends : target.EndsIn name)
    (hname : name ≠ "events.jsonl") (here : Location) :
    run.events.path.normal here ≠ target.normal here := by
  intro heq
  have hlast := hends here
  rw [← heq, hnames here] at hlast
  exact hname (Option.some.inj hlast).symm

theorem NamesLog.ne_primary (here : Location) :
    run.events.path.normal here ≠ (run.workspace.primary run.side).normal here := by
  obtain ⟨front, rest, -, hparts⟩ :=
    Path.parts_ofString run.side ".jar" 'a' (by decide) (by decide) (by decide)
  obtain ⟨front', hparts'⟩ := Path.parts_div run.workspace.root hparts
  have hname : 'a' ∈ (rest ++ ".jar").toList := by simp
  refine hnames.ne_of_endsIn (Path.endsIn_of_parts hparts' (Path.named_of_mem hname (by decide)).2)
    (fun heq => ?_) here
  rw [heq] at hname
  exact absurd hname (by decide)

theorem NamesLog.notMem_siblings (here : Location) (target : Path) :
    run.events.path.normal here ∉ siblings here target := by
  rintro ⟨n, heq⟩
  have hlast := hnames here
  rw [heq, List.getLast?_concat] at hlast
  have hname := congrArg (·.toList.head?) (Option.some.inj hlast)
  simp [FileTree.siblingName] at hname

omit hnames

/-- Nothing is added to the event log, which stays a file, and nothing is handed on. -/
def hushed (host : Host) (here : Location) (run : Run) (state : RunState) : Discipline where
  host := host
  here := here
  inv := fun world => world.files.Stands run.events.path ∧ world.state = state
  step := fun before after =>
    (before.files.Stands run.events.path → after.files.Stands run.events.path ∧
      after.files.node? (run.events.path.normal here) =
        before.files.node? (run.events.path.normal here)) ∧
    (∀ location, before.files.node? location = some .directory →
      after.files.node? location = some .directory) ∧
    after.files.here = before.files.here ∧ after.state = before.state
  faults := fun _ => True
  refl := fun _ => ⟨fun hstands => ⟨hstands, rfl⟩, fun _ => id, rfl, rfl⟩
  trans := by
    rintro first second third ⟨hfirst, hdirectory, hhere, hstate⟩ ⟨hsecond, hdirectory', hhere', hstate'⟩
    refine ⟨fun hstands => ?_, fun location hnode => hdirectory' _ (hdirectory _ hnode),
      hhere'.trans hhere, hstate'.trans hstate⟩
    obtain ⟨hmiddle, hsame⟩ := hfirst hstands
    exact ⟨(hsecond hmiddle).1, (hsecond hmiddle).2.trans hsame⟩
  keep := fun hstep hinv => ⟨(hstep.1 hinv.1).1, hstep.2.2.2.trans hinv.2⟩
  ordinary := fun _ _ => trivial

namespace hushed

variable {state : RunState}

theorem allowsNetwork : (hushed host here run state).AllowsNetwork where
  ask := fun _ _ => ⟨fun hstands => ⟨hstands, rfl⟩, fun _ => id, rfl, rfl⟩
  wait := fun _ _ => ⟨fun hstands => ⟨hstands, rfl⟩, fun _ => id, rfl, rfl⟩
  failure := fun _ _ _ _ => trivial
  broken := fun _ _ _ _ _ _ _ => trivial

theorem allowsLog : (hushed host here run state).AllowsLog :=
  fun _ _ => ⟨fun hstands => ⟨hstands, rfl⟩, fun _ => id, rfl, rfl⟩

theorem allowsFiles (hrooted : ".." ∉ here) {footprint : Footprint}
    (hwritten : run.events.path.normal here ∉ footprint.written)
    (hremoved : run.events.path.normal here ∉ footprint.removed) :
    (hushed host here run state).AllowsFiles footprint := by
  rintro world files rfl - hafter hchange
  have hchange := hchange hrooted
  refine ⟨fun hstands => ⟨hstands.change hchange hremoved, ?_⟩, hchange.directory, hafter, rfl⟩
  obtain ⟨contents, mode, hnode⟩ := hstands.node
  exact (hchange.node?_file hwritten hremoved hnode).trans hnode.symm

include hnames

theorem produces (hrooted : ".." ∉ here)
    (hother : run.events.path.normal here ≠ target.normal here) :
    (hushed host here run state).Produces target := by
  refine allowsNetwork.produces (allowsFiles hrooted ?_ (hnames.notMem_siblings here target))
  rintro (hsibling | htarget)
  · exact hnames.notMem_siblings here target hsibling
  · exact hother htarget

theorem producesDocument (hrooted : ".." ∉ here)
    (hfixed : ∀ word sets, run.provider ≠ .fixed word sets) {path : Path}
    (hpath : run.provider.Documents run.workspace run.side any path) :
    (hushed host here run state).Produces path := by
  refine produces hnames hrooted ?_
  cases hprovider : run.provider with
  | direct =>
    rw [hprovider] at hpath
    obtain ⟨front, rest, -, hparts⟩ := Path.parts_ofString
      (run.side ++ "-" ++ officialNamespace ++ "-" ++ namedNamespace) ".txt" 'x' (by decide)
      (by decide) (by decide)
    obtain ⟨front', hparts'⟩ := Path.parts_div run.workspace.mappingsDirectory hparts
    have hname : 'x' ∈ (rest ++ ".txt").toList := by simp
    rw [show path = _ from hpath]
    refine hnames.ne_of_endsIn
      (Path.endsIn_of_parts hparts' (Path.named_of_mem hname (by decide)).2) (fun heq => ?_) here
    rw [heq] at hname
    exact absurd hname (by decide)
  | chained metaUrl mavenUrl =>
    rw [hprovider] at hpath
    obtain ⟨version, -, hdocument⟩ := hpath
    obtain ⟨name, hends, c, hletter, hmem⟩ := hdocument.endsIn
    refine hnames.ne_of_endsIn hends ?_ here
    rintro rfl
    obtain rfl | rfl | rfl : c = 'a' ∨ c = 'y' ∨ c = 'z' := by simpa using hletter
    all_goals exact absurd hmem (by decide)
  | fixed word sets => exact absurd hprovider (hfixed word sets)

end hushed

/-! ### What is added to the event log -/

/-- The event log holds what it held before and these events, and no more was handed on. If it was
led to by directories then it still is. -/
structure Grown (host : Host) (here : Location) (run : Run) (led : Prop) (base : Bytes)
    (told : List Event) (state : RunState) (world : World) : Prop where
  log : ∃ mode, world.files.node? (run.events.path.normal here) =
    some (.file (base ++ told.flatMap (line host)) mode)
  stands : world.files.Stands run.events.path
  leads : led → world.files.Leads (run.events.path.normal here)
  here : world.files.here = here
  state : world.state = state

variable {led : Prop} {base : Bytes} {told : List Event} {state : RunState} {world after : World}

theorem Grown.ready (hgrown : Grown host here run led base told state world) :
    (hushed host here run state).Ready world :=
  ⟨hgrown.here, hgrown.stands, hgrown.state⟩

theorem Grown.stable : (hushed host here run state).Stable (Grown host here run led base told state) := by
  rintro before after ⟨hkept, hdirectories, hhere, hstate⟩ ⟨⟨mode, hlog⟩, hstands, hleads, hbefore, hstarted⟩
  obtain ⟨hstands', hsame⟩ := hkept hstands
  exact ⟨⟨mode, hsame.trans hlog⟩, hstands', fun hled => (hleads hled).mono hdirectories,
    hhere.trans hbefore, hstate.trans hstarted⟩

/-- One more event goes to the end. -/
theorem Grown.append (hgrown : Grown host here run led base told state world) (event : Event) :
    ∃ after, (run.events.append event).eval host world = (.ok (), after) ∧
      Grown host here run led base (told ++ [event]) state after := by
  obtain ⟨⟨mode, hlog⟩, hstands, hleads, hhere, hstate⟩ := hgrown
  rw [← hhere] at hlog
  have happend : (run.events.append event).eval host world = (.ok (), { world with
      files := world.files.put (run.events.path.normal world.files.here)
        (.file (base ++ told.flatMap (line host) ++ line host event) mode) }) := by
    unfold EventLog.append
    rw [Action.eval_bind_ok (Action.eval_read host world), Action.eval_onFiles,
      hstands.reachable.eval_appendFile hlog]
    rfl
  have hchange : Change _ world.files (world.files.put (run.events.path.normal world.files.here)
      (.file (base ++ told.flatMap (line host) ++ line host event) mode)) :=
    .putFile (by simp [hlog])
  have hnonempty : run.events.path.normal world.files.here ≠ [] := by
    intro hroot
    rw [hroot, FileTree.node?_root] at hlog
    cases hlog
  refine ⟨_, happend, ⟨mode, ?_⟩, hstands.change hchange (Set.notMem_empty _),
    fun hled => (hleads hled).mono hchange.directory, hhere, hstate⟩
  rw [← hhere]
  change (world.files.put _ _).node? _ = _
  rw [FileTree.node?_put, if_neg hnonempty, if_pos rfl]
  simp

end Pipeline

namespace Action

open Pipeline

variable {α β : Type} {host : Host} {here : Location} {run : Run} {led : Prop} {before : RunState}

/-- If the action comes to a value, `post` holds of it, of the events that were added to the event log,
and of what has been handed on then. -/
structure Adds (host : Host) (here : Location) (run : Run) (led : Prop) (before : RunState)
    (action : Action α) (post : α → List Event → RunState → Prop) : Prop where
  value : ∀ {base told world after value}, Grown host here run led base told before world →
    action.eval host world = (.ok value, after) → ∃ events state, post value events state ∧
      Grown host here run led base (told ++ events) state after

namespace Adds

variable {post : β → List Event → RunState → Prop}

theorem pure {value : β} (hpost : post value [] before) :
    Adds host here run led before (Pure.pure value) post where
  value := by
    rintro base told world _ _ hgrown ⟨⟩
    exact ⟨[], before, hpost, by simpa using hgrown⟩

theorem throw {fault : Fault} :
    Adds host here run led before (MonadExcept.throw fault : Action β) post where
  value := by rintro _ _ _ _ _ - ⟨⟩

theorem bind {action : Action α} {next : α → Action β} {first : α → List Event → RunState → Prop}
    (haction : Adds host here run led before action first)
    (hnext : ∀ value events middle, first value events middle →
      Adds host here run led middle (next value) fun last more => post last (events ++ more)) :
    Adds host here run led before (action >>= next) post where
  value := by
    intro base told world after value hgrown heval
    obtain ⟨found, reached, hfirst, hrest⟩ := of_eval_bind_ok heval
    obtain ⟨events, middle, hfound, hreached⟩ := haction.value hgrown hfirst
    obtain ⟨more, last, hlast, hafter⟩ := (hnext found events middle hfound).value hreached hrest
    exact ⟨events ++ more, last, hlast, by simpa using hafter⟩

theorem weaken {action : Action β} {stronger : β → List Event → RunState → Prop}
    (haction : Adds host here run led before action stronger)
    (himp : ∀ value events after, stronger value events after → post value events after) :
    Adds host here run led before action post where
  value := by
    intro base told world after value hgrown heval
    obtain ⟨events, last, hlast, hafter⟩ := haction.value hgrown heval
    exact ⟨events, last, himp _ _ _ hlast, hafter⟩

/-- What leaves the event log alone adds nothing. -/
theorem thenQuiet {action : Action α} {next : α → Action β} {gives : α → Prop}
    (hkeeps : action.Keeps (hushed host here run before) gives)
    (hnext : ∀ value, gives value → Adds host here run led before (next value) post) :
    Adds host here run led before (action >>= next) post where
  value := by
    intro base told world after value hgrown heval
    obtain ⟨found, reached, hfirst, hrest⟩ := of_eval_bind_ok heval
    have hstep := (hgrown.ready.evaluated hkeeps hfirst).2
    have hvalue := hkeeps.value hgrown.ready.here hgrown.ready.inv hfirst
    exact (hnext found hvalue).value (Grown.stable hstep hgrown) hrest

theorem tell (event : Event) : Adds host here run led before (run.events.append event)
    fun _ events after => events = [event] ∧ after = before where
  value := by
    intro base told world after value hgrown heval
    obtain ⟨reached, happend, hreached⟩ := hgrown.append event
    obtain ⟨-, rfl⟩ := Prod.mk.inj (happend.symm.trans heval)
    exact ⟨[event], before, ⟨rfl, rfl⟩, hreached⟩

theorem thenTell {event : Event} {next : Unit → Action β}
    (hnext : Adds host here run led before (next ()) fun value more => post value (event :: more)) :
    Adds host here run led before (run.events.append event >>= next) post := by
  refine (tell event).bind fun _ events middle htold => ?_
  obtain ⟨rfl, rfl⟩ := htold
  exact hnext

theorem thenHand {change : RunState → RunState} {next : Unit → Action β}
    (hnext : Adds host here run led (change before) (next ()) post) :
    Adds host here run led before (Run.hand change >>= next) post where
  value := by
    rintro base told world after value ⟨hlog, hstands, hleads, hhere, rfl⟩ heval
    rw [eval_bind_ok (Run.eval_hand change host world)] at heval
    refine hnext.value ?_ heval
    exact ⟨hlog, hstands, hleads, hhere, rfl⟩

theorem thenHanded {next : RunState → Action β}
    (hnext : Adds host here run led before (next before) post) :
    Adds host here run led before (Run.handed >>= next) post where
  value := by
    intro base told world after value hgrown heval
    rw [eval_bind_ok (Run.eval_handed host world), hgrown.state] at heval
    exact hnext.value hgrown heval

/-- Items each of which is told of. -/
theorem forM {items : List α} {action : α → Action PUnit} {tells : α → List Event}
    (haction : ∀ item, Adds host here run led before (action item)
      fun _ events after => events = tells item ∧ after = before) :
    Adds host here run led before (items.forM action)
      fun _ events after => events = items.flatMap tells ∧ after = before := by
  induction items with
  | nil => exact Adds.pure ⟨rfl, rfl⟩
  | cons item rest ih =>
    change Adds host here run led before (action item >>= fun _ => rest.forM action) _
    refine (haction item).bind fun _ events middle hitem => ?_
    obtain ⟨rfl, rfl⟩ := hitem
    refine ih.weaken fun _ more after hrest => ?_
    obtain ⟨rfl, rfl⟩ := hrest
    exact ⟨rfl, rfl⟩

theorem mapM {items : List α} {action : α → Action β} {tells : β → Event}
    (haction : ∀ item, Adds host here run led before (action item)
      fun value events after => events = [tells value] ∧ after = before) :
    Adds host here run led before (items.mapM action)
      fun values events after => events = values.map tells ∧ after = before := by
  induction items with
  | nil => exact Adds.pure ⟨rfl, rfl⟩
  | cons item rest ih =>
    rw [List.mapM_cons]
    refine (haction item).bind fun value _ _ hitem => ?_
    obtain ⟨rfl, rfl⟩ := hitem
    refine ih.bind fun values _ _ hrest => ?_
    obtain ⟨rfl, rfl⟩ := hrest
    exact .pure ⟨by simp, rfl⟩

end Adds

end Action

/-! ### Fetching -/

namespace Stage

open Action (Adds)
open Pipeline (hushed NamesLog Grown)
open Release (Reports)

variable {run : Run} {host : Host} {here : Location} {led : Prop} {before : RunState}

section Events

variable (run : Run) (library : LibraryFetch)

def skipEvent : Event :=
  ⟨"fetch.library.skip", run.id, .text "fetch", [("library", .text library.dependency.name)]⟩

def missedEvent (warning : String) : Event :=
  ⟨"fetch.library.failed", run.id, .text "fetch",
    [("library", .text library.dependency.name), ("message", .text warning)]⟩

/-- What is told of a library. -/
def libraryEvents : List Event :=
  (if library.status = .present then [skipEvent run library] else []) ++
    library.warning.toList.map (missedEvent run library)

end Events

theorem announceLibrary_adds (library : LibraryFetch) :
    Adds host here run led before (announceLibrary run library)
      fun _ events after => events = libraryEvents run library ∧ after = before := by
  have hmissing : Adds host here run led before (announceMissing run library) fun _ events after =>
      events = library.warning.toList.map (missedEvent run library) ∧ after = before := by
    unfold announceMissing
    cases library.warning with
    | none => exact .pure ⟨rfl, rfl⟩
    | some warning =>
      exact .tell _
  rw [announceLibrary_eq]
  unfold libraryEvents
  split
  · refine .thenTell (hmissing.weaken fun _ events after htold => ?_)
    obtain ⟨rfl, rfl⟩ := htold
    exact ⟨rfl, rfl⟩
  · exact hmissing

theorem record_adds (stage : String) (contentType : Option String) (path : Path) :
    Adds host here run led before (run.recordArtifact stage contentType path)
      fun ref events after => events = [artifactEvent run stage ref] ∧ after = before := by
  unfold Run.recordArtifact
  exact .thenQuiet (FileDigest.ofFile_keeps path) fun digest _ => .thenTell (.pure ⟨rfl, rfl⟩)

/-- Fetching libraries tells of nothing, and no library is put at the place of the event log. -/
theorem fetchLibraries_adds (hrooted : ".." ∉ here) (maxAttempts : Int)
    (dependencies : List Dependency) :
    Adds host here run True before (Release.fetchLibraries maxAttempts run.workspace dependencies)
      fun libraries events after =>
        List.Forall₂ Reports dependencies libraries ∧ events = [] ∧ after = before where
  value := by
    intro base told world after libraries hgrown heval
    obtain ⟨⟨mode, hlog⟩, hstands, hleads, hhere, hstate⟩ := hgrown
    have hrooted' : ".." ∉ world.files.here := hhere ▸ hrooted
    obtain ⟨-, hrow⟩ := Release.row_of_eval_fetchLibraries_ok hrooted' heval
    have hfile := hrow.hasFile hrooted' ⟨hlog, hleads trivial⟩
    have hyields : (Release.fetchLibraries maxAttempts run.workspace dependencies).Yields host _ _ :=
      Release.fetchLibraries_yields maxAttempts run.workspace dependencies
    have hreports := hyields world
    rw [heval] at hreports
    have hquiet : (Release.fetchLibraries maxAttempts run.workspace dependencies).Keeps
        (Discipline.tacit host here before) any :=
      Release.fetchLibraries_keeps _ _ (fun _ _ dependency =>
        Release.fetchLibraryTo_keeps _ dependency (Discipline.tacit.produces _)) _
    have hready : (Discipline.tacit host here before).Ready world := ⟨hhere, hstate⟩
    have hafter := (hready.evaluated hquiet heval).1
    refine ⟨[], before, ⟨hreports, rfl, rfl⟩, ⟨mode, ?_⟩, hrow.stands hrooted' hstands,
      fun _ => hfile.leads, hafter.here, hafter.inv⟩
    rw [List.append_nil]
    exact hfile.node

/-- What fetching tells of and gives. -/
structure Fetches (run : Run) (dependencies : List Dependency) (libraries : List LibraryFetch)
    (output : StageOutput) (events : List Event) : Prop where
  reports : List.Forall₂ Reports dependencies libraries
  metrics : output.metrics = libraryCounts libraries
  warnings : output.warnings = libraries.filterMap (·.warning)
  events : ∃ ref, events = artifactEvent run "fetch" ref :: libraries.flatMap (libraryEvents run)

theorem fetch_adds (hrooted : ".." ∉ here) (hnames : NamesLog run) :
    Adds host here run True before (fetch run) fun output events _ => ∃ metadata libraries,
      before.metadata = some metadata ∧
        Fetches run metadata.dependencies libraries output events := by
  unfold fetch
  refine .thenHanded ?_
  split
  · exact .throw
  rename_i metadata hmetadata
  refine .thenQuiet (Release.fetchPrimary_keeps _ _ _ _ (hushed.produces hnames hrooted
    (hnames.ne_primary here))) fun fetched hfetched => ?_
  refine .thenQuiet (.ofResult (fun _ _ => trivial) fun _ _ => trivial) fun primary _ => ?_
  refine .thenHand ((record_adds _ _ _).bind fun ref _ _ hrecorded => ?_)
  obtain ⟨rfl, rfl⟩ := hrecorded
  refine (fetchLibraries_adds hrooted _ _).bind fun libraries _ _ hlibraries => ?_
  obtain ⟨hreports, rfl, rfl⟩ := hlibraries
  refine (Adds.forM announceLibrary_adds).bind fun _ _ _ htold => ?_
  obtain ⟨rfl, rfl⟩ := htold
  refine .pure ⟨metadata, libraries, hmetadata, hreports, rfl, rfl, ref, ?_⟩
  simp

/-! ### Mapping -/

/-- That there is no layer of readable names. -/
def missingEvent (run : Run) (message : String) : Event :=
  ⟨"mappings.layer.missing", run.id, .text "mappings",
    [("layer", .text namedNamespace), ("message", .text message)]⟩

/-- The chain ends in readable names and nothing is told of it, or it does not and this is told of. -/
def Layered (run : Run) (sets : List MappingSet) (events : List Event) : Prop :=
  ∃ space, sets.getLast?.map (·.target) = some space ∧
    (space = namedNamespace ∧ events = [] ∨
      space ≠ namedNamespace ∧ run.provider ≠ .direct ∧
        ∃ message, events = [missingEvent run message])

theorem target_eq_of_headed {sets others : List MappingSet}
    (hheaded : List.Forall₂ Headed sets others) :
    others.map (·.target) = sets.map (·.target) := by
  induction hheaded with
  | nil => rfl
  | cons hset _ ih => rw [List.map_cons, List.map_cons, ih, hset.target]

theorem Layered.headed {sets others : List MappingSet} {events : List Event}
    (hlayered : Layered run sets events) (hheaded : List.Forall₂ Headed sets others) :
    Layered run others events := by
  unfold Layered at *
  rwa [← List.getLast?_map, target_eq_of_headed hheaded, List.getLast?_map]

variable (hrooted : ".." ∉ here) (hnames : NamesLog run)
  (hfixed : ∀ word sets, run.provider ≠ .fixed word sets)

include hrooted hnames hfixed

theorem provide_adds
    (hstripped : ∀ artifact, before.stripped = some artifact → artifact.space = officialNamespace) :
    Adds host here run led before (MappingProvider.provide run) fun sets events after =>
      run.provider.Provides run.workspace run.side any sets ∧ Layered run sets events ∧
        after = before := by
  have hdocuments : ∀ path, run.provider.Documents run.workspace run.side any path →
      (hushed host here run before).Produces path :=
    fun path hpath => hushed.producesDocument hnames hrooted hfixed hpath
  have hgives : ∀ chained : MappingProvider.Chained,
      chained.Gives (hushed host here run before) any :=
    MappingProvider.Chained.gives_any hushed.allowsNetwork
  unfold MappingProvider.provide
  refine .thenHanded ?_
  split
  · rename_i metadata stripped hprovider _ hfound
    rw [← bind_pure (MappingProvider.provideDirect run metadata stripped)]
    refine .thenQuiet (MappingProvider.provideDirect_keeps hdocuments hprovider metadata
      (hstripped stripped hfound)) fun sets hprovides => .pure ⟨hprovides, ?_, rfl⟩
    rw [hprovider] at hprovides
    obtain ⟨set, rfl, hplain⟩ := hprovides
    exact ⟨set.target, rfl, .inl ⟨hplain.target, rfl⟩⟩
  · exact .throw
  · rename_i metaUrl mavenUrl stripped hprovider _
    unfold MappingProvider.provideChained
    refine .thenQuiet (MappingProvider.Chained.intermediaryRelease_keeps (hgives _) _)
      fun release hversion => ?_
    refine .thenQuiet (MappingProvider.Chained.fetchIntermediary_keeps _
      (MappingProvider.Chained.produces_document hdocuments hprovider hversion .intermediary)
      (MappingProvider.Chained.produces_document hdocuments hprovider hversion .archive) _)
      fun first hfirst => ?_
    refine .thenQuiet (MappingProvider.Chained.fetchNamed_keeps hdocuments hprovider (hgives _) _)
      fun result hresult => ?_
    cases result with
    | error fault =>
      refine .thenTell (.pure ⟨?_, ⟨first.target, rfl, .inr ⟨?_, ?_, fault.message, rfl⟩⟩, rfl⟩)
      · rw [hprovider]
        exact ⟨first, release.version, hversion, hfirst, .inl rfl⟩
      · rw [hfirst.target]
        decide
      · simp [hprovider]
    | ok second =>
      obtain ⟨version, hnamed, hsecond⟩ := hresult second rfl
      have htarget :=
        MappingProvider.Chained.produces_document hdocuments hprovider hnamed .decompressed
      refine .thenQuiet (MappingProvider.Chained.decompressed_keeps htarget hsecond)
        fun plain hplain => .pure ⟨?_, ⟨plain.target, rfl, .inl ⟨hplain.target, rfl⟩⟩, rfl⟩
      rw [hprovider]
      exact ⟨first, release.version, hversion, hfirst, .inr ⟨plain, version, rfl, hnamed, hplain⟩⟩
  · exact .throw
  · rename_i word sets hprovider
    exact absurd hprovider (hfixed word sets)

/-- What mapping tells of and gives. -/
structure Maps (run : Run) (sets : List MappingSet) (output : StageOutput) (events : List Event) :
    Prop where
  layered : Layered run sets (events.filter (·.kind = "mappings.layer.missing"))
  warnings : output.warnings = layerWarnings sets

theorem mappings_adds
    (hstripped : ∀ artifact, before.stripped = some artifact → artifact.space = officialNamespace) :
    Adds host here run led before (mappings run) fun output events after =>
      Maps run after.mappingSets output events := by
  unfold mappings
  refine .thenHanded ?_
  split
  · exact .throw
  rename_i stripped hfound
  unfold providedChain
  simp only [bind_assoc, pure_bind]
  refine (provide_adds hrooted hnames hfixed hstripped).bind fun sets missing _ hprovided => ?_
  obtain ⟨hprovides, hlayered, rfl⟩ := hprovided
  refine .thenQuiet (.explain (.ofOrdinary (MappingSet.checkChain_ordinary sets _)) fun _ => rfl)
    fun _ _ => ?_
  refine .thenQuiet (normalizedSets_headed (fun path hpath =>
    hushed.producesDocument hnames hrooted hfixed hpath) hfixed hprovides) fun others hheaded => ?_
  refine .thenHand (.thenTell ?_)
  refine (Adds.mapM fun set => record_adds _ _ _).bind fun refs _ _ hrecorded => ?_
  obtain ⟨rfl, rfl⟩ := hrecorded
  refine .pure ⟨?_, rfl⟩
  have hmissing : missing.filter (·.kind = "mappings.layer.missing") = missing := by
    obtain ⟨_, -, ⟨-, rfl⟩ | ⟨-, -, message, rfl⟩⟩ := hlayered
    · rfl
    · rfl
  have hartifacts : (refs.map (artifactEvent run "mappings")).filter
      (·.kind = "mappings.layer.missing") = [] := by
    simp [List.filter_eq_nil_iff, artifactEvent]
  rw [List.append_nil, List.filter_append, hmissing, List.filter_cons_of_neg (by simp), hartifacts,
    List.append_nil]
  exact hlayered.headed hheaded

/-! ### The end of a stage -/

omit hrooted hnames hfixed

theorem log_hushed (stage : Stage) (level : LogLevel) (event : String) (fields : Json.Fields) :
    (stage.log level event fields).Keeps (hushed host here run before) any :=
  Run.log_keeps hushed.allowsLog level event _

theorem announce_adds (stage : Stage) (output : StageOutput) :
    Adds host here run led before (announce run stage output)
      fun _ events after => events = closing run stage.name output ∧ after = before := by
  have hwarnings : Adds host here run led before (output.warnings.forM fun warning => do
      run.emit stage.name "stage.warn" [("message", .text warning)]
      stage.log .warning warning [])
      fun _ events after =>
        events = output.warnings.map (warnEvent run stage.name) ∧ after = before := by
    rw [List.map_eq_flatMap]
    refine .forM fun warning => .thenTell ?_
    rw [← bind_pure (stage.log _ _ _)]
    exact .thenQuiet (log_hushed stage _ _ _) fun _ _ => .pure ⟨rfl, rfl⟩
  unfold announce closing metricsEvents
  refine hwarnings.bind fun _ _ _ htold => ?_
  obtain ⟨rfl, rfl⟩ := htold
  cases output.metrics.isEmpty with
  | true =>
    refine (Adds.tell _).weaken fun _ _ _ htold => ?_
    obtain ⟨rfl, rfl⟩ := htold
    exact ⟨rfl, rfl⟩
  | false =>
    refine .thenTell ((Adds.tell _).weaken fun _ _ _ htold => ?_)
    obtain ⟨rfl, rfl⟩ := htold
    exact ⟨rfl, rfl⟩

/-- A stage that succeeds adds the events of its own work and then those of its end. -/
theorem execute_adds {stage : Stage} {post : StageOutput → List Event → RunState → Prop}
    (hperform : Adds host here run led before (stage.perform run) post) {position : Option String}
    {started performed after : World} {base : Bytes} {told : List Event} {output : StageOutput}
    {result : StageResult} (hstarted : Grown host here run led base told before started)
    (heval : (stage.perform run).eval host started = (.ok output, performed))
    (hfinish : (stage.finish run (.ofOption position) output).eval host performed = (.ok result, after))
    (hsuccess : result.status = .success) :
    ∃ events state, result.output = output ∧ post output events state ∧
      Grown host here run led base (told ++ (events ++ closing run stage.name output)) state after := by
  obtain ⟨events, state, hpost, hperformed⟩ := hperform.value hstarted heval
  obtain ⟨-, -, ⟨hfailed, -⟩ | ⟨-, houtput, -, announced, hannounce, hlog⟩⟩ :=
    of_eval_finish_ok hfinish
  · simp [hsuccess] at hfailed
  obtain ⟨_, _, ⟨rfl, rfl⟩, hannounced⟩ := (announce_adds stage output).value hperformed hannounce
  have hstep := (hannounced.ready.evaluated (log_hushed stage _ _ _) hlog).2
  exact ⟨events, _, houtput, hpost, by simpa using Grown.stable hstep hannounced⟩

end Stage

end JarRefinery
