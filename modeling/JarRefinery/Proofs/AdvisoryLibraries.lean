import JarRefinery.Proofs.FailFast
import JarRefinery.Proofs.LibraryFetching
import JarRefinery.Proofs.LikeRuns

/-!
# Libraries are advisory

Two runs that ask the same of networks which answer the same, but for the addresses of libraries, end
alike: what becomes of libraries is seen below their directory and in the records of the run alone.
-/

namespace JarRefinery

open Action (any)

variable {l : Likeness} {run : Run} {host : Host} {world : World}

/-- The host on a network whose answers depend on the address alone. -/
def Host.answering (host : Host) (answers : String → Reply) : Host :=
  { host with network := fun _ => answers }

/-! ### Likenesses one after the other -/

/-- Between these worlds these addresses were asked for. -/
def Asks (before after : World) (addresses : List String) : Prop :=
  after.requests = before.requests ++ addresses

/-- Operations that ask for nothing but what is shared end in the same way. -/
theorem Action.Matches.agrees_of_shared {α : Type} {first second : Action α} {post : α → Prop}
    (hmatches : first.Matches l second post) {world other after after' : World}
    (halike : l.Alike world other) (hasked : world.requests = l.asked) {result result' : Except Fault α}
    (heval : first.eval l.host world = (result, after))
    (heval' : second.eval l.other other = (result', after'))
    (hshared : ∀ addresses, Asks world after addresses → ∀ address ∈ addresses, address ∈ l.shared) :
    result = result' ∧ l.Alike after after' := by
  obtain ⟨addresses, hmore⟩ := (hmatches.keeps.step halike.ready.here halike.ready.inv).1
  have hagrees := hmatches.agrees world other halike
  rw [heval, heval'] at hagrees
  rw [show l.growing.host = l.host from rfl, heval] at hmore
  refine hagrees.resolve_left ?_
  rintro ⟨past, hpast, address, hmem, hother⟩
  rw [← hmore, hasked] at hpast
  obtain rfl := List.append_cancel_left hpast
  exact hother (hshared addresses hmore.symm address hmem)

/-- Worlds stay alike where nothing changes that is seen, whatever has been asked for. -/
theorem Likeness.Alike.unseen {first second first' second' : World} (halike : l.Alike first second)
    (m : Likeness) (hview : m.toView = l.toView)
    (hunseen : FileTree.Unseen l.toView first.files first'.files)
    (hunseen' : FileTree.Unseen l.toView second.files second'.files)
    (hasked : first'.requests = m.asked ∧ second'.requests = m.askedOther)
    (hcalls : first'.calls = first.calls ∧ second'.calls = second.calls)
    (hstate : first'.state = first.state ∧ second'.state = second.state) : m.Alike first' second' := by
  have hshows : ∀ {artifact}, l.Shows artifact → m.Shows artifact := fun hshows =>
    ⟨by unfold Sees; rw [hview]; exact hshows.sees, by rw [hview]; exact hshows.clear, hshows.space⟩
  have hlegible := halike.legible
  refine
    { files := by
        rw [hview]
        exact ⟨hunseen.shown.trans (halike.files.shown.trans hunseen'.shown.symm),
          hunseen.here.trans halike.files.here,
          fun hgone => hunseen.dotless (halike.files.dotless hgone)⟩
      requests := ⟨[], by simp [hasked]⟩
      calls := hcalls.1.trans (halike.calls.trans hcalls.2.symm)
      state := hstate.1.trans (halike.state.trans hstate.2.symm)
      legible := ?_ }
  rw [hstate.1]
  exact ⟨fun artifact hartifact => hshows (hlegible.primary artifact hartifact),
    fun artifact hartifact => hshows (hlegible.payload artifact hartifact), hlegible.stripped,
    hlegible.sets⟩

/-! ### Up to the libraries -/

theorem Workspace.prepare_blind {workspace : Workspace}
    (hgone : l.gone ⊆ workspace.libraryPlaces l.here) : workspace.prepare.Blind l any := by
  have hroot : l.Clear workspace.root := fun location hlocation hmem =>
    notMem_libraryPlaces_of_trail hlocation (hgone hmem)
  have hlibraries : l.Clear workspace.librariesDirectory := by
    intro location hlocation hmem
    rcases Path.mem_trail_div isName_libraries hlocation with htrail | rfl
    · exact hroot location htrail hmem
    · exact notMem_libraryPlaces (fun hnil => absurd rfl hnil) (hgone hmem)
  have hclear : ∀ directory ∈ workspace.startDirectories, l.Clear directory := by
    intro directory hmem
    simp only [startDirectories, List.mem_cons, List.not_mem_nil, or_false] at hmem
    rcases hmem with rfl | rfl | rfl | rfl
    · exact hroot
    · exact hlibraries
    · exact (Likeness.exposes_div hgone isName_mappings (by decide)).clear
    · exact (Likeness.exposes_div hgone ⟨by decide, by decide, by decide, by decide⟩ (by decide)).clear
  unfold prepare
  refine .andThen (.explain (.forM fun directory hmem =>
    .files (FileTree.ensureDirectories_blind (hclear directory hmem)))) fun _ => ?_
  exact .andThen (.files (FileTree.isDirectory_blind hroot)) fun made =>
    Action.Matches.anyway .refuse

namespace Pipeline

/-- What a run does before it turns to its libraries. -/
def leading (run : Run) (notes : Json.Fields) :
    Action (StageResult × VersionMetadata × ArtifactRef) := do
  run.workspace.prepare
  starting run notes
  let resolved ← Stage.execute run (some (position 0 Stage.all.length)) ⟨"resolve", Stage.resolve⟩
  Stage.begin run ⟨"fetch", Stage.fetch⟩ (.ofOption (some (position 1 Stage.all.length)))
  match (← Run.handed).metadata with
  | none => throw (.value "stage_fetch requires resolved version metadata")
  | some metadata =>
    let ref ← Stage.fetchJar run metadata
    pure (resolved, metadata, ref)

section

variable (hcovers : l.Covers run)

include hcovers

theorem execute_blind {stage : Stage} (position : Option String)
    (hperform : (stage.perform run).Blind l any) : (stage.execute run position).Blind l any :=
  Stage.execute_matches hcovers.events position hperform

theorem leading_blind (hhidden : run.events.path.normal l.here ∈ l.hidden) (request : Request) :
    (leading run request.notes).Blind l any := by
  unfold leading
  refine (Workspace.prepare_blind hcovers.gone).andThen fun _ => ?_
  refine (starting_matches hcovers hhidden run.version request).andThen fun _ => ?_
  refine (execute_blind hcovers _ (Stage.resolve_blind hcovers)).andThen fun resolved => ?_
  refine (Stage.begin_blind hcovers.events _ _).andThen fun _ => ?_
  refine Run.handed_blind.bind fun state _ => ?_
  split
  · exact .throw
  · exact (Stage.fetchJar_blind hcovers _).andThen fun ref => .pure trivial

end

/-! ### From the libraries on -/

/-- What a run does after the stage that fetches, if the stages up to it gave these results. -/
def following (run : Run) (notes : Json.Fields) (startedAt : String) (results : List StageResult) :
    Action RunOutcome := do
  let others ← executeFrom run Stage.all.length 2 (Stage.all.drop 2)
  finishRun run notes startedAt (results ++ others)

theorem eval_staging_following {notes : Json.Fields} {startedAt : String}
    {begun reached ended : World} {resolved fetched : StageResult}
    (hstarting : (starting run notes).eval host world = (.ok (), begun))
    (hresolve : (Stage.execute run (some (position 0 Stage.all.length))
      ⟨"resolve", Stage.resolve⟩).eval host begun = (.ok resolved, reached))
    (hresolved : resolved.status = .success)
    (hfetch : (Stage.execute run (some (position 1 Stage.all.length))
      ⟨"fetch", Stage.fetch⟩).eval host reached = (.ok fetched, ended))
    (hfetched : fetched.status = .success) :
    (staging run notes startedAt).eval host world =
      (following run notes startedAt [resolved, fetched]).eval host ended := by
  have hstages : (executeFrom run Stage.all.length 0 Stage.all).eval host begun =
      (([resolved, fetched] ++ ·) <$> executeFrom run Stage.all.length 2 (Stage.all.drop 2)).eval host
        ended := by
    change (executeFrom run Stage.all.length 0 (⟨"resolve", Stage.resolve⟩ ::
      ⟨"fetch", Stage.fetch⟩ :: Stage.all.drop 2)).eval host begun = _
    rw [eval_executeFrom_success hresolve hresolved, Action.eval_map,
      eval_executeFrom_success hfetch hfetched, Action.eval_map, Action.eval_map]
    rcases (executeFrom run Stage.all.length 2 (Stage.all.drop 2)).eval host ended with
      ⟨fault | others, last⟩ <;> rfl
  unfold staging following
  rw [Action.eval_bind_ok hstarting, Action.eval_bind, hstages, Action.eval_map, Action.eval_bind]
  rcases (executeFrom run Stage.all.length 2 (Stage.all.drop 2)).eval host ended with
    ⟨fault | others, last⟩ <;> rfl

/-- The run comes to fetch its libraries in the world `before`, and has fetched them in the world
`after`, whatever has become of each. -/
def Request.Fetches (request : Request) (preflight : Preflight) (host : Host)
    (world before after : World) : Prop :=
  ∃ provider ready run begun started metadata ref libraries,
    (enter preflight.check request).eval host world = (.ok provider, ready) ∧
    (beginRun Stage.all request.workspaceOf request.runId request.version request.settings provider
      request.notes).eval host ready = (.ok run, begun) ∧
    Pipeline.Performing host run Stage.all begun 1 started ∧
    started.state.metadata = some metadata ∧
    (Stage.fetchJar run metadata).eval host started = (.ok ref, before) ∧
    (Release.fetchLibraries run.maxAttempts run.workspace metadata.dependencies).eval host before =
      (.ok libraries, after)

/-- A run comes to its libraries with the directory for them in its place. -/
theorem founded_of_fetchJar {request : Request} {preflight : Preflight} {provider : MappingProvider}
    {metadata : VersionMetadata} {ref : ArtifactRef} {ready begun started before : World}
    (hrooted : ".." ∉ world.files.here)
    (hplaced : ∀ location, location <+: world.files.here →
      world.files.node? location = some .directory)
    (henter : (enter preflight.check request).eval host world = (.ok provider, ready))
    (hbegun : (beginRun Stage.all request.workspaceOf request.runId request.version request.settings
      provider request.notes).eval host ready = (.ok run, begun))
    (hperforming : Performing host run Stage.all begun 1 started)
    (hjar : (Stage.fetchJar run metadata).eval host started = (.ok ref, before)) :
    before.files.here = world.files.here ∧ request.workspaceOf.Founded before.files := by
  obtain ⟨reached, stage, hreaches, -, hbegin⟩ := hperforming
  obtain ⟨hhere, -, -⟩ := enter_quiet preflight request host world
  rw [henter] at hhere
  have hready : (rising host world.files.here).Ready world := ⟨rfl, trivial⟩
  obtain ⟨-, hentered⟩ := hready.evaluated
    (enter_keeps preflight request (fun _ _ => rising.allowsFiles hrooted _) fun _ => trivial) henter
  obtain ⟨hstarted, hkept⟩ := directory_of_ready (hhere ▸ hrooted) hbegun hreaches hbegin
  obtain ⟨hbefore, hkept'⟩ :=
    hstarted.evaluated (rising.fetchJar_keeps (hhere ▸ hrooted) run metadata) hjar
  have hfounded : request.workspaceOf.Founded ready.files :=
    .of_directories (Workspace.hasDirectory_of_prepare (of_eval_enter_ok henter) _
      (List.mem_cons_of_mem _ List.mem_cons_self))
      fun location hlocation => hentered location (hplaced location (hhere ▸ hlocation))
  exact ⟨hbefore.here.trans hhere,
    hfounded.kept hbefore.here fun location hnode => hkept' location (hkept location hnode)⟩

/-- A run that fetches its libraries comes to them with the directory for them in its place, and goes
on from there with nothing changed that is seen. -/
theorem Request.Fetches.course {request : Request} {preflight : Preflight} {before after : World}
    (hfetches : request.Fetches preflight host world before after) (hrooted : ".." ∉ world.files.here)
    (hplaced : ∀ location, location <+: world.files.here →
      world.files.node? location = some .directory) :
    ∃ provider resolved metadata ref, request.provider = .ok provider ∧
      (leading (request.runWith provider) request.notes).eval host { world with state := {} } =
        (.ok (resolved, metadata, ref), before) ∧
      ∀ view : FileTree.View, view.here = world.files.here →
        view.gone = request.workspaceOf.libraryPlaces view.here →
        view.Clear (request.runWith provider).events.path →
        (request.runWith provider).events.path.normal view.here ∈ view.hidden →
        ∃ fetched ended, fetched.stage = "fetch" ∧ fetched.status = .success ∧
          FileTree.Unseen view before.files ended.files ∧ ended.requests = after.requests ∧
          ended.calls = before.calls ∧ ended.state = before.state ∧
          request.ending preflight host world =
            (following (request.runWith provider) request.notes host.clock [resolved, fetched]).eval
              host ended := by
  obtain ⟨provider, ready, run, begun, started, metadata, ref, libraries, henter, hbegun, hperforming,
    hmetadata, hjar, hlibraries⟩ := hfetches
  obtain ⟨hhere, hfounded⟩ := founded_of_fetchJar hrooted hplaced henter hbegun hperforming hjar
  obtain ⟨reached, stage, hreaches, hstage, hbegin⟩ := hperforming
  have hprepare : (request.runWith provider).workspace.prepare.eval host world = (.ok (), ready) :=
    of_eval_enter_ok henter
  rw [eval_beginRun_starting] at hbegun
  obtain ⟨_, opened, hstarting, hpure⟩ := Action.of_eval_bind_ok hbegun
  obtain ⟨hrun, rfl⟩ := Prod.mk.inj hpure
  obtain rfl := Except.ok.inj hrun
  obtain rfl := Option.some.inj hstage
  cases hreaches with | @next _ _ _ _ resolved hstart hstage hresolve hresolved =>
  cases hstart with | start =>
  obtain rfl := Option.some.inj hstage
  refine ⟨provider, resolved, metadata, ref, enter_provider henter, ?_,
    fun view hview hgone hclear hhidden => ?_⟩
  · unfold leading
    rw [Action.eval_bind_ok (Workspace.eval_prepare_state {} hprepare), Action.eval_bind_ok hstarting,
      Action.eval_bind_ok hresolve, Action.eval_bind_ok hbegin,
      Action.eval_bind_ok (Run.eval_handed host started)]
    simp only [hmetadata]
    rw [Action.eval_bind_ok hjar]
    rfl
  · have hgone : view.gone = (request.runWith provider).workspace.libraryPlaces view.here := hgone
    obtain ⟨fetched, ended, hfetch, hname, hfetched, hunseen, hrequests, hcalls, hstate⟩ :=
      Stage.execute_fetch_of_libraries hgone (hview ▸ hrooted) hclear hhidden hbegin hmetadata hjar
        hlibraries (hhere.trans hview.symm) hfounded
    refine ⟨fetched, ended, hname, hfetched, hunseen, hrequests, hcalls, hstate, ?_⟩
    rw [← eval_staging_following hstarting hresolve hresolved hfetch hfetched]
    exact Request.ending_of_entered henter

/-! ### The stages after the libraries -/

section

variable (hcovers : l.Covers run) (hfixed : ∀ word sets, run.provider ≠ .fixed word sets)
  (hlists : ∀ metaUrl mavenUrl, run.provider = .chained metaUrl mavenUrl →
    ∀ release, l.host.Lists release → MappingRelease.Steady release.version)

include hcovers hfixed hlists

theorem executeFrom_blind {n : Nat} (hn : 2 ≤ n) {rest : List Stage}
    (hrest : Stage.all.drop n = rest) :
    (executeFrom run Stage.all.length n rest).Blind l any := by
  induction rest generalizing n with
  | nil => exact .pure trivial
  | cons stage rest ih =>
    obtain ⟨hstage, hdrop⟩ := drop_eq_cons_iff.mp hrest
    unfold executeFrom
    refine (execute_blind hcovers _ (Stage.perform_blind hcovers hfixed hlists hstage
      (by omega))).andThen fun result => ?_
    split
    · exact (Run.log_blind _ _ _).andThen fun _ => .pure trivial
    · exact (ih (by omega) hdrop).andThen fun results => .pure trivial

/-- How the stages ended, and all that is told of them but for the stage that fetches. -/
def apart (results : List StageResult) : List StageStatus × List StageResult :=
  (results.map (·.status), results.filter (·.stage ≠ "fetch"))

theorem following_matches (hhidden : (reportPath run.workspace run.id).normal l.here ∈ l.hidden)
    (notes : Json.Fields) (startedAt : String) {resolved fetched other : StageResult}
    (hfetched : fetched.stage = "fetch" ∧ fetched.status = .success)
    (hother : other.stage = "fetch" ∧ other.status = .success) :
    Action.Matches l
      (RunOutcome.seenAs apart <$> following run notes startedAt [resolved, fetched])
      (RunOutcome.seenAs apart <$> following run notes startedAt [resolved, other]) any := by
  unfold following
  simp only [map_bind]
  refine (executeFrom_blind hcovers hfixed hlists le_rfl rfl).andThen fun results => ?_
  refine finishRun_matches hcovers hhidden run.version notes startedAt apart ?_ ?_
  · simp [apart, List.filter_cons, hfetched, hother]
  · simp [RunReport.statusOf, RunReport.hasFailed, hfetched, hother]

end

/-! ### Whole runs -/

theorem Request.covers (request : Request) (provider : MappingProvider)
    (hgone : l.gone ⊆ request.workspaceOf.libraryPlaces l.here)
    (hside : request.settings.side ∈ Settings.sides) (hid : Path.IsPlain request.runId) :
    l.Covers (request.runWith provider) := by
  have hruns : l.Exposes request.workspaceOf.runsDirectory :=
    Likeness.exposes_div hgone Workspace.isName_runs (by decide)
  have hdirectory : request.workspaceOf.runsDirectory.Within
      (runDirectory request.workspaceOf request.runId) :=
    ⟨_, hid.noDots, hid.div_eq _⟩
  exact ⟨hside, hgone, hruns.within (hdirectory.below_div isName_events).within,
    hruns.within (hdirectory.below_div isName_report).within⟩

/-- Runs are compared but for libraries and for what their records hold, under networks that have been
asked for these addresses. -/
def Request.besideLibraries (request : Request) (host : Host) (answers others : String → Reply)
    {here : Location} (hrooted : ".." ∉ here)
    (htools : host.Overlooks (request.workspaceOf.libraryPlaces here) (request.records here))
    (hdotless : ∀ calls call (files : FileTree), files.Dotless →
      (host.tools calls call files).2.Dotless)
    (asked askedOther : List String) : Likeness where
  here := here
  hidden := request.records here
  gone := request.workspaceOf.libraryPlaces here
  closed := Workspace.libraryPlaces_closed
  rooted := fun _ => hrooted
  host := host.answering answers
  network := fun _ => others
  asked := asked
  askedOther := askedOther
  shared := { address | answers address = others address }
  agree := fun _ _ hshared => hshared
  named := request.records_named here
  tools := htools
  dotless := fun _ => hdotless

/-- Runs end with the same exit status, state and statuses of the stages, or with the same fault, and
what is told of all stages but the one that fetches is the same. They have called the same tools, and
left the same files, apart from libraries and what the hidden files hold. -/
structure EndsAlikeApart (gone : Set Location) (hidden : List Location)
    (first second : Except Fault RunOutcome × World) : Prop where
  result : first.1.map (RunOutcome.seenAs apart) = second.1.map (RunOutcome.seenAs apart)
  calls : first.2.calls = second.2.calls
  files : ∀ location ∉ gone,
    (first.2.files.veiled hidden).node? location = (second.2.files.veiled hidden).node? location

/-- **Libraries are advisory.** If the versions of all releases of mappings that are listed are single
names, then two runs that both come to fetch their libraries and have fetched them, whatever has become
of each, ask for the same besides and end alike, as long as both networks give the same answers to what
the first run asks for besides. -/
theorem run_advisory (request : Request) (preflight : Preflight) (host : Host)
    (answers others : String → Reply) (world : World) {before after before' after' : World}
    (hrooted : ".." ∉ world.files.here)
    (hplaced : ∀ location, location <+: world.files.here →
      world.files.node? location = some .directory)
    (hfiles : world.files.Dotless)
    (hside : request.settings.side ∈ Settings.sides) (hid : Path.IsPlain request.runId)
    (htools : host.Overlooks (request.workspaceOf.libraryPlaces world.files.here)
      (request.records world.files.here))
    (hdotless : ∀ calls call (files : FileTree), files.Dotless →
      (host.tools calls call files).2.Dotless)
    (hversions : request.mappingKind = "chained" →
      ∀ release, (host.answering answers).Lists release → MappingRelease.Steady release.version)
    (hfetches : request.Fetches preflight (host.answering answers) world before after)
    (hfetches' : request.Fetches preflight (host.answering others) world before' after')
    (hagree : ∀ addresses, Asks world before addresses ∨
        Asks after (request.ending preflight (host.answering answers) world).2 addresses →
      ∀ address ∈ addresses, answers address = others address) :
    EndsAlikeApart (request.workspaceOf.libraryPlaces world.files.here)
        (request.records world.files.here)
        (request.ending preflight (host.answering answers) world)
        (request.ending preflight (host.answering others) world) ∧
      (∃ addresses, Asks world before addresses ∧ Asks world before' addresses) ∧
      ∃ addresses, Asks after (request.ending preflight (host.answering answers) world).2 addresses ∧
        Asks after' (request.ending preflight (host.answering others) world).2 addresses := by
  obtain ⟨provider, resolved, metadata, ref, hprovider, hleading, hcourse⟩ :=
    hfetches.course hrooted hplaced
  obtain ⟨provider', resolved', metadata', ref', hprovider', hleading', hcourse'⟩ :=
    hfetches'.course hrooted hplaced
  obtain rfl := Except.ok.inj (hprovider.symm.trans hprovider')
  let likeness := request.besideLibraries host answers others hrooted htools hdotless
  have hcovers : ∀ asked askedOther, (likeness asked askedOther).Covers (request.runWith provider) :=
    fun _ _ => request.covers provider subset_rfl hside hid
  have hfixed : ∀ word sets, (request.runWith provider).provider ≠ .fixed word sets :=
    request.provider_ne_fixed hprovider
  have hchained : ∀ metaUrl mavenUrl, (request.runWith provider).provider = .chained metaUrl mavenUrl →
      ∀ release, (host.answering answers).Lists release → MappingRelease.Steady release.version := by
    rintro metaUrl mavenUrl rfl
    exact hversions (Request.mappingKind_of_chained hprovider)
  have hevents : (request.runWith provider).events.path.normal world.files.here ∈
      request.records world.files.here := List.mem_cons_self
  have hreport : (reportPath request.workspaceOf request.runId).normal world.files.here ∈
      request.records world.files.here := List.mem_cons_of_mem _ List.mem_cons_self
  obtain ⟨fetched, ended, hname, hstatus, hunseen, hrequests, hcalls, hstate, hending⟩ :=
    hcourse (likeness [] []).toView rfl rfl (hcovers [] []).events hevents
  obtain ⟨fetched', ended', hname', hstatus', hunseen', hrequests', hcalls', hstate', hending'⟩ :=
    hcourse' (likeness [] []).toView rfl rfl (hcovers [] []).events hevents
  have halike : (likeness world.requests world.requests).Alike { world with state := {} }
      { world with state := {} } :=
    ⟨⟨rfl, rfl, fun _ => hfiles⟩, ⟨[], by simp [likeness, Request.besideLibraries]⟩, rfl, rfl, .empty⟩
  obtain ⟨hvalues, hbefore⟩ :=
    (leading_blind (hcovers world.requests world.requests) hevents request).agrees_of_shared halike rfl
      hleading hleading' fun addresses hasks => hagree addresses (.inl hasks)
  obtain ⟨rfl, rfl, rfl⟩ : resolved = resolved' ∧ metadata = metadata' ∧ ref = ref' := by
    simpa using hvalues
  -- the comparison starts anew here, as the two have asked for libraries in between
  have hended : (likeness after.requests after'.requests).Alike ended ended' :=
    hbefore.unseen (likeness after.requests after'.requests) rfl hunseen hunseen'
      ⟨hrequests, hrequests'⟩ ⟨hcalls, hcalls'⟩ ⟨hstate, hstate'⟩
  have hseen : ∀ {host : Host} {last : World} {action : Action RunOutcome},
      request.ending preflight host world = action.eval host last →
      (RunOutcome.seenAs apart <$> action).eval host last =
        ((request.ending preflight host world).1.map (RunOutcome.seenAs apart),
          (request.ending preflight host world).2) := fun hsame => by
    rw [Action.eval_map, hsame]
  obtain ⟨hresult, hlast⟩ :=
    (following_matches (hcovers after.requests after'.requests) hfixed hchained hreport request.notes
      host.clock ⟨hname, hstatus⟩ ⟨hname', hstatus'⟩).agrees_of_shared hended hrequests (hseen hending)
        (hseen hending') fun addresses hasks =>
          hagree addresses (.inr (hasks.trans (congrArg (· ++ addresses) hrequests)))
  obtain ⟨asked, hasked, hasked'⟩ := hbefore.requests
  obtain ⟨rest, hrest, hrest'⟩ := hlast.requests
  exact ⟨⟨hresult, hlast.calls, fun _ hlocation => hlast.files.veiled_node? hlocation⟩,
    ⟨asked, hasked, hasked'⟩, rest, hrest, hrest'⟩

/-! ### A small run -/

/-- What comes to the libraries in parts does so as a whole. -/
theorem Request.fetches_of_leading {request : Request} {preflight : Preflight} {before after : World}
    {provider : MappingProvider} {resolved : StageResult} {metadata : VersionMetadata}
    {ref : ArtifactRef} {libraries : List LibraryFetch} (hstate : world.state = {})
    (hcheck : (preflight.check request.settings).eval host world = (.ok (), world))
    (hprovider : request.provider = .ok provider)
    (hleading : (leading (request.runWith provider) request.notes).eval host world =
      (.ok (resolved, metadata, ref), before)) (hresolved : resolved.status = .success)
    (hlibraries : (Release.fetchLibraries (request.runWith provider).maxAttempts
      (request.runWith provider).workspace metadata.dependencies).eval host before =
        (.ok libraries, after)) :
    request.Fetches preflight host world before after := by
  unfold leading at hleading
  obtain ⟨_, ready, hprepare, hleading⟩ := Action.of_eval_bind_ok hleading
  change request.workspaceOf.prepare.eval host world = _ at hprepare
  obtain ⟨_, begun, hstarting, hleading⟩ := Action.of_eval_bind_ok hleading
  obtain ⟨result, reached, hresolve, hleading⟩ := Action.of_eval_bind_ok hleading
  obtain ⟨_, started, hbegin, hleading⟩ := Action.of_eval_bind_ok hleading
  rw [Action.eval_bind_ok (Run.eval_handed host started)] at hleading
  rcases hmetadata : started.state.metadata with _ | found <;> simp only [hmetadata] at hleading
  · cases hleading
  obtain ⟨told, fetched, hjar, hpure⟩ := Action.of_eval_bind_ok hleading
  obtain ⟨hvalues, rfl⟩ := Prod.mk.inj hpure
  obtain ⟨rfl, rfl, rfl⟩ : result = resolved ∧ found = metadata ∧ told = ref := by simpa using hvalues
  have hready : { ready with state := {} } = ready := by
    have hsame := Workspace.eval_prepare_state {} hprepare
    rw [show { world with state := {} } = world by rw [← hstate], hprepare] at hsame
    exact (Prod.mk.inj hsame).2.symm
  refine ⟨provider, ready, request.runWith provider, begun, started, found, told, libraries, ?_, ?_,
    ⟨reached, _, .next .start rfl hresolve hresolved, rfl, hbegin⟩, hmetadata, hjar, hlibraries⟩
  · unfold enter
    rw [Action.eval_bind_ok hcheck, Action.eval_bind_ok hprepare, hprovider]
    rfl
  · rw [eval_beginRun_starting, hready, Action.eval_bind_ok hstarting]
    rfl

/-- One version, with a library that the network may have, and one release of mappings to intermediary
names. -/
def oneLibrary (found : Bool) (address : String) : Reply :=
  if address = "http://l" then .response (if found then 200 else 404) none [7] none
  else if address = "http://v" then .response 200 none (Text.Utf8.encode
    ("\x7b\"id\": \"1.0\", \"downloads\": \x7b\"server\": \x7b\"url\": \"http://s\"\x7d\x7d, " ++
      "\"libraries\": [\x7b\"name\": \"g:a:1\", \"downloads\": " ++
        "\x7b\"artifact\": \x7b\"url\": \"http://l\", \"path\": \"a.jar\"\x7d\x7d\x7d]\x7d")) none
  else (releaseService "1.0").network [] address

theorem steady_of_oneLibrary (found : Bool) (release : MappingRelease)
    (hlists : (Host.idle.answering (oneLibrary found)).Lists release) :
    MappingRelease.Steady release.version := by
  obtain ⟨_, address, _, _, _, _, _, hreply, hreleases, hmem⟩ := of_lists hlists
  rw [version_of_releasesIn ?_ hreleases hmem]
  · exact (by decide : ".." ∉ Text.split '/' "1.0")
  change oneLibrary found address = _ at hreply
  unfold oneLibrary at hreply
  split at hreply
  · obtain ⟨-, -, rfl, -⟩ := Reply.response.inj hreply
    exact .inl (by decide +kernel)
  split at hreply
  · obtain ⟨-, -, rfl, -⟩ := Reply.response.inj hreply
    exact .inl (by decide +kernel)
  · exact releasesIn_releaseService hreply

/-- The library of that version. -/
def onlyLibrary : Dependency :=
  ⟨"g:a:1", "http://l", "a.jar"⟩

/-- What a run with chained mappings comes to the library with. -/
def beforeLibrary (found : Bool) : Except Fault (StageResult × VersionMetadata × ArtifactRef) × World :=
  (leading (Request.chained.runWith (.chained "http://f" "http://f")) Request.chained.notes).eval
    (Host.idle.answering (oneLibrary found)) { files := .bare }

/-- What becomes of the library. -/
def afterLibrary (found : Bool) : Except Fault (List LibraryFetch) × World :=
  (Release.fetchLibraries 1 Request.chained.workspaceOf [onlyLibrary]).eval
    (Host.idle.answering (oneLibrary found)) (beforeLibrary found).2

theorem beforeLibrary_spec (found : Bool) :
    ((beforeLibrary found).1.toOption.map fun values => (values.1.status, values.2.1.dependencies),
      (beforeLibrary found).2.requests) =
        (some (.success, [onlyLibrary]), ["http://m", "http://v", "http://s"]) := by
  revert found
  decide +kernel

theorem afterLibrary_spec (found : Bool) :
    (afterLibrary found).1.toOption.map (·.map (·.status)) =
      some [if found then .downloaded else .failed] := by
  revert found
  decide +kernel

theorem fetches_onlyLibrary (found : Bool) :
    Request.chained.Fetches .lenient (Host.idle.answering (oneLibrary found)) { files := .bare }
      (beforeLibrary found).2 (afterLibrary found).2 := by
  have hleads := (Prod.mk.inj (beforeLibrary_spec found)).1
  have hends := afterLibrary_spec found
  rcases hbefore : beforeLibrary found with ⟨fault | ⟨resolved, metadata, ref⟩, before⟩ <;>
    rw [hbefore] at hleads
  · cases hleads
  obtain ⟨hresolved, hdependencies⟩ : resolved.status = .success ∧
      metadata.dependencies = [onlyLibrary] := by simpa [Except.toOption] using hleads
  rcases hafter : afterLibrary found with ⟨fault | libraries, after⟩ <;> rw [hafter] at hends
  · cases hends
  unfold afterLibrary at hafter
  rw [hbefore, ← hdependencies] at hafter
  exact Request.fetches_of_leading rfl rfl rfl hbefore hresolved hafter

theorem dotless_bare : FileTree.bare.Dotless := by
  intro location hnode hdots
  by_cases hwork : location = ["work"]
  · exact absurd hdots (by rw [hwork]; decide)
  · have hroot : location ≠ [] := List.ne_nil_of_mem hdots
    exact hnode (by simp [FileTree.node?, FileTree.bare, FileTree.lookup_cons, hroot, hwork])

/-- With the library or without it the run ends alike. -/
theorem run_advisory_chained :
    (afterLibrary true).1.toOption.map (·.map (·.status)) = some [.downloaded] ∧
    (afterLibrary false).1.toOption.map (·.map (·.status)) = some [.failed] ∧
    EndsAlikeApart (Request.chained.workspaceOf.libraryPlaces FileTree.bare.here)
      (Request.chained.records FileTree.bare.here)
      (Request.chained.ending .lenient (Host.idle.answering (oneLibrary true)) { files := .bare })
      (Request.chained.ending .lenient (Host.idle.answering (oneLibrary false)) { files := .bare }) := by
  have hasked := (Prod.mk.inj (beforeLibrary_spec true)).2
  have hrest : (Request.chained.ending .lenient (Host.idle.answering (oneLibrary true))
      { files := .bare }).2.requests = (afterLibrary true).2.requests ++
        ["http://f/v2/versions/intermediary/1.0", "http://f/g/a/1/a-1.tiny",
          "http://f/v2/versions/yarn/1.0"] := by decide +kernel
  refine ⟨afterLibrary_spec true, afterLibrary_spec false, (run_advisory Request.chained .lenient .idle
    (oneLibrary true) (oneLibrary false) { files := .bare } (by decide) placed_bare dotless_bare
    (by decide) ⟨by decide, by decide⟩ (fun _ _ _ _ hsame => ⟨rfl, hsame⟩) (fun _ _ _ hfiles => hfiles)
    (fun _ => steady_of_oneLibrary true) (fetches_onlyLibrary true) (fetches_onlyLibrary false)
    fun addresses hasks address hmem => ?_).1⟩
  have hother : address ≠ "http://l" := by
    rintro rfl
    rcases hasks with hasks | hasks
    · rw [Asks, hasked] at hasks
      rw [← show _ = addresses from hasks] at hmem
      exact absurd hmem (by decide)
    · rw [Asks, hrest] at hasks
      rw [← List.append_cancel_left hasks] at hmem
      exact absurd hmem (by decide)
  unfold oneLibrary
  rw [if_neg hother, if_neg hother]

end Pipeline

end JarRefinery
