import JarRefinery.Proofs.Containment
import JarRefinery.Proofs.Recording

/-!
# What a run leaves alone

A run replaces its own outputs, writes below its own directories, and changes no other file, however it
ends. No later stage touches what an earlier one recorded, so the references of the report are still
right at the end.
-/

namespace JarRefinery

open Action (any Records)
open FileTree (Named HasFile)

variable {host : Host} {here : Location} {run : Run} {world : World}

/-! ### One stage -/

namespace Stage

variable (hrun : run.IsWritten here) (hside : run.side ∈ Settings.sides)
  (hfixed : ∀ word sets, run.provider ≠ .fixed word sets)
  (hversions : ∀ metaUrl mavenUrl, run.provider = .chained metaUrl mavenUrl →
    ∀ release, host.Lists release → '/' ∉ release.version.toList)
  (htidy : host.Tidy run.settings run.workspace here)

include hrun hside hfixed hversions htidy

/-- Executing a stage touches what the stage touches, and its references are right when it ends. -/
theorem execute_framed {stage : Stage} (hstage : stage ∈ all)
    (hready : (framed host here run ∅).Ready world) (position : Option String) :
    let ending := (stage.execute run position).eval host world
    ∃ documents, run.provider.Chooses host run.side documents ∧
      (framed host here run (region run here stage.name documents)).step world ending.2 ∧
      ending.2.files.here = here ∧ ∀ result, ending.1 = .ok result →
        Recorded host here run (stores run here stage.name) result.output.artifacts ending.2 := by
  have hevents : (framed host here run {run.events.path.normal here}).AllowsFiles
      { written := {run.events.path.normal here} } :=
    Discipline.framing.allowsWritten hrun.here hrun.events (Set.mem_singleton _)
  have hlog : (framed host here run {run.events.path.normal here}).AllowsLog :=
    Discipline.framing.allowsLog
  have htold : ∀ {documents before after},
      (framed host here run {run.events.path.normal here}).step before after →
        (framed host here run (region run here stage.name documents)).step before after :=
    Discipline.framing.mono_step (Set.singleton_subset_iff.mpr (events_mem_region stage.name))
  have hready' : (framed host here run {run.events.path.normal here}).Ready world :=
    ⟨hready.here, hready.inv⟩
  rw [eval_execute]
  rcases hbegin : (stage.begin run (.ofOption position)).eval host world with ⟨fault | _, started⟩ <;>
    obtain ⟨hstarted, hbegun⟩ := hready'.evaluated (begin_keeps hevents hlog stage _) hbegin
  · exact ⟨[], .nothing, htold hbegun, hstarted.here, by simp⟩
  have hstart : (framed host here run ∅).Ready started := ⟨hstarted.here, hstarted.inv⟩
  obtain ⟨_, ⟨documents, hchosen, rfl⟩, hworked, hhere, -⟩ :=
    perform_frames hrun hside hfixed hversions htidy hstage started hstart
  have hrecords := perform_records hrun hside htidy hfixed hversions hstage
  have hperformed : (framed host here run {run.events.path.normal here}).Ready
      ((stage.perform run).eval host started).2 :=
    ⟨hhere, (framed host here run (region run here stage.name documents)).keep hworked hstarted.inv⟩
  have hdone := (framed host here run (region run here stage.name documents)).trans (htold hbegun) hworked
  refine ⟨documents, hchosen, ?_⟩
  dsimp only
  rcases hperform : (stage.perform run).eval host started with ⟨fault | output, performed⟩ <;>
    rw [hperform] at hdone hhere hperformed
  · dsimp only
    split
    · have hfail := fail_keeps hevents hlog stage (.ofOption position) fault {}
      refine ⟨(framed host here run _).trans hdone (htold (hfail.step hperformed.here hperformed.inv)),
        hfail.here hperformed.here hperformed.inv, fun result hresult => ?_⟩
      have htells := (hfail.value hperformed.here hperformed.inv (Prod.ext hresult rfl)).1
      rw [htells.artifacts]
      exact .start (hperformed.after hfail)
    · exact ⟨hdone, hhere, by simp⟩
  · have hfinish := finish_keeps hevents hlog stage (.ofOption position) output
    have hended := hfinish.step hperformed.here hperformed.inv
    refine ⟨(framed host here run _).trans hdone (htold hended),
      hfinish.here hperformed.here hperformed.inv, fun result hresult => ?_⟩
    have htells := (hfinish.value hperformed.here hperformed.inv (Prod.ext hresult rfl)).1
    rw [htells.artifacts]
    exact (hrecords.value (.start hstart) hperform).after_step hended
      (hfinish.here hperformed.here hperformed.inv) (.inr (stores_clear_events hrun hside _))

end Stage

/-! ### The stages one after the other -/

namespace Pipeline

/-- What stages touch, with the event log. -/
def territory (run : Run) (here : Location) (stages : List Stage) (documents : List String) :
    Set Location :=
  insert (run.events.path.normal here) {location | ∃ stage ∈ stages,
    Stage.Touches run.workspace run.side documents here stage.name location}

theorem region_subset_territory {stage : Stage} {stages : List Stage} {documents others : List String}
    (hstage : stage ∈ stages) (hdocuments : stage.name = "mappings" → documents ⊆ others) :
    Stage.region run here stage.name documents ⊆ territory run here stages others := by
  refine Set.insert_subset_insert fun location htouches => ⟨stage, hstage, ?_⟩
  exact Stage.Touches.mono hdocuments htouches

theorem territory_mono {stages more : List Stage} {documents others : List String}
    (hstages : stages ⊆ more)
    (hdocuments : ∀ stage ∈ stages, stage.name = "mappings" → documents ⊆ others) :
    territory run here stages documents ⊆ territory run here more others := by
  refine Set.insert_subset_insert ?_
  rintro location ⟨stage, hstage, htouches⟩
  exact ⟨stage, hstages hstage, htouches.mono (hdocuments stage hstage)⟩

/-- One stage alone decides which mapping documents there are. -/
theorem exists_documents {stage : Stage} {rest : List Stage}
    (hnodup : ((stage :: rest).map (·.name)).Nodup) {provider : MappingProvider} {side : String}
    {first second : List String} (hfirst : provider.Chooses host side first)
    (hsecond : provider.Chooses host side second) :
    ∃ documents, provider.Chooses host side documents ∧
      Stage.region run here stage.name first ⊆ territory run here (stage :: rest) documents ∧
      territory run here rest second ⊆ territory run here (stage :: rest) documents := by
  by_cases hname : stage.name = "mappings"
  · refine ⟨first, hfirst, region_subset_territory List.mem_cons_self fun _ => List.Subset.refl _,
      territory_mono (List.subset_cons_self _ _) fun other hother hmappings => ?_⟩
    rw [List.map_cons, List.nodup_cons] at hnodup
    have hmem : other.name ∈ rest.map (·.name) := List.mem_map_of_mem hother
    rw [hmappings, ← hname] at hmem
    exact absurd hmem hnodup.1
  · exact ⟨second, hsecond,
      region_subset_territory List.mem_cons_self fun hmappings => absurd hmappings hname,
      territory_mono (List.subset_cons_self _ _) fun _ _ _ => List.Subset.refl _⟩

section

/-- The event log and the report of a run. -/
def ownFiles (workspace : Workspace) (runId : String) (here : Location) : Set Location :=
  {(eventsPath workspace runId).normal here, (reportPath workspace runId).normal here}

/-- What a run may change, if its mapping documents have these names: its own files, and what its
stages touch. -/
def changes (workspace : Workspace) (side runId : String) (documents : List String)
    (here : Location) : Set Location :=
  ownFiles workspace runId here ∪
    {location | ∃ stage, Stage.Touches workspace side documents here stage location}

variable (hrun : run.IsWritten here) (hside : run.side ∈ Settings.sides)

include hrun hside

/-- What a stage records is clear of the stages that follow. -/
theorem stores_clear_territory {stage : Stage} {rest : List Stage}
    (hnodup : ((stage :: rest).map (·.name)).Nodup) (documents : List String) :
    Clear run here (territory run here rest documents) (Stage.stores run here stage.name) := by
  refine Stage.stores_clear hside ?_
  rintro location hstored (heq | ⟨other, hother, htouches⟩)
  · exact (Stage.stores_clear_events hrun hside _ location hstored).1 heq
  · obtain ⟨_, hown⟩ := Stage.stores_touches hstored
    rw [List.map_cons, List.nodup_cons, hown.unique hside htouches] at hnodup
    exact hnodup.1 (List.mem_map_of_mem hother)

variable (hfixed : ∀ word sets, run.provider ≠ .fixed word sets)
  (hversions : ∀ metaUrl mavenUrl, run.provider = .chained metaUrl mavenUrl →
    ∀ release, host.Lists release → '/' ∉ release.version.toList)
  (htidy : host.Tidy run.settings run.workspace here)

include hfixed hversions htidy

/-- The stages touch only what each of them touches, and what they recorded stays as it was. -/
theorem executeFrom_framed {stages : List Stage} (hstages : ∀ stage ∈ stages, stage ∈ Stage.all)
    (hnodup : (stages.map (·.name)).Nodup) (total n : Nat)
    (hready : (framed host here run ∅).Ready world) :
    let ending := (executeFrom run total n stages).eval host world
    ∃ documents, run.provider.Chooses host run.side documents ∧
      (framed host here run (territory run here stages documents)).step world ending.2 ∧
      ending.2.files.here = here ∧ ∀ results, ending.1 = .ok results → ∀ result ∈ results,
        ∃ stage ∈ stages, Recorded host here run (Stage.stores run here stage.name)
          result.output.artifacts ending.2 := by
  induction stages generalizing n world with
  | nil =>
    refine ⟨[], .nothing, (framed host here run _).refl world, hready.here, ?_⟩
    rintro _ ⟨⟩
    simp
  | cons stage rest ih =>
    obtain ⟨first, hfirst, hstep, hhere, hresult⟩ := Stage.execute_framed hrun hside hfixed hversions
      htidy (hstages stage List.mem_cons_self) hready (some (position n total))
    unfold executeFrom
    rw [Action.eval_bind]
    rcases heval : (stage.execute run (some (position n total))).eval host world with
      ⟨fault | result, after⟩ <;> rw [heval] at hstep hhere hresult
    · exact ⟨first, hfirst, Discipline.framing.mono_step (region_subset_territory List.mem_cons_self
        fun _ => List.Subset.refl _) hstep, hhere, by simp⟩
    have hrecorded : Recorded host here run (Stage.stores run here stage.name)
      result.output.artifacts after := hresult result rfl
    dsimp only
    split
    · have hlogged : (Run.log .error "Stopping on first failure" [("stage", .text stage.name)] >>=
          fun _ => pure [result]).Keeps (framed host here run ∅) (· = [result]) :=
        (Run.log_keeps Discipline.framing.allowsLog _ _ _).andThen fun _ => .pure rfl
      have hquiet := hlogged.step hhere hrecorded.ready.inv
      have hended := hlogged.here hhere hrecorded.ready.inv
      refine ⟨first, hfirst, (framed host here run _).trans (Discipline.framing.mono_step
        (region_subset_territory List.mem_cons_self fun _ => List.Subset.refl _) hstep)
        (Discipline.framing.mono_step (Set.empty_subset _) hquiet), hended, fun results hresults => ?_⟩
      obtain rfl := hlogged.value hhere hrecorded.ready.inv (Prod.ext hresults rfl)
      intro other hother
      obtain rfl := List.mem_singleton.mp hother
      exact ⟨stage, List.mem_cons_self, hrecorded.after_step hquiet hended
        (.inr (Stage.stores_clear hside fun _ _ => Set.notMem_empty _))⟩
    · obtain ⟨second, hsecond, hsteps, hended, hothers⟩ :=
        ih (fun other hother => hstages other (List.mem_cons_of_mem _ hother))
          (List.nodup_cons.mp hnodup).2 (n + 1) hrecorded.ready
      obtain ⟨documents, hchosen, hregion, hterritory⟩ := exists_documents hnodup hfirst hsecond
      refine ⟨documents, hchosen, ?_⟩
      rw [Action.eval_bind]
      rcases hrest : (executeFrom run total (n + 1) rest).eval host after with
        ⟨fault | others, last⟩ <;> rw [hrest] at hsteps hended hothers
      all_goals
        have hall := (framed host here run _).trans (Discipline.framing.mono_step hregion hstep)
          (Discipline.framing.mono_step hterritory hsteps)
      · exact ⟨hall, hended, by simp⟩
      refine ⟨hall, hended, ?_⟩
      rintro _ ⟨⟩ found hfound
      rcases List.mem_cons.mp hfound with rfl | hfound
      · exact ⟨stage, List.mem_cons_self, hrecorded.after_step hsteps hended
          (.inr (stores_clear_territory hrun hside hnodup second))⟩
      · obtain ⟨other, hother, hstands⟩ := hothers others rfl found hfound
        exact ⟨other, List.mem_cons_of_mem _ hother, hstands⟩

omit hfixed hversions htidy in
theorem stores_clear_ownFiles (stage : String) :
    Clear run here (ownFiles run.workspace run.id here) (Stage.stores run here stage) := by
  refine Stage.stores_clear hside ?_
  rintro location hstored (heq | heq)
  · exact (Stage.stores_clear_events hrun hside _ location hstored).1 (hrun.log ▸ heq)
  · obtain ⟨path, hmakes, rfl⟩ := hstored
    have hreport : (reportPath run.workspace run.id).normal here =
        (runDirectory run.workspace run.id).normal here ++ ["run_report.json"] :=
      Path.normal_div_of_single (by decide) (by decide) _ _
    exact hmakes.normal_ne hside (List.all_iff_forall_prop.mp (by decide)) _
      ((Set.mem_singleton_iff.mp heq).trans hreport)

omit hfixed hversions htidy hside in
theorem events_framed :
    (framed host here run (ownFiles run.workspace run.id here)).AllowsFiles
      { written := {run.events.path.normal here} } :=
  Discipline.framing.allowsWritten hrun.here hrun.events (hrun.log ▸ Set.mem_insert _ _)

omit hfixed hversions htidy hside in
/-- The beginning of a run changes its event log. -/
theorem starting_framed (notes : Json.Fields) : (starting run notes).Keeps
    (framed host here run (ownFiles run.workspace run.id here)) any :=
  starting_keeps (Discipline.framing.allowsMade hrun.here hrun.events.parent) (events_framed hrun)
    Discipline.framing.allowsLog
    (Discipline.framing.allowsMade hrun.here ((hrun.root.div "runs").div run.id)) notes

omit hfixed hversions htidy hside in
/-- Its end changes its event log and its report. -/
theorem finishRun_framed (notes : Json.Fields) (startedAt : String) (results : List StageResult) :
    (finishRun run notes startedAt results).Keeps
      (framed host here run (ownFiles run.workspace run.id here)) (Ends run results ·) := by
  have hdirectory : (runDirectory run.workspace run.id).IsWritten := (hrun.root.div "runs").div run.id
  exact (finishRun_keeps run Discipline.framing.allowsLog (events_framed hrun)
    (Discipline.framing.allowsMade hrun.here (hdirectory.div _).parent)
    (Discipline.framing.allowsWritten hrun.here (hdirectory.div _) (Set.mem_insert_of_mem _ rfl))
    notes startedAt results).weaken fun _ hends => hends.1

omit hfixed hversions htidy hside in
theorem territory_subset_changes (documents : List String) :
    territory run here Stage.all documents ⊆
      changes run.workspace run.side run.id documents here := by
  rintro location (rfl | ⟨stage, -, htouches⟩)
  · exact .inl (.inl (congrArg _ hrun.log))
  · exact .inr ⟨stage.name, htouches⟩

/-- From its beginning to its end a run changes only its own files and what its stages touch, and the
references of its report are right in the end. -/
theorem staging_framed (hready : (framed host here run ∅).Ready world) (notes : Json.Fields)
    (startedAt : String) :
    let ending := (staging run notes startedAt).eval host world
    ∃ documents, run.provider.Chooses host run.side documents ∧
      (framed host here run (changes run.workspace run.side run.id documents here)).step world ending.2 ∧
      ending.2.files.here = here ∧ ∀ outcome, ending.1 = .ok outcome →
        ∀ result ∈ outcome.report.stages, ∀ ref ∈ result.output.artifacts,
          ∃ location, ref.StandsAt run.workspace.root ending.2.files location := by
  have hbeginning : (framed host here run (ownFiles run.workspace run.id here)).Ready world :=
    ⟨hready.here, hready.inv⟩
  have hown : ∀ {documents before after},
      (framed host here run (ownFiles run.workspace run.id here)).step before after →
        (framed host here run (changes run.workspace run.side run.id documents here)).step before after :=
    Discipline.framing.mono_step Set.subset_union_left
  unfold staging
  rw [Action.eval_bind]
  rcases hbegin : (starting run notes).eval host world with ⟨fault | _, begun⟩ <;>
    obtain ⟨hbegun, hstarted⟩ := hbeginning.evaluated (starting_framed hrun notes) hbegin
  · exact ⟨[], .nothing, hown hstarted, hbegun.here, by simp⟩
  obtain ⟨documents, hchosen, hsteps, hhere, hresults⟩ := executeFrom_framed hrun hside hfixed
    hversions htidy (fun _ hstage => hstage) (by decide) Stage.all.length 0 ⟨hbegun.here, hbegun.inv⟩
  refine ⟨documents, hchosen, ?_⟩
  dsimp only
  rw [Action.eval_bind]
  have hinv := (framed host here run (territory run here Stage.all documents)).keep hsteps hbegun.inv
  have hexecuted := (framed host here run _).trans (hown hstarted)
    (Discipline.framing.mono_step (territory_subset_changes hrun documents) hsteps)
  rcases hexecute : (executeFrom run Stage.all.length 0 Stage.all).eval host begun with
    ⟨fault | results, executed⟩ <;> rw [hexecute] at hhere hresults hinv hexecuted
  · exact ⟨hexecuted, hhere, by simp⟩
  dsimp only
  have hfinish : (finishRun run notes startedAt results).Keeps
      (framed host here run (ownFiles run.workspace run.id here)) (Ends run results ·) :=
    finishRun_framed hrun notes startedAt results
  -- from here on it matters only what the end of the run keeps to
  generalize finishRun run notes startedAt results = finish at hfinish
  have hended := hfinish.step hhere hinv
  have hafter := hfinish.here hhere hinv
  refine ⟨(framed host here run _).trans hexecuted (hown hended), hafter, fun outcome houtcome => ?_⟩
  rw [(hfinish.value hhere hinv (Prod.ext houtcome rfl)).stages]
  intro result hresult ref href
  obtain ⟨stage, -, hrecorded⟩ := hresults results rfl result hresult
  obtain ⟨location, -, hstands⟩ := (hrecorded.after_step hended hafter
    (.inr (stores_clear_ownFiles hrun hside _))).stands ref href
  exact ⟨location, hstands⟩

end

/-! ### Whole runs -/

/-- The run may come to mapping documents of these names. -/
def Request.Chooses (request : Request) (host : Host) (documents : List String) : Prop :=
  documents = [] ∨ ∃ provider, request.provider = .ok provider ∧
    provider.Chooses host request.settings.side documents

/-- What a run leaves alone, and that its references are right. -/
structure Request.Leaves (request : Request) (host : Host) (before : FileTree)
    (ending : Except Fault RunOutcome × World) : Prop where
  files : ∃ documents, request.Chooses host documents ∧ ∀ location contents mode,
    location ∉ changes request.workspaceOf request.settings.side request.runId documents before.here →
      before.HasFile location contents mode → ending.2.files.HasFile location contents mode
  references : ∀ outcome, ending.1 = .ok outcome → ∀ result ∈ outcome.report.stages,
    ∀ ref ∈ result.output.artifacts,
      ∃ location, ref.StandsAt request.workspaceRoot ending.2.files location

/-- Entering a workspace makes directories and nothing else. -/
theorem enter_framing (preflight : Preflight) {request : Request} (host : Host) {here : Location}
    (hhere : Named here) (hroot : request.workspaceRoot.IsWritten) (touched : Set Location) :
    (enter preflight.check request).Keeps (.framing host here
      (request.workspaceOf.librariesDirectory.normal here) any touched) any := by
  refine (enter_keeps preflight request (fun directory hmem => ?_) fun _ => trivial).anyway
  refine Discipline.framing.allowsMade hhere ?_
  simp only [Workspace.startDirectories, List.mem_cons, List.not_mem_nil, or_false] at hmem
  rcases hmem with rfl | rfl | rfl | rfl
  · exact hroot
  · exact hroot.div "libraries"
  · exact hroot.div "mappings"
  · exact hroot.div "build"

/-- **Frame.** Whatever the network answers and however the run ends, no file changes but the event
log and the report of the run, the outputs of its stages and what its tools wrote below their own
directories. All files that the report refers to are still as they were recorded. -/
theorem run_framed (request : Request) (preflight : Preflight) (host : Host) (world : World)
    (hhere : Named world.files.here) (hwell : world.files.WellNamed)
    (hroot : request.workspaceRoot.IsWritten) (hside : request.settings.side ∈ Settings.sides)
    (htidy : host.Tidy request.settings request.workspaceOf world.files.here)
    (hversions : request.mappingKind = "chained" →
      ∀ release, host.Lists release → '/' ∉ release.version.toList) :
    request.Leaves host world.files (request.ending preflight host world) := by
  have henter := enter_framing preflight host hhere hroot ∅
  have hready : (Discipline.framing host world.files.here
      (request.workspaceOf.librariesDirectory.normal world.files.here) any ∅).Ready world :=
    ⟨rfl, hwell, trivial⟩
  rcases hentered : (enter preflight.check request).eval host world with ⟨fault | provider, ready⟩ <;>
    obtain ⟨hentered', hstep⟩ := hready.evaluated henter hentered
  · rw [Request.ending_of_refused hentered]
    exact ⟨⟨[], .inl rfl, fun location contents mode _ hfile => hstep.1.file (Set.notMem_empty _) hfile⟩,
      by simp⟩
  have hprovider := enter_provider hentered
  have hchained : ∀ metaUrl mavenUrl, (request.runWith provider).provider = .chained metaUrl mavenUrl →
      ∀ release, host.Lists release → '/' ∉ release.version.toList := by
    rintro metaUrl mavenUrl rfl
    exact hversions (Request.mappingKind_of_chained hprovider)
  have hwritten : (request.runWith provider).IsWritten world.files.here := ⟨hhere, hroot, rfl⟩
  have hbegins : (framed host world.files.here (request.runWith provider) ∅).Ready
      { ready with state := {} } := ⟨hentered'.here, hentered'.inv.1, .empty _⟩
  obtain ⟨documents, hchosen, hsteps, hafter, hreferences⟩ := staging_framed hwritten hside
    (request.provider_ne_fixed hprovider) hchained htidy hbegins request.notes host.clock
  rw [Request.ending_of_entered hentered]
  refine ⟨⟨documents, .inr ⟨provider, hprovider, hchosen⟩, fun location contents mode hout hfile => ?_⟩,
    hreferences⟩
  exact hsteps.1.file hout (hstep.1.file (Set.notMem_empty _) hfile)

theorem tidy_releaseService (release : String) (settings : Settings) (workspace : Workspace)
    (here : Location) : (releaseService release).Tidy settings workspace here where
  bundler _ _ := fun _ _ _ _ hfile => ⟨hfile, id⟩
  remapper _ _ _ _ _ := fun _ _ _ _ hfile => ⟨hfile, id⟩
  decompiler _ _ _ := fun _ _ _ _ hfile => ⟨hfile, id⟩
  names _ _ _ hwell := hwell

/-- A directory with a workspace that has a file already. -/
def usedFiles : FileTree :=
  ⟨[(["work"], .directory), (["work", "ws"], .directory),
    (["work", "ws", "notes.txt"], .file [1] 420)], ["work"]⟩

theorem named_usedFiles {location : Location}
    (hsub : location ⊆ ["work", "ws", "notes.txt"]) : Named location := by
  intro name hname
  have hmem := hsub hname
  simp only [List.mem_cons, List.not_mem_nil, or_false] at hmem
  rcases hmem with rfl | rfl | rfl <;> exact ⟨by decide, by decide, by decide⟩

theorem wellNamed_usedFiles : usedFiles.WellNamed :=
  FileTree.wellNamed_of_nodes fun entry hentry => named_usedFiles (by
    revert entry
    decide)

theorem run_framed_chained :
    Request.chained.Leaves (releaseService "1.0") usedFiles
      (Request.chained.ending .lenient (releaseService "1.0") { files := usedFiles }) :=
  run_framed Request.chained .lenient (releaseService "1.0") { files := usedFiles }
    (named_usedFiles (by decide)) wellNamed_usedFiles
    (fun part hpart => by obtain rfl := List.mem_singleton.mp hpart; decide)
    (by decide) (tidy_releaseService _ _ _ _)
    fun _ release hlists => by rw [version_of_releaseService hlists]; decide

end Pipeline

end JarRefinery
