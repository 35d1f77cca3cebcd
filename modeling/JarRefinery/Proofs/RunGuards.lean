import JarRefinery.Proofs.Accounts
import JarRefinery.Proofs.FailFast
import JarRefinery.Proofs.RunFrame
import JarRefinery.Proofs.Unguarded

/-!
# No run comes to a guard

When a stage begins, the stages before it have handed on what it needs. The jar that is stripped is the
one that was fetched or one that was unpacked, and neither is where the stripped one goes. So whatever
a stage of a run fails with, it is not the fault of a guard.
-/

namespace JarRefinery

open Action (any Ends)
open FileTree (Named)
open Stage (IsGuard)

/-! ### Files of every version -/

section Written

variable {here : Location} {run : Run} {path : Path}

theorem Path.IsWritten.headedPath (hpath : path.IsWritten) :
    (MappingProvider.headedPath path).IsWritten := by
  have hslash : '/' ∉ path.name.toList := by
    unfold Path.name
    rcases List.eq_nil_or_concat' path.parts with hnil | ⟨front, last, hparts⟩
    · simp [hnil]
    · rw [hparts, List.getLastD_concat]
      exact (hpath last (by simp [hparts])).2
  rw [← path.stem_append_suffix, String.toList_append, List.mem_append, not_or] at hslash
  intro part hpart
  rcases List.mem_append.mp hpart with hfront | hlast
  · exact hpath part (List.dropLast_subset _ hfront)
  · obtain rfl := List.mem_singleton.mp hlast
    exact ⟨(Path.named_of_mem (c := 'z') (by simp) (by decide)).1, by simp [hslash]⟩

theorem MappingProvider.Documents.isWritten (hrun : run.IsWritten here)
    (hfixed : ∀ word sets, run.provider ≠ .fixed word sets)
    (hpath : run.provider.Documents run.workspace run.side any path) : path.IsWritten := by
  cases hprovider : run.provider with
  | direct =>
    rw [hprovider] at hpath
    obtain rfl : path = _ := hpath
    exact hrun.mapping _
  | chained metaUrl mavenUrl =>
    rw [hprovider] at hpath
    obtain ⟨version, -, hdocument⟩ := hpath
    cases hdocument with
    | intermediary => exact hrun.mapping _
    | archive => exact hrun.mapping _
    | compressed => exact hrun.mapping _
    | decompressed => exact hrun.mapping _
    | headed => exact (hrun.mapping _).headedPath
  | fixed word sets => exact absurd hprovider (hfixed word sets)

/-- Where anything may be touched, a run does what it likes. -/
theorem framed_allowances {host : Host} (hrun : run.IsWritten here)
    (hfixed : ∀ word sets, run.provider ≠ .fixed word sets)
    (hnames : ∀ calls call files, files.WellNamed → (host.tools calls call files).2.WellNamed) :
    (framed host here run Set.univ).Allowances run any := by
  have hproduces : ∀ {path : Path}, path.IsWritten →
      (framed host here run Set.univ).Produces path := fun hpath =>
    framed.produces hrun.here hpath (Set.mem_univ _)
  have hmade : ∀ {path : Path}, path.IsWritten →
      (framed host here run Set.univ).AllowsFiles { made := path.trail here } := fun hpath =>
    Discipline.framing.allowsMade hrun.here hpath
  have hbuilt : ∀ set, (Remapper.passOutput run.workspace set).IsWritten := fun set =>
    (hrun.root.div "build").div _
  exact
    { network := Discipline.framing.allowsNetwork
      log := Discipline.framing.allowsLog
      calls := fun call => Discipline.framing.allowsCall
        (fun _ _ _ _ _ hout => absurd (Set.mem_univ _) hout) fun calls files => hnames calls call files
      events := Discipline.framing.allowsWritten hrun.here hrun.events (Set.mem_univ _)
      primary := hproduces (hrun.root.div _)
      libraries := fun rest hrest => hproduces fun name hname =>
        have hnamed := hrun.named_library hrest name hname
        ⟨hnamed.named, hnamed.noSlash⟩
      unpacked := hmade (hrun.root.div _)
      stripped := hproduces (hrun.root.div _)
      gives := fun _ _ _ => MappingProvider.Chained.gives_any Discipline.framing.allowsNetwork _
      documents := fun path hpath => hproduces (hpath.isWritten hrun hfixed)
      built := fun set _ => ⟨hmade (hbuilt set).parent,
        Discipline.framing.allowsRemoved hrun.here (Set.mem_univ _)⟩
      sources := hmade (hrun.root.div _)
      handed := framed.hands.handed
      hand := framed.hands.hand }

end Written

/-! ### The payload -/

namespace Stage

variable {host : Host} {here : Location} {run : Run} {world after : World}

/-- What two stages make is apart. -/
theorem Makes.apart {workspace : Workspace} {side stage other : String} (hside : side ∈ Settings.sides)
    {path last : Path} (hmakes : Makes workspace side stage path)
    (hother : Makes workspace side other last) (hne : stage ≠ other) : path.Apart last := by
  intro here heq
  obtain ⟨documents, htouches⟩ : ∃ documents,
    Touches workspace side documents here stage (path.normal here) := hmakes.touches
  obtain ⟨others, htouches'⟩ : ∃ documents,
    Touches workspace side documents here other (last.normal here) := hother.touches
  exact hne (htouches.unique hside (heq ▸ htouches'))

/-- Unpacking hands on a jar that has not the place of the stripped one. -/
theorem unpack_apart (hrun : run.IsWritten here) (hside : run.side ∈ Settings.sides)
    (hnames : ∀ calls call files, files.WellNamed → (host.tools calls call files).2.WellNamed)
    (hready : (framed host here run Set.univ).Ready world)
    (hprimary : world.state.primary = some (CallPlan.primary run.workspace run.side))
    {output : StageOutput} (heval : (unpack run).eval host world = (.ok output, after)) :
    ∃ payload, after.state.payload = some payload ∧
      payload.path.Apart (run.workspace.stripped run.side) := by
  unfold unpack at heval
  rw [Action.eval_bind_ok (Run.eval_handed host world), hprimary] at heval
  obtain ⟨inspected, reached, hinspect, heval⟩ := Action.of_eval_bind_ok heval
  have hinspected := (package_inspect_keeps (d := framed host here run Set.univ)
    (Discipline.framing.allowsMade hrun.here (hrun.root.div _))
    (Discipline.framing.allowsCall (fun _ _ _ _ _ hout => absurd (Set.mem_univ _) hout)
      fun calls files => hnames calls _ files)
    (Package.findPayload_jar (fun _ hinv => And.left hinv) _)).value hready.here hready.inv hinspect
  have hhands : after.state.payload = some inspected.1 := by
    refine ((show Action.HandsOn host reached.files.here reached.state _
      (fun _ state => state.payload = some inspected.1) from ?_).value rfl rfl heval).2
    refine .thenHand ?_
    dsimp only
    split
    · refine .thenTacit (Discipline.tacit.emit_keeps _ _ _ _) fun _ _ => ?_
      exact .thenTacit (Discipline.tacit.recordArtifact_keeps _ _ _ _) fun ref _ => .pure rfl
    · exact .pure rfl
  refine ⟨inspected.1, hhands, ?_⟩
  have hplace := hinspected.2
  split at hplace
  · exact (Makes.payload (hplace _ rfl)).apart hside .stripped (by decide)
  · rw [hplace]
    exact Makes.primary.apart hside .stripped (by decide)

/-! ### One stage -/

section

variable (hfixed : ∀ word sets, run.provider ≠ .fixed word sets) (hside : run.side ∈ Settings.sides)
  (hnetwork : Http.FailsWith host (¬IsGuard ·))

include hfixed hside hnetwork

/-- With what the stages before it have handed on, no stage comes to a guard. -/
theorem perform_unguarded {n : Nat} {stage : Stage} (hstage : all[n]? = some stage)
    (hhanded : HandedOver run n world.state)
    (hpayload : n = 3 → ∃ payload, world.state.payload = some payload ∧
      payload.path.Apart (run.workspace.stripped run.side)) :
    Ends any (¬IsGuard ·) ((stage.perform run).eval host world).1 := by
  match n, hstage with
  | 0, hstage =>
    cases hstage
    exact (resolve_unguarded hnetwork).ends
  | 1, hstage =>
    cases hstage
    obtain ⟨metadata, hmetadata⟩ := hhanded.metadata (by simp)
    exact fetch_unguarded hnetwork hmetadata
  | 2, hstage =>
    cases hstage
    exact unpack_unguarded (hhanded.primary (by simp))
  | 3, hstage =>
    cases hstage
    obtain ⟨payload, hhas, hapart⟩ := hpayload rfl
    exact sanitize_unguarded hhas hapart
  | 4, hstage =>
    cases hstage
    obtain ⟨metadata, hmetadata⟩ := hhanded.metadata (by simp)
    exact mappings_unguarded hnetwork hfixed hmetadata (hhanded.stripped (by simp))
  | 5, hstage =>
    cases hstage
    have hchain := hhanded.sets (by simp)
    exact remap_unguarded (hhanded.stripped (by simp)) (Remapper.goesOn_of_chain hside hchain)
      hchain.ne_nil
  | 6, hstage =>
    cases hstage
    obtain ⟨mapped, hmapped⟩ := hhanded.mapped (by simp)
    exact decompile_unguarded hmapped
  | n + 7, hstage => simp [all] at hstage

end

theorem announce_unguarded (run : Run) (host : Host) (stage : Stage) (output : StageOutput) :
    (announce run stage output).Yields host any (¬IsGuard ·) := by
  unfold announce
  refine .andThen (.forM fun warning => ?_) fun _ => ?_
  · exact (run.emit_unguarded _ _ _).andThen fun _ => .faultless fun _ => ⟨_, rfl⟩
  dsimp only
  split
  · exact (run.emit_unguarded _ _ _).andThen fun _ => run.emit_unguarded _ _ _
  · exact run.emit_unguarded _ _ _

variable {stage : Stage} {result : StageResult} {position : Option String}

/-- What the result of a stage tells of is a fault of the stage or of telling of its output. -/
theorem error_of_eval_execute_ok
    (heval : (stage.execute run position).eval host world = (.ok result, after)) {error : StageError}
    (herror : result.error = some error) : ∃ fault started,
      (stage.begin run (.ofOption position)).eval host world = (.ok (), started) ∧
        error = .ofFault fault ∧
        ((∃ performed, (stage.perform run).eval host started = (.error fault, performed)) ∨
          ∃ output performed told, (announce run stage output).eval host performed = (.error fault, told)) := by
  obtain ⟨started, hbegin, ⟨-, -, -, fault, performed, hperform, hcause⟩ |
    ⟨output, performed, -, hfinish⟩⟩ := of_eval_execute_ok heval
  · exact ⟨fault, started, hbegin, Option.some.inj (herror.symm.trans hcause),
      .inl ⟨performed, hperform⟩⟩
  obtain ⟨-, -, ⟨-, fault, told, hannounce, hcause⟩ | ⟨-, -, hnone, -⟩⟩ := of_eval_finish_ok hfinish
  · exact ⟨fault, started, hbegin, Option.some.inj (herror.symm.trans hcause),
      .inr ⟨_, _, _, hannounce⟩⟩
  · cases hnone.symm.trans herror

end Stage

/-! ### Runs -/

namespace Pipeline

open Stage (HandedOver)

/-- A stage has begun with what it needs, and whatever it fails with, it is not the fault of a
guard. -/
structure Defended (host : Host) (run : Run) (n : Nat) (stage : Stage) (started : World) : Prop where
  handed : HandedOver run n started.state
  sets : 4 < n → started.state.mappingSets ≠ []
  unguarded : ∀ fault after,
    (stage.perform run).eval host started = (.error fault, after) → ¬IsGuard fault

section

variable {host : Host} {here : Location} {run : Run} {begun started : World}
  (hrun : run.IsWritten here) (hside : run.side ∈ Settings.sides)
  (hfixed : ∀ word sets, run.provider ≠ .fixed word sets)
  (hnames : ∀ calls call files, files.WellNamed → (host.tools calls call files).2.WellNamed)
  (hready : (framed host here run Set.univ).Ready begun)

include hrun hside hfixed hnames hready

/-- When the payload is to be stripped, it has not the place of the stripped jar. -/
theorem Performing.payload_apart
    (hperforming : Performing host run Stage.all begun 3 started) :
    ∃ payload, started.state.payload = some payload ∧
      payload.path.Apart (run.workspace.stripped run.side) := by
  have hallows := framed_allowances hrun hfixed hnames
  obtain ⟨reached, stage, hreaches, -, hbegin⟩ := hperforming
  cases hreaches with | @next _ before _ stage result hbefore hstage hexecute hsuccess =>
  obtain rfl := Option.some.inj hstage
  obtain ⟨middle, hbegun, ⟨-, hfailed, -⟩ | ⟨output, performed, hperform, hfinish⟩⟩ :=
    Stage.of_eval_execute_ok hexecute
  · simp [hsuccess] at hfailed
  have hkept := hbefore.ready (d := framed host here run Set.univ) (fun stage hstage position =>
    Stage.execute_keeps hallows.events hallows.log (Stage.perform_keeps hallows hfixed hstage)
      position) hready
  have hmiddle := (hkept.evaluated (Stage.begin_keeps hallows.events hallows.log _ _) hbegun).1
  have hprimary := (hbefore.handedOver hfixed).2.primary (by simp)
  obtain ⟨payload, hpayload, hapart⟩ := Stage.unpack_apart hrun hside hnames hmiddle
    ((begin_tacit hbegun).2 ▸ hprimary) hperform
  -- neither the end of unpacking nor the beginning of stripping hands on anything
  have hperformed : (Discipline.tacit host performed.files.here performed.state).Ready performed :=
    ⟨rfl, rfl⟩
  have hfinished := (hperformed.evaluated (Stage.finish_keeps (Discipline.tacit.allowsFiles _)
    Discipline.tacit.allowsLog _ _ output) hfinish).1
  have hstate : started.state = performed.state := (begin_tacit hbegin).2.trans hfinished.inv
  exact ⟨payload, hstate ▸ hpayload, hapart⟩

theorem Performing.defended (hnetwork : Http.FailsWith host (¬IsGuard ·)) {n : Nat}
    (hperforming : Performing host run Stage.all begun n started) {stage : Stage}
    (hstage : Stage.all[n]? = some stage) : Defended host run n stage started := by
  have hhanded := (hperforming.handedOver hfixed).2
  refine ⟨hhanded, fun hlt => (hhanded.sets hlt).ne_nil, fun fault after heval => ?_⟩
  have hends := Stage.perform_unguarded hfixed hside hnetwork hstage hhanded (by
    rintro rfl
    exact hperforming.payload_apart hrun hside hfixed hnames hready)
  rw [heval] at hends
  cases hends with | error hfault => exact hfault

end

section

variable {request : Request} {preflight : Preflight} {host : Host} {world ready begun : World}
  {provider : MappingProvider} {run : Run}

/-- Where the stages begin, all nodes are at places that can be named. -/
theorem framed_of_begun (hhere : Named world.files.here) (hwell : world.files.WellNamed)
    (hroot : request.workspaceRoot.IsWritten)
    (henter : (enter preflight.check request).eval host world = (.ok provider, ready))
    (hbegin : (beginRun Stage.all request.workspaceOf request.runId request.version request.settings
      provider request.notes).eval host ready = (.ok run, begun)) :
    (framed host world.files.here (request.runWith provider) Set.univ).Ready begun := by
  have hstarts : (Discipline.framing host world.files.here
      (request.workspaceOf.librariesDirectory.normal world.files.here) any Set.univ).Ready world :=
    ⟨rfl, hwell, trivial⟩
  have hready :=
    (hstarts.evaluated (enter_framing preflight host hhere hroot Set.univ) henter).1
  have hrun : (request.runWith provider).IsWritten world.files.here := ⟨hhere, hroot, rfl⟩
  have hcleared : (framed host world.files.here (request.runWith provider) Set.univ).Ready
      { ready with state := {} } := ⟨hready.here, hready.inv.1, .empty _⟩
  rw [eval_beginRun] at hbegin
  exact (hcleared.evaluated (opened_keeps (request.runWith provider)
    (Discipline.framing.allowsMade hhere hrun.events.parent)
    (Discipline.framing.allowsWritten hhere hrun.events (Set.mem_univ _)) Discipline.framing.allowsLog
    (Discipline.framing.allowsMade hhere ((hroot.div "runs").div request.runId)) rfl Stage.all
    request.notes) hbegin).1

end

/-- A stage that came to a result has begun. -/
theorem Request.Executes.performing {request : Request} {preflight : Preflight} {host : Host}
    {world started after : World} {run : Run} {n : Nat} {result : StageResult}
    (hexecutes : request.Executes preflight host world run n started result after) :
    request.Performing preflight host world n started := by
  obtain ⟨provider, ready, begun, henter, hbegin, reached, stage, hreaches, hstage, hstarted, -⟩ :=
    hexecutes
  exact ⟨provider, ready, run, begun, henter, hbegin, reached, stage, hreaches, hstage, hstarted⟩

/-- **Guards are never needed.** When a stage of a run begins, the stages before it have handed on what
it needs. No stage fails with the fault of a guard, and no report tells of one. -/
theorem run_unguarded (request : Request) (preflight : Preflight) (host : Host) (world : World)
    (hhere : Named world.files.here) (hwell : world.files.WellNamed)
    (hroot : request.workspaceRoot.IsWritten) (hside : request.settings.side ∈ Settings.sides)
    (hnames : ∀ calls call files, files.WellNamed → (host.tools calls call files).2.WellNamed)
    (hnetwork : ∀ fault, host.Raises fault → ¬IsGuard fault) :
    (∀ provider n stage started, request.provider = .ok provider → Stage.all[n]? = some stage →
      request.Performing preflight host world n started →
        Defended host (request.runWith provider) n stage started) ∧
    ∀ outcome, (request.ending preflight host world).1 = .ok outcome →
      ∀ result ∈ outcome.report.stages, ∀ error, result.error = some error →
        ∃ fault, error = .ofFault fault ∧ ¬IsGuard fault := by
  have hdefended : ∀ {provider n stage started}, request.provider = .ok provider →
      Stage.all[n]? = some stage → request.Performing preflight host world n started →
        Defended host (request.runWith provider) n stage started := by
    rintro provider n stage started hprovider hstage ⟨found, ready, run, begun, henter, hbegin, hperforming⟩
    obtain ⟨hfound, rfl, -⟩ := Request.of_begun henter hbegin
    obtain rfl := Except.ok.inj (hprovider.symm.trans hfound)
    have hrun : (request.runWith provider).IsWritten world.files.here := ⟨hhere, hroot, rfl⟩
    exact hperforming.defended hrun hside (request.provider_ne_fixed hprovider) hnames
      (framed_of_begun hhere hwell hroot henter hbegin) (host.failsWith_raises hnetwork) hstage
  refine ⟨fun _ _ _ _ => hdefended, fun outcome houtcome result hresult error herror => ?_⟩
  obtain ⟨n, hn⟩ := List.mem_iff_getElem?.mp hresult
  obtain ⟨started, after, hexecutes⟩ := Request.executes_of_ending_ok houtcome hn
  obtain ⟨provider, ready, begun, henter, hbegin, reached, stage, hreaches, hstage, hstarted, hexecute⟩ :=
    id hexecutes
  obtain ⟨hprovider, hrun, -⟩ := Request.of_begun henter hbegin
  obtain ⟨fault, started', hstarted', rfl, hcause⟩ := Stage.error_of_eval_execute_ok hexecute herror
  obtain rfl := (Prod.mk.inj (hstarted.symm.trans hstarted')).2
  refine ⟨fault, rfl, ?_⟩
  rcases hcause with ⟨performed, hperform⟩ | ⟨output, performed, told, hannounce⟩
  · exact (hdefended hprovider hstage hexecutes.performing).unguarded fault performed
      (hrun ▸ hperform)
  · exact (Stage.announce_unguarded _ _ _ _).fault hannounce

theorem run_unguarded_chained : ∃ outcome result started fault,
    (Request.chained.ending .lenient (releaseService "1.0") { files := usedFiles }).1 = .ok outcome ∧
    outcome.report.stages[4]? = some result ∧ result.error = some (.ofFault fault) ∧ ¬IsGuard fault ∧
    Request.chained.Performing .lenient (releaseService "1.0") { files := usedFiles } 4 started ∧
    Defended (releaseService "1.0") (Request.chained.runWith (.chained "http://f" "http://f")) 4
      ⟨"mappings", Stage.mappings⟩ started := by
  have heval : (Request.chained.ending .lenient (releaseService "1.0") { files := usedFiles }).1.toOption.map
      (fun outcome => outcome.report.stages[4]?.map fun result => result.error.map (·.message)) =
      some (some (some
        "Cannot query named mapping releases: Expecting value: line 1 column 1 (char 0)")) := by
    decide +kernel
  obtain ⟨outcome, houtcome, hfifth⟩ := Option.map_eq_some_iff.mp heval
  obtain ⟨result, hresult, hmessage⟩ := Option.map_eq_some_iff.mp hfifth
  obtain ⟨error, herror, -⟩ := Option.map_eq_some_iff.mp hmessage
  have hending : (Request.chained.ending .lenient (releaseService "1.0") { files := usedFiles }).1 =
      .ok outcome := Action.ok_of_toOption houtcome
  have hquiet : ∀ fault, ¬(releaseService "1.0").Raises fault := by
    rintro fault (⟨past, address, hreply⟩ | ⟨past, address, status, location, body, hreply⟩) <;>
      cases hreply
  obtain ⟨hstages, hreported⟩ := run_unguarded Request.chained .lenient (releaseService "1.0")
    { files := usedFiles } (named_usedFiles (by decide)) wellNamed_usedFiles
    (fun part hpart => by obtain rfl := List.mem_singleton.mp hpart; decide) (by decide)
    (fun _ _ _ hwell => hwell) fun fault hraises => absurd hraises (hquiet fault)
  obtain ⟨fault, rfl, hunguarded⟩ :=
    hreported outcome hending result (List.mem_of_getElem? hresult) error herror
  obtain ⟨started, after, hexecutes⟩ := Request.executes_of_ending_ok hending hresult
  exact ⟨outcome, result, started, fault, hending, hresult, herror, hunguarded, hexecutes.performing,
    hstages _ 4 _ started rfl rfl hexecutes.performing⟩

end Pipeline

end JarRefinery
