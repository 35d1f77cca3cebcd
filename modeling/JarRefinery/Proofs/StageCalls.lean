import JarRefinery.Proofs.Calls

/-!
# The calls of the stages

Only unpacking, remapping and decompiling call tools. What a stage that calls none leads to follows
from what it keeps to; the others are followed to their calls.
-/

namespace JarRefinery

open Action (any Tallied)

variable {run : Run} {host : Host} {here : Location}

/-- Exactly these calls have been made. -/
abbrev only (made : List ToolCall) : List ToolCall → RunState → Prop :=
  fun calls _ => calls = made

theorem emit_quietly (stage kind : String) (data : Json.Fields) :
    (run.emit stage kind data).Keeps (quietly host here run) any :=
  Run.emit_keeps (Discipline.quiet.allowsFiles _) stage kind data

theorem recordArtifact_quietly (stage : String) (contentType : Option String) (path : Path) :
    (run.recordArtifact stage contentType path).Keeps (quietly host here run) any :=
  Run.recordArtifact_keeps (Discipline.quiet.allowsFiles _) stage contentType path

theorem quiet_network : (quietly host here run).AllowsNetwork :=
  Discipline.quiet.allowsNetwork

theorem quiet_files (footprint : Footprint) : (quietly host here run).AllowsFiles footprint :=
  Discipline.quiet.allowsFiles footprint

theorem quiet_produces (target : Path) : (quietly host here run).Produces target :=
  quiet_network.produces (quiet_files _)

section

variable {made : List ToolCall} {partly : List ToolCall → Prop} (hmade : partly made)

include hmade

theorem only_partly (calls : List ToolCall) (state : RunState) (honly : only made calls state) :
    partly calls :=
  honly ▸ hmade

namespace Stage

/-! ### The stages that call no tool -/

theorem resolve_tallied :
    Tallied host here run (only made) (resolve run) (fun _ => only made) partly := by
  have hpartly := only_partly hmade
  unfold resolve
  refine .thenQuiet (ReleaseSource.entry_keeps quiet_network _ _) hpartly fun entry _ => ?_
  refine .thenQuiet (ReleaseSource.metadata_keeps quiet_network _ _) hpartly fun metadata _ => ?_
  refine .thenHand (only made) (fun state hhanded => hhanded.setMetadata metadata)
    (fun calls state honly => honly) ?_
  refine .thenQuiet (emit_quietly _ _ _) hpartly fun _ _ => ?_
  exact .pure fun _ _ honly => honly

theorem fetch_tallied :
    Tallied host here run (only made) (fetch run) (fun _ => only made) partly := by
  have hpartly := only_partly hmade
  unfold fetch
  refine .thenHanded fun state calls hhanded _ => ?_
  split
  · exact .throw hpartly
  refine .thenQuiet (Release.fetchPrimary_keeps _ _ _ _ (quiet_produces _)) hpartly
    fun fetched hfetched => ?_
  refine .thenQuiet (.ofResult (fun _ _ => trivial) hfetched.2) hpartly fun primary hprimary => ?_
  refine .thenHand (only made) (fun state hhanded => hhanded.setPrimary hprimary)
    (fun calls state honly => honly) ?_
  refine .thenQuiet (recordArtifact_quietly _ _ _) hpartly fun ref _ => ?_
  refine .thenQuiet (Release.fetchLibraries_keeps _ _ (fun _ _ dependency =>
    Release.fetchLibraryTo_keeps _ dependency (quiet_produces _)) _) hpartly fun libraries _ => ?_
  refine .thenQuiet (.forM fun library _ => announceLibrary_keeps (quiet_files _) library) hpartly
    fun _ _ => ?_
  exact .pure fun _ _ honly => honly

theorem sanitize_tallied :
    Tallied host here run (only made) (sanitize run) (fun _ => only made) partly := by
  have hpartly := only_partly hmade
  unfold sanitize Strip.artifact
  refine .thenHanded fun state calls hhanded _ => ?_
  split
  · exact .throw hpartly
  rename_i payload hpayload
  simp only [bind_assoc, pure_bind]
  refine .thenQuiet ((quiet_produces _).strip _) hpartly fun counts _ => ?_
  have hstripped : payload.derive "stripped" (run.workspace.stripped run.side) none =
      CallPlan.stripped run.workspace run.side :=
    congrArg (Artifact.mk "stripped" _) (hhanded.payload payload hpayload)
  refine .thenHand (only made) (fun others hothers => hothers.setStripped hstripped)
    (fun calls state honly => honly) ?_
  refine .thenQuiet (recordArtifact_quietly _ _ _) hpartly fun ref _ => ?_
  exact .pure fun _ _ honly => honly

theorem mappings_tallied (hfixed : ∀ word sets, run.provider ≠ .fixed word sets) :
    Tallied host here run (only made) (mappings run)
      (fun _ calls state => calls = made ∧ run.provider.Chain state.mappingSets) partly := by
  have hpartly := only_partly hmade
  unfold mappings
  refine .thenHanded fun state calls hhanded _ => ?_
  split
  · exact .throw hpartly
  rename_i stripped hstripped
  rw [show stripped.space = officialNamespace from
    congrArg Artifact.space (hhanded.stripped stripped hstripped), ← bind_assoc]
  refine .thenQuiet (normalizedChain_keeps (fun _ _ => quiet_produces _)
    (quiet_files _) (fun _ _ _ => MappingProvider.Chained.gives_any quiet_network _) hfixed
      fun world hinv artifact hartifact =>
      congrArg Artifact.space (hinv.stripped artifact hartifact)) hpartly fun sets hchain => ?_
  refine .thenHand (fun calls state => calls = made ∧ state.mappingSets = sets)
    (fun state hhanded => hhanded.setSets hchain)
    (fun calls state honly => ⟨honly, rfl⟩) ?_
  have hpartly' : ∀ calls (state : RunState),
      calls = made ∧ state.mappingSets = sets → partly calls :=
    fun calls _ hcalls => hcalls.1 ▸ hmade
  refine .thenQuiet (emit_quietly _ _ _) hpartly' fun _ _ => ?_
  refine .thenQuiet (Action.Keeps.mapM fun set _ => recordArtifact_quietly _ _ _).anyway hpartly'
    fun artifacts _ => ?_
  exact .pure fun calls state hcalls => ⟨hcalls.1, hcalls.2 ▸ hchain⟩

end Stage

end

/-! ### Bundles -/

namespace Package

/-- Looking whether a package is a bundle changes nothing. -/
theorem isBundled_spec (host : Host) (path : Path) (world : World) :
    ∃ result, (isBundled path).eval host world = (result, world) ∧
      ∀ bundled, result = .ok bundled → (bundled = true ↔ IsBundle world.files path) := by
  unfold isBundled
  rw [Action.eval_explain, Action.eval_bind, Action.eval_onFiles, FileTree.eval_readFile_snd]
  rcases hread : ((FileTree.readFile path).eval world.files).1 with error | archive
  · exact ⟨_, rfl, by simp⟩
  obtain ⟨-, mode, hnode⟩ := FileTree.readFile_ok world.files path (Prod.ext hread rfl)
  simp only [Except.mapError, Action.eval_bind, Action.eval_ofExcept]
  rcases hentries : Archive.readDirectory archive with flaw | entries
  · exact ⟨_, rfl, by simp⟩
  refine ⟨_, rfl, ?_⟩
  rintro _ ⟨⟩
  have hfound : (Archive.find? entries bundleMarker).isSome = true ↔
      ∃ entry ∈ entries, entry.name = bundleMarker := by
    simp [Archive.find?]
  rw [hfound]
  constructor
  · exact fun hentry => ⟨archive, mode, entries, hnode, hentries, hentry⟩
  · rintro ⟨other, _, others, hother, hothers, hentry⟩
    obtain ⟨rfl, -⟩ : archive = other ∧ _ := by simpa [hnode] using hother
    obtain rfl : entries = others := by simpa [hentries] using hothers
    exact hentry

section

variable {made : List ToolCall} {partly : List ToolCall → Prop} (hmade : partly made)
  (hcalled : partly (made ++ [CallPlan.bundlerCall run.settings run.workspace here]))

include hmade hcalled

/-- The bundler is called in the directory that it is to unpack to. -/
theorem unpack_tallied :
    Tallied host here run (only made)
      (unpack run.settings.javaBin run.settings.timeout run.workspace
        (CallPlan.primary run.workspace run.side))
      (fun payload calls _ => payload.space = officialNamespace ∧
        calls = made ++ [CallPlan.bundlerCall run.settings run.workspace here]) partly := by
  have hpartly := only_partly hmade
  have hpartly' := only_partly hcalled
  unfold unpack
  refine .thenQuiet (ensureDirectories_keeps (quiet_files _)) hpartly fun _ _ => ?_
  refine .thenQuiet (resolve_value _) hpartly fun jar hjar => ?_
  subst hjar
  refine .thenCall (only (made ++ [CallPlan.bundlerCall run.settings run.workspace here]))
    (fun calls _ honly => congrArg (· ++ _) honly) fun result => ?_
  refine .thenRefuse hpartly' ?_
  refine .thenQuiet (findPayload_keeps _) hpartly' fun payload _ => ?_
  split
  · exact .pure fun _ _ honly => ⟨rfl, honly⟩
  · exact .throw hpartly'

end

/-- A package is unpacked if it is a bundle. -/
theorem inspect_leads {made : List ToolCall} {partly : List ToolCall → Prop} (hmade : partly made)
    (bundled : Bool) (hcalled : bundled = true →
      partly (made ++ [CallPlan.bundlerCall run.settings run.workspace here])) :
    Action.Leads host
      (fun world => Tallies run here (only made) world ∧
        (bundled = true ↔ IsBundle world.files (CallPlan.primary run.workspace run.side).path))
      (inspect run.settings.javaBin run.settings.timeout run.workspace
        (CallPlan.primary run.workspace run.side))
      (fun payload => Tallies run here fun calls _ => payload.1.space = officialNamespace ∧
        calls = made ++
          if bundled then [CallPlan.bundlerCall run.settings run.workspace here] else [])
      (Tallies run here fun calls _ => partly calls) := by
  unfold inspect
  have hlook : Action.Leads host
      (fun world => Tallies run here (only made) world ∧
        (bundled = true ↔ IsBundle world.files (CallPlan.primary run.workspace run.side).path))
      (isBundled (CallPlan.primary run.workspace run.side).path)
      (fun found world => found = bundled ∧ Tallies run here (only made) world)
      (Tallies run here fun calls _ => partly calls) := by
    constructor
    · intro world after found hworld heval
      obtain ⟨result, hlooked, hresult⟩ := isBundled_spec host _ world
      obtain ⟨rfl, rfl⟩ := Prod.mk.inj (hlooked.symm.trans heval)
      exact ⟨Bool.eq_iff_iff.mpr ((hresult found rfl).trans hworld.2.symm), hworld.1⟩
    · intro world after fault hworld heval
      obtain ⟨result, hlooked, -⟩ := isBundled_spec host _ world
      obtain ⟨-, rfl⟩ := Prod.mk.inj (hlooked.symm.trans heval)
      exact hworld.1.weaken (only_partly hmade)
  refine hlook.bind fun found => .known ?_
  rintro rfl
  cases found with
  | false =>
    exact Tallied.pure fun _ _ honly => ⟨rfl, honly.trans (List.append_nil made).symm⟩
  | true =>
    exact (unpack_tallied hmade (hcalled rfl)).bind fun payload =>
      .pure fun _ _ hcalls => hcalls

end Package

/-! ### Passes -/

namespace Remapper

variable (remapper : Remapper) {made : List ToolCall} {rest : RunState → Prop}
  {partly : List ToolCall → Prop}

theorem pass_tallied (artifact : Artifact) (set : MappingSet) (hmade : partly made)
    (hcalled : partly (made ++ [CallPlan.passCall remapper run.workspace artifact set])) :
    Tallied host here run (fun calls state => calls = made ∧ rest state)
      (remapper.pass run.workspace artifact set)
      (fun output calls state => output.1 = CallPlan.passed run.workspace set ∧
        calls = made ++ [CallPlan.passCall remapper run.workspace artifact set] ∧ rest state)
      partly := by
  have hpartly : ∀ calls (state : RunState), calls = made ∧ rest state → partly calls :=
    fun _ _ hcalls => hcalls.1 ▸ hmade
  have hpartly' : ∀ calls (state : RunState),
      calls = made ++ [CallPlan.passCall remapper run.workspace artifact set] ∧ rest state →
        partly calls :=
    fun _ _ hcalls => hcalls.1 ▸ hcalled
  unfold pass
  refine .thenQuiet (.ofOrdinary (checkSource_ordinary artifact set)) hpartly fun _ _ => ?_
  refine .thenQuiet (clearOutput_keeps artifact set (quiet_files _) (quiet_files _)) hpartly
    fun _ _ => ?_
  refine .thenCall (fun calls state =>
      calls = made ++ [CallPlan.passCall remapper run.workspace artifact set] ∧ rest state)
    (fun calls state hcalls => ⟨congrArg (· ++ _) hcalls.1, hcalls.2⟩) fun result => ?_
  refine .thenRefuse hpartly' ?_
  refine .thenQuiet (isFile_keeps _) hpartly' fun written _ => ?_
  refine .thenRefuse hpartly' ?_
  exact .pure fun _ _ hcalls => ⟨rfl, hcalls⟩

/-- The passes one after the other. A chain that breaks off has made the first of its calls. -/
theorem chain_tallied {α : Type} {onPass : MappingSet → Artifact → ToolResult → Action α}
    (honPass : ∀ set output result,
      (onPass set output result).Keeps (quietly host here run) any)
    (artifact : Artifact) (sets : List MappingSet)
    (hpartly : ∀ calls, calls <+: CallPlan.passCalls remapper run.workspace artifact sets →
      partly (made ++ calls)) :
    Tallied host here run (fun calls state => calls = made ∧ rest state)
      (remapper.chain run.workspace onPass artifact sets)
      (fun passes calls state =>
        passes.map (·.1) = sets.map (CallPlan.passed run.workspace) ∧
        calls = made ++ CallPlan.passCalls remapper run.workspace artifact sets ∧ rest state)
      partly := by
  induction sets generalizing artifact made with
  | nil => exact .pure fun _ _ hcalls => ⟨rfl, by simpa [CallPlan.passCalls] using hcalls⟩
  | cons set sets ih =>
    have hfirst : ∀ calls,
        calls <+: CallPlan.passCalls remapper run.workspace (CallPlan.passed run.workspace set) sets →
          partly (made ++ [CallPlan.passCall remapper run.workspace artifact set] ++ calls) := by
      intro calls hcalls
      rw [List.append_assoc]
      exact hpartly _ ((List.prefix_append_right_inj _).mpr hcalls)
    have hcalled := hfirst [] List.nil_prefix
    rw [List.append_nil] at hcalled
    unfold chain
    refine (pass_tallied remapper artifact set
      (by simpa using hpartly [] List.nil_prefix) hcalled).bind fun output => ?_
    obtain ⟨output, result⟩ := output
    refine .known ?_
    rintro rfl
    refine .thenQuiet (honPass _ _ _)
      (fun calls state hcalls => hcalls.1 ▸ hcalled) fun noted _ => ?_
    refine (ih (CallPlan.passed run.workspace set) hfirst).bind fun passes => .pure ?_
    rintro calls state ⟨hpasses, hcalls, hrest⟩
    refine ⟨congrArg (CallPlan.passed run.workspace set :: ·) hpasses, ?_, hrest⟩
    rw [hcalls, List.append_assoc]
    rfl

end Remapper

/-! ### The stages that call tools -/

namespace Stage

theorem unpack_leads {made : List ToolCall} {partly : List ToolCall → Prop}
    (hmade : partly made) (bundled : Bool) (hcalled : bundled = true →
      partly (made ++ [CallPlan.bundlerCall run.settings run.workspace here])) :
    Action.Leads host
      (fun world => Tallies run here (only made) world ∧
        (bundled = true ↔
          Package.IsBundle world.files (CallPlan.primary run.workspace run.side).path))
      (unpack run)
      (fun _ => Tallies run here (only (made ++
        if bundled then [CallPlan.bundlerCall run.settings run.workspace here] else [])))
      (Tallies run here fun calls _ => partly calls) := by
  have hall : partly (made ++
      if bundled then [CallPlan.bundlerCall run.settings run.workspace here] else []) := by
    cases bundled with
    | false => simpa using hmade
    | true => exact hcalled rfl
  have hpartly := only_partly hall
  unfold unpack
  refine .bind .handed fun state => .given
    (fun world hworld => (hworld.1 ▸ hworld.2.1.handed : Handed run state)) fun hhanded => ?_
  split
  · exact .throw fun world hworld => hworld.2.1.weaken (only_partly hmade)
  rename_i primary hprimary
  obtain rfl := hhanded.primary primary hprimary
  refine ((Package.inspect_leads hmade bundled hcalled).weaken
    (fun world hworld => hworld.2) fun _ _ htallies => htallies).bind fun inspected => ?_
  obtain ⟨payload, found⟩ := inspected
  refine Tallied.known fun hspace => ?_
  refine .thenHand (only _) (fun state hhanded => hhanded.setPayload hspace)
    (fun calls state honly => honly) ?_
  cases found with
  | false => exact .pure fun _ _ honly => honly
  | true =>
    refine .thenQuiet (emit_quietly _ _ _) hpartly fun _ _ => ?_
    refine .thenQuiet (recordArtifact_quietly _ _ _) hpartly fun ref _ => ?_
    exact .pure fun _ _ honly => honly

variable {made : List ToolCall} {partly : List ToolCall → Prop}

theorem remap_tallied (sets : List MappingSet)
    (hpartly : ∀ calls, calls <+: CallPlan.passCalls (remapper run.settings) run.workspace
      (CallPlan.stripped run.workspace run.side) sets → partly (made ++ calls)) :
    Tallied host here run (fun calls state => calls = made ∧ state.mappingSets = sets) (remap run)
      (fun _ calls state =>
        calls = made ++ CallPlan.passCalls (remapper run.settings) run.workspace
          (CallPlan.stripped run.workspace run.side) sets ∧
        state.mapped = some
          (CallPlan.final run.workspace (CallPlan.stripped run.workspace run.side) sets))
      partly := by
  have hnone : ∀ calls (state : RunState),
      calls = made ∧ state.mappingSets = sets → partly calls := by
    rintro _ _ ⟨rfl, -⟩
    simpa using hpartly [] List.nil_prefix
  have hall : ∀ calls (state : RunState),
      calls = made ++ CallPlan.passCalls (remapper run.settings) run.workspace
        (CallPlan.stripped run.workspace run.side) sets ∧ state.mappingSets = sets →
      partly calls := by
    rintro _ _ ⟨rfl, -⟩
    exact hpartly _ (List.prefix_refl _)
  unfold remap
  refine .thenHanded fun state calls hhanded _ => ?_
  dsimp only
  split
  · exact .throw hnone
  rename_i stripped hstripped
  obtain rfl := hhanded.stripped stripped hstripped
  refine .thenHanded fun state calls _ hbefore => ?_
  rw [hbefore.2]
  refine (Remapper.chain_tallied _ (fun set output result => ?_) _ sets hpartly).bind
    fun passes => .known fun hpasses => ?_
  · unfold announcePass
    exact (emit_quietly _ _ _).andThen fun _ => recordArtifact_quietly _ _ _
  split
  · exact .throw hall
  rename_i final ref hlast
  have hfinal : sets.getLast?.map (CallPlan.passed run.workspace) = some final := by
    rw [← List.getLast?_map, ← hpasses, List.getLast?_map, hlast]
    rfl
  refine .thenHand _ (fun state hhanded => hhanded.setMapped final)
    (fun calls state hcalls => ⟨hcalls.1, ?_⟩) (.pure fun _ _ hcalls => hcalls)
  rw [CallPlan.final, hfinal, Option.getD_some]

theorem decompile_tallied (mapped : Artifact) (hmade : partly made)
    (hcalled : partly (made ++ [CallPlan.decompilerCall run.settings run.workspace mapped])) :
    Tallied host here run (fun calls state => calls = made ∧ state.mapped = some mapped)
      (decompile run)
      (fun _ calls state =>
        calls = made ++ [CallPlan.decompilerCall run.settings run.workspace mapped] ∧
        state.mapped = some mapped)
      partly := by
  have hnone : ∀ calls (state : RunState),
      calls = made ∧ state.mapped = some mapped → partly calls :=
    fun _ _ hcalls => hcalls.1 ▸ hmade
  have hall : ∀ calls (state : RunState),
      calls = made ++ [CallPlan.decompilerCall run.settings run.workspace mapped] ∧
        state.mapped = some mapped → partly calls :=
    fun _ _ hcalls => hcalls.1 ▸ hcalled
  unfold decompile
  refine .thenHanded fun state calls _ hbefore => ?_
  rw [hbefore.2]
  dsimp only
  unfold Decompiler.decompile
  simp only [bind_assoc, pure_bind]
  refine .thenQuiet (ensureDirectories_keeps (quiet_files _)) hnone fun _ _ => ?_
  refine .thenCall (fun calls state =>
      calls = made ++ [CallPlan.decompilerCall run.settings run.workspace mapped] ∧
        state.mapped = some mapped)
    (fun calls state hcalls => ⟨congrArg (· ++ _) hcalls.1, hcalls.2⟩) fun result => ?_
  refine .thenRefuse hall ?_
  refine .thenHand (fun calls state =>
      calls = made ++ [CallPlan.decompilerCall run.settings run.workspace mapped] ∧
        state.mapped = some mapped)
    (fun state hhanded => hhanded.setSources run.workspace.sourcesDirectory)
    (fun calls state hcalls => hcalls) ?_
  refine .thenQuiet (emit_quietly _ _ _) hall fun _ _ => ?_
  refine .thenQuiet (countFiles_keeps _) hall fun files _ => ?_
  exact .pure fun _ _ hcalls => hcalls

end Stage

end JarRefinery
