import JarRefinery.Proofs.Calls

/-!
# What the stages need

A discipline that allows what the stages ask for is kept by each of them: the network, calls of
tools, the files of the workspace that a stage makes, and that it hands on what it made.
-/

namespace JarRefinery

open Action (any)

/-- Handing on keeps to the discipline as long as what is handed on is of the run. -/
structure Discipline.Hands (d : Discipline) (run : Run) : Prop where
  handed : ∀ world, d.inv world → Handed run world.state
  hand : ∀ change, (∀ state, Handed run state → Handed run (change state)) → d.AllowsHand change

/-- What a pass to an output asks of a discipline. -/
structure Discipline.AllowsPass (d : Discipline) (remapper : Remapper) (workspace : Workspace)
    (set : MappingSet) : Prop where
  made : d.AllowsFiles { made := (Remapper.passOutput workspace set).parent.trail d.here }
  removed : d.AllowsFiles { removed := {(Remapper.passOutput workspace set).normal d.here} }
  call : ∀ artifact, d.AllowsCall (CallPlan.passCall remapper workspace artifact set)

/-- What the stages of a run ask of a discipline, if mapping releases have such versions. -/
structure Discipline.Allowances (d : Discipline) (run : Run) (versions : String → Prop) : Prop
    extends d.Hands run where
  network : d.AllowsNetwork
  log : d.AllowsLog
  calls : ∀ call, d.AllowsCall call
  events : d.AllowsFiles { written := {run.events.path.normal d.here} }
  primary : d.Produces (run.workspace.primary run.side)
  libraries : ∀ rest, run.workspace.LeadsToLibrary d.here rest → d.Produces
    (.ofLocation (run.workspace.librariesDirectory.normal d.here ++ rest))
  unpacked : d.AllowsFiles { made := run.workspace.unpackDirectory.trail d.here }
  stripped : d.Produces (run.workspace.stripped run.side)
  gives : ∀ metaUrl mavenUrl, run.provider = .chained metaUrl mavenUrl →
    MappingProvider.Chained.Gives d versions ⟨metaUrl, mavenUrl, run.maxAttempts⟩
  documents : ∀ path, run.provider.Documents run.workspace run.side versions path →
    d.Produces path
  built : ∀ set, set.name = intermediaryNamespace ∨ set.name = namedNamespace →
    d.AllowsFiles { made := (Remapper.passOutput run.workspace set).parent.trail d.here } ∧
    d.AllowsFiles { removed := {(Remapper.passOutput run.workspace set).normal d.here} }
  sources : d.AllowsFiles { made := run.workspace.sourcesDirectory.trail d.here }

namespace Stage

variable {d : Discipline} {run : Run}

/-! ### Parts that tell of nothing -/

section Parts

section Packages

variable (hunpacked : d.AllowsFiles { made := run.workspace.unpackDirectory.trail d.here })
  (hcall : d.AllowsCall (CallPlan.bundlerCall run.settings run.workspace d.here))
  {gives : Option Path → Prop}
  (hfind : (Package.findPayload run.workspace.unpackDirectory).Keeps d gives)

include hunpacked hcall hfind

/-- The payload is what was found, in the names of the bundle. -/
theorem package_unpack_keeps :
    (Package.unpack run.settings.javaBin run.settings.timeout run.workspace
        (CallPlan.primary run.workspace run.side)).Keeps d
      fun payload => payload.space = officialNamespace ∧ gives (some payload.path) := by
  unfold Package.unpack
  dsimp only
  refine .andThen (ensureDirectories_keeps hunpacked) fun _ => ?_
  refine (resolve_value _).bind fun jar hjar => ?_
  subst hjar
  refine .andThen (Tool.call_keeps hcall) fun result => ?_
  refine .bind (.refuse fun _ => d.ordinary _ rfl) fun _ _ => ?_
  refine hfind.bind fun found hfound => ?_
  cases found with
  | none => exact .throw (d.ordinary _ rfl)
  | some payload => exact .pure ⟨rfl, hfound⟩

theorem package_inspect_keeps :
    (Package.inspect run.settings.javaBin run.settings.timeout run.workspace
        (CallPlan.primary run.workspace run.side)).Keeps d
      fun inspected => inspected.1.space = officialNamespace ∧
        (if inspected.2 then gives (some inspected.1.path)
          else inspected.1 = CallPlan.primary run.workspace run.side) := by
  unfold Package.inspect
  refine (Package.isBundled_keeps _).andThen fun bundled => ?_
  cases bundled with
  | false => exact .pure ⟨rfl, rfl⟩
  | true =>
    exact (package_unpack_keeps hunpacked hcall hfind).bind fun payload hpayload =>
      .pure ⟨hpayload.1, hpayload.2⟩

end Packages

theorem pass_keeps {remapper : Remapper} {artifact : Artifact} {set : MappingSet}
    (hpass : d.AllowsPass remapper run.workspace set) :
    (remapper.pass run.workspace artifact set).Keeps d fun output =>
      output.1 = CallPlan.passed run.workspace set := by
  unfold Remapper.pass
  refine .andThen (.ofOrdinary (Remapper.checkSource_ordinary _ _)) fun _ => ?_
  refine (Remapper.clearOutput_keeps _ _ hpass.made hpass.removed).andThen fun _ => ?_
  refine (Tool.call_keeps (hpass.call artifact)).andThen fun result => ?_
  refine .bind (.refuse fun _ => d.ordinary _ rfl) fun _ _ => ?_
  refine (isFile_keeps _).andThen fun written => ?_
  exact .bind (.refuse fun _ => d.ordinary _ rfl) fun _ _ => .pure rfl

end Parts

/-! ### The stages -/

variable (hhands : d.Hands run)
  (hevents : d.AllowsFiles { written := {run.events.path.normal d.here} })

include hhands

theorem handed_keeps : Run.handed.Keeps d (Handed run) :=
  Run.handed_keeps.weaken fun _ hstate => by
    obtain ⟨world, hinv, rfl⟩ := hstate
    exact hhands.handed world hinv

include hevents

/-- Resolving records nothing. -/
theorem resolve_keeps (hnetwork : d.AllowsNetwork) :
    (resolve run).Keeps d fun output => output.artifacts = [] := by
  unfold resolve
  refine (ReleaseSource.entry_keeps hnetwork _ _).andThen fun entry => ?_
  refine (ReleaseSource.metadata_keeps hnetwork _ _).andThen fun metadata => ?_
  refine (Run.hand_keeps (hhands.hand _ fun state hstate => hstate.setMetadata metadata)).andThen
    fun _ => ?_
  exact (Run.emit_keeps hevents _ _ _).andThen fun _ => .pure rfl

theorem fetch_keeps (hprimary : d.Produces (run.workspace.primary run.side))
    (hlibraries : ∀ rest, run.workspace.LeadsToLibrary d.here rest → ∀ dependency,
      (Release.fetchLibraryTo run.maxAttempts dependency
        (.ofLocation (run.workspace.librariesDirectory.normal d.here ++ rest))).Keeps d any) :
    (fetch run).Keeps d any := by
  unfold fetch
  refine (handed_keeps hhands).bind fun state _ => ?_
  split
  · exact .throw (d.ordinary _ rfl)
  refine (Release.fetchPrimary_keeps _ _ _ _ hprimary).bind fun fetched hfetched => ?_
  refine .bind (.ofResult (fun fault hfault => d.ordinary fault (hfetched.1 fault hfault))
    hfetched.2) fun primary hprimary => ?_
  refine (Run.hand_keeps (hhands.hand _ fun state hstate => hstate.setPrimary hprimary)).andThen
    fun _ => ?_
  refine (Run.recordArtifact_keeps hevents _ _ _).andThen fun ref => ?_
  refine (Release.fetchLibraries_keeps _ _ hlibraries _).andThen fun libraries => ?_
  exact .andThen (.forM fun library _ => announceLibrary_keeps hevents library) fun _ =>
    .pure trivial

theorem unpack_keeps
    (hunpacked : d.AllowsFiles { made := run.workspace.unpackDirectory.trail d.here })
    (hcall : d.AllowsCall (CallPlan.bundlerCall run.settings run.workspace d.here)) :
    (unpack run).Keeps d any := by
  unfold unpack
  refine (handed_keeps hhands).bind fun state hstate => ?_
  split
  · exact .throw (d.ordinary _ rfl)
  rename_i primary hprimary
  obtain rfl := hstate.primary primary hprimary
  refine (package_inspect_keeps hunpacked hcall (Package.findPayload_keeps _)).bind
    fun inspected hinspected => ?_
  refine (Run.hand_keeps (hhands.hand _ fun state hstate => hstate.setPayload hinspected.1)).andThen
    fun _ => ?_
  dsimp only
  split
  · refine (Run.emit_keeps hevents _ _ _).andThen fun _ => ?_
    exact (Run.recordArtifact_keeps hevents _ _ _).andThen fun _ => .pure trivial
  · exact .pure trivial

theorem sanitize_keeps (htarget : d.Produces (run.workspace.stripped run.side)) :
    (sanitize run).Keeps d any := by
  unfold sanitize Strip.artifact
  refine (handed_keeps hhands).bind fun state hstate => ?_
  split
  · exact .throw (d.ordinary _ rfl)
  rename_i payload hpayload
  have hstripped : payload.derive "stripped" (run.workspace.stripped run.side) none =
      CallPlan.stripped run.workspace run.side :=
    congrArg (Artifact.mk "stripped" _) (hstate.payload payload hpayload)
  simp only [bind_assoc, pure_bind]
  refine (htarget.strip _).andThen fun counts => ?_
  refine (Run.hand_keeps (hhands.hand _ fun state hstate => hstate.setStripped hstripped)).andThen
    fun _ => ?_
  exact (Run.recordArtifact_keeps hevents _ _ _).andThen fun _ => .pure trivial

theorem mappings_keeps {versions : String → Prop}
    (hdocuments : ∀ path, run.provider.Documents run.workspace run.side versions path →
      d.Produces path)
    (hgives : ∀ metaUrl mavenUrl, run.provider = .chained metaUrl mavenUrl →
      MappingProvider.Chained.Gives d versions ⟨metaUrl, mavenUrl, run.maxAttempts⟩)
    (hfixed : ∀ word sets, run.provider ≠ .fixed word sets) :
    (mappings run).Keeps d any := by
  unfold mappings
  refine (handed_keeps hhands).bind fun state hstate => ?_
  split
  · exact .throw (d.ordinary _ rfl)
  rename_i stripped hstripped
  rw [show stripped.space = officialNamespace from
    congrArg Artifact.space (hstate.stripped stripped hstripped), ← bind_assoc]
  refine (normalizedChain_keeps hdocuments hevents hgives hfixed fun world hinv artifact hartifact =>
      congrArg Artifact.space ((hhands.handed world hinv).stripped artifact hartifact)).bind
    fun sets hchain => ?_
  refine (Run.hand_keeps (hhands.hand _ fun state hstate => hstate.setSets hchain)).andThen
    fun _ => ?_
  refine (Run.emit_keeps hevents _ _ _).andThen fun _ => ?_
  exact .andThen (Action.Keeps.mapM fun set _ =>
    Run.recordArtifact_keeps hevents _ _ _).anyway fun artifacts => .pure trivial

omit hhands in
theorem announcePass_keeps (set : MappingSet) (output : Artifact) (result : ToolResult) :
    (announcePass run set output result).Keeps d any := by
  unfold announcePass
  exact (Run.emit_keeps hevents _ _ _).andThen fun _ => Run.recordArtifact_keeps hevents _ _ _

omit hhands in
theorem chain_keeps {remapper : Remapper} (artifact : Artifact) {sets : List MappingSet}
    (hpasses : ∀ set ∈ sets, d.AllowsPass remapper run.workspace set) :
    (remapper.chain run.workspace (announcePass run) artifact sets).Keeps d any := by
  induction sets generalizing artifact with
  | nil => exact .pure trivial
  | cons set rest ih =>
    unfold Remapper.chain
    refine (pass_keeps (hpasses set List.mem_cons_self)).anyway.andThen fun output => ?_
    refine (announcePass_keeps hevents _ _ _).andThen fun ref => ?_
    exact (ih output.1 fun set hset => hpasses set (List.mem_cons_of_mem _ hset)).andThen
      fun passes => .pure trivial

theorem remap_keeps
    (hpasses : ∀ set, set.name = intermediaryNamespace ∨ set.name = namedNamespace →
      d.AllowsPass (remapper run.settings) run.workspace set) : (remap run).Keeps d any := by
  unfold remap
  refine (handed_keeps hhands).bind fun state _ => ?_
  dsimp only
  split
  · exact .throw (d.ordinary _ rfl)
  refine (handed_keeps hhands).bind fun state hstate => ?_
  have hsets : ∀ set ∈ state.mappingSets,
      set.name = intermediaryNamespace ∨ set.name = namedNamespace := by
    intro set hset
    rcases hstate.sets with hnil | hchain
    · simp [hnil] at hset
    · exact hchain.name_eq hset
  refine (chain_keeps hevents _ fun set hset => hpasses set (hsets set hset)).andThen
    fun passes => ?_
  split
  · exact .throw (d.ordinary _ rfl)
  · rename_i final ref _
    exact (Run.hand_keeps (hhands.hand _ fun state hstate => hstate.setMapped final)).andThen
      fun _ => .pure trivial

/-- Decompiling records nothing. -/
theorem decompile_keeps
    (hsources : d.AllowsFiles { made := run.workspace.sourcesDirectory.trail d.here })
    (hcall : ∀ artifact,
      d.AllowsCall (CallPlan.decompilerCall run.settings run.workspace artifact)) :
    (decompile run).Keeps d fun output => output.artifacts = [] := by
  unfold decompile Decompiler.decompile
  refine (handed_keeps hhands).bind fun state _ => ?_
  split
  · exact .throw (d.ordinary _ rfl)
  rename_i mapped _
  simp only [bind_assoc, pure_bind]
  refine (ensureDirectories_keeps hsources).andThen fun _ => ?_
  refine (Tool.call_keeps (hcall mapped)).andThen fun result => ?_
  refine .bind (.refuse fun _ => d.ordinary _ rfl) fun _ _ => ?_
  refine (Run.hand_keeps (hhands.hand _ fun state hstate => hstate.setSources _)).andThen
    fun _ => ?_
  refine (Run.emit_keeps hevents _ _ _).andThen fun _ => ?_
  exact (countFiles_keeps _).andThen fun files => .pure rfl

omit hhands hevents in
/-- Every stage keeps to a discipline that allows what stages need. -/
theorem perform_keeps {versions : String → Prop} (hallows : d.Allowances run versions)
    (hfixed : ∀ word sets, run.provider ≠ .fixed word sets) {stage : Stage}
    (hstage : stage ∈ all) : (stage.perform run).Keeps d any := by
  simp only [all, List.mem_cons, List.not_mem_nil, or_false] at hstage
  rcases hstage with rfl | rfl | rfl | rfl | rfl | rfl | rfl
  · exact (resolve_keeps hallows.toHands hallows.events hallows.network).anyway
  · exact fetch_keeps hallows.toHands hallows.events hallows.primary fun rest hrest dependency =>
      Release.fetchLibraryTo_keeps _ dependency (hallows.libraries rest hrest)
  · exact unpack_keeps hallows.toHands hallows.events hallows.unpacked (hallows.calls _)
  · exact sanitize_keeps hallows.toHands hallows.events hallows.stripped
  · exact mappings_keeps hallows.toHands hallows.events hallows.documents hallows.gives hfixed
  · exact remap_keeps hallows.toHands hallows.events fun set hset =>
      ⟨(hallows.built set hset).1, (hallows.built set hset).2, fun _ => hallows.calls _⟩
  · exact (decompile_keeps hallows.toHands hallows.events hallows.sources
      fun _ => hallows.calls _).anyway

end Stage

end JarRefinery
