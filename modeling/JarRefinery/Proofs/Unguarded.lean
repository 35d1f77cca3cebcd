import JarRefinery.Proofs.Guards
import JarRefinery.Proofs.MappingFaults

/-!
# No stage fails by a guard

The stages come one after the other, so each finds what it needs. Providers come to chains, every file
that is made has a place of its own, and no version that is listed makes two of the places one.
-/

namespace JarRefinery

open Action (any Ends)
open Stage (IsGuard not_isGuard_of_kind not_isGuard_of_letter not_isGuard_of_text not_isGuard_ofFile)

-- what an action yields need not be opened to see that its parts yield something
attribute [local irreducible] Action.Yields

theorem Action.Ends.bind {α β : Type} {host : Host} {world : World} {action : Action α}
    {next : α → Action β} {post : α → Prop} {last : β → Prop} {sort : Fault → Prop}
    (haction : Ends post sort (action.eval host world).1)
    (hnext : ∀ value, post value → (next value).Yields host last sort) :
    Ends last sort ((action >>= next).eval host world).1 := by
  rw [Action.eval_bind]
  rcases heval : action.eval host world with ⟨fault | value, after⟩ <;> rw [heval] at haction
  · cases haction with | error hfault => exact .error hfault
  · cases haction with | ok hpost => exact (hnext value hpost).ends

/-! ### Providing -/

namespace MappingProvider

open Chained

variable {host : Host} {run : Run} (hnetwork : Http.FailsWith host (¬IsGuard ·))

/-- The sets are a chain from the namespace, and none that needs a header is in its way. -/
structure Linked (space : String) (sets : List MappingSet) : Prop where
  chain : MappingSet.checkChain sets space = .ok ()
  apart : ∀ set ∈ sets, set.needsHeader = true → set.path.Apart (headedPath set.path)

theorem unavailable_not_isGuard {text : String} (letter : Char)
    (hletter : text.toList.head? = some letter)
    (hother : ¬Stage.IsGuardLetter .mappingUnavailable letter) :
    ¬IsGuard (.of .mappingUnavailable text) :=
  not_isGuard_of_text letter hletter rfl hother

/-- What is told of as a failure to get mappings begins with other words. -/
theorem explained_unguarded {α : Type} {action : Action α} {answers : Fault → Bool}
    {text : Fault → String} {post : α → Prop} (haction : action.Yields host post (¬IsGuard ·))
    (letter : Char) (hletter : ∀ fault, (text fault).toList.head? = some letter)
    (hother : ¬Stage.IsGuardLetter .mappingUnavailable letter) :
    (action.explain answers fun fault => .of .mappingUnavailable (text fault)).Yields host post
      (¬IsGuard ·) :=
  haction.explain fun fault =>
    Stage.not_isGuard_because (unavailable_not_isGuard letter (hletter fault) hother) fault

theorem fileUrl_unguarded (chained : Chained) (coordinate classifier extension : String) :
    (Action.ofResult (chained.fileUrl coordinate classifier extension)).Yields host any
      (¬IsGuard ·) := by
  refine .ofExcept (fun _ _ => trivial) fun fault hurl => ?_
  have hparse := fileUrl_error hurl
  unfold Coordinate.parse at hparse
  split at hparse
  · cases hparse
  · obtain rfl := Except.error.inj hparse
    exact not_isGuard_of_text 'N' (by simp) rfl (by decide)

/-- Of a chain of a compressed document the header is written beside it. -/
theorem apart_headedPath (workspace : Workspace) (version : String) :
    (decompressedPath workspace version).Apart (headedPath (decompressedPath workspace version)) := by
  obtain ⟨front, rest, hparts⟩ := parts_decompressedPath workspace version
  generalize decompressedPath workspace version = path at hparts
  have hname : path.name = rest ++ ".tiny" := Path.name_of_parts hparts
  have hplain : path.EndsIn (rest ++ ".tiny") :=
    Path.endsIn_of_parts hparts (Path.named_of_mem (c := 'y') (by simp) (by decide)).2
  have hheaded : (headedPath path).EndsIn (path.stem ++ "-normalized" ++ path.suffix) :=
    Path.endsIn_of_parts rfl (Path.named_of_mem (c := 'z') (by simp) (by decide)).2
  refine hplain.apart hheaded fun heq => ?_
  have hlength := congrArg String.length (heq.symm.trans (hname.symm.trans path.stem_append_suffix.symm))
  simp only [String.length_append] at hlength
  have hpositive : 0 < "-normalized".length := by decide
  omega

include hnetwork

theorem releases_unguarded (chained : Chained) (layer version : String) {doing : String}
    (letter : Char) (hletter : doing.toList.head? = some letter)
    (hother : ¬Stage.IsGuardLetter .mappingUnavailable letter) :
    (chained.releases layer version doing).Yields host any (¬IsGuard ·) := by
  have hlist : ∀ {json : Json} {url : String} {fault : Fault},
      MappingRelease.ofList url json = .error fault → ¬IsGuard fault := by
    intro json url fault hlist
    rcases ofList_error hlist with ⟨violations, rfl⟩ | rfl
    · exact not_isGuard_of_kind .validationError rfl (by decide)
    · exact not_isGuard_of_text 'E' (by simp) rfl (by decide)
  unfold releases MappingRelease.fetchAll
  refine explained_unguarded (.andThen (.handle (Http.getJson_unguarded hnetwork _ _)
    (fun _ _ => .pure trivial) fun _ _ hfault => hfault) fun json =>
      .ofExcept (fun _ _ => trivial) fun _ => hlist) letter (fun fault => ?_) hother
  rw [String.toList_append, String.toList_append, List.append_assoc, List.head?_append, hletter]
  rfl

theorem provideDirect_unguarded (metadata : VersionMetadata) (stripped : Artifact) :
    (provideDirect run metadata stripped).Yields host (Linked stripped.space) (¬IsGuard ·) := by
  unfold provideDirect
  split
  · exact .throw (unavailable_not_isGuard 'V' (by simp) (by decide))
  refine .andThen (explained_unguarded (Http.download_unguarded hnetwork _ _ _) 'C' (by simp)
    (by decide)) fun length => .pure ?_
  exact ⟨checkChain_single rfl, by simp⟩

namespace Chained

variable (chained : Chained)

theorem intermediaryRelease_unguarded (version : String) :
    (chained.intermediaryRelease version).Yields host any (¬IsGuard ·) := by
  unfold intermediaryRelease
  refine (releases_unguarded hnetwork chained _ _ 'C' (by simp) (by decide)).andThen fun releases => ?_
  split
  · exact .pure trivial
  · exact .throw (unavailable_not_isGuard 'N' (by simp) (by decide))

/-- A download whose failure is looked at afterwards. -/
theorem loaded_unguarded (maxAttempts : Int) (url : String) (target : Path) :
    (Action.handle (·.isA .httpFetchError) (fun fault => pure (.error fault))
      (Except.ok <$> Http.download maxAttempts url target)).Yields host any (¬IsGuard ·) :=
  .handle (.map (Http.download_unguarded hnetwork _ _ _)) (fun _ _ => .pure trivial)
    fun _ _ hfault => hfault

theorem fetchIntermediary_unguarded (release : MappingRelease) (workspace : Workspace)
    (space : String) : (chained.fetchIntermediary release workspace space).Yields host
      (fun set => set.source = space ∧ set.target = intermediaryNamespace ∧ set.needsHeader = false)
      (¬IsGuard ·) := by
  unfold fetchIntermediary
  refine (fileUrl_unguarded chained _ _ _).andThen fun url => ?_
  refine (loaded_unguarded hnetwork _ _ _).andThen fun loaded => ?_
  cases loaded with
  | ok length => exact .pure ⟨rfl, rfl, rfl⟩
  | error fault =>
    refine .andThen (.refuse fun _ => Stage.not_isGuard_because
      (unavailable_not_isGuard 'C' (by simp) (by decide)) fault) fun _ => ?_
    refine Action.Yields.andThen ?_ fun _ => .pure ⟨rfl, rfl, rfl⟩
    unfold fetchFromArchive
    refine (fileUrl_unguarded chained _ _ _).andThen fun url => ?_
    refine .andThen (explained_unguarded (Http.download_unguarded hnetwork _ _ _) 'I' (by simp)
      (by decide)) fun length => ?_
    exact (Mapping.extractEntry_unguarded _ _).andThen fun _ => .pure trivial

theorem fetchNamed_unguarded (workspace : Workspace) (version : String) :
    (chained.fetchNamed workspace version).Yields host
      (fun result => ∀ set, result = .ok set → set.source = intermediaryNamespace ∧
        ∃ version, set.path = compressedPath workspace version) (¬IsGuard ·) := by
  unfold fetchNamed
  refine (releases_unguarded hnetwork chained _ _ 'C' (by simp) (by decide)).andThen fun releases => ?_
  split
  · exact .pure (by simp)
  rename_i release _
  refine (fileUrl_unguarded chained _ _ _).andThen fun url => ?_
  refine (loaded_unguarded hnetwork _ _ _).andThen fun loaded => ?_
  cases loaded with
  | ok length =>
    refine .pure ?_
    rintro _ ⟨⟩
    exact ⟨rfl, release.version, rfl⟩
  | error fault =>
    exact .andThen (.refuse fun _ => Stage.not_isGuard_because
      (unavailable_not_isGuard 'C' (by simp) (by decide)) fault) fun _ => .pure (by simp)

omit hnetwork in
theorem decompressed_unguarded (workspace : Workspace) (set : MappingSet) :
    (decompressed workspace set).Yields host
      (· = { set with path := workspace.mapping (plainName set.path.name) }) (¬IsGuard ·) :=
  Mapping.gunzip_unguarded.andThen fun _ => .pure rfl

end Chained

theorem provideChained_unguarded (chained : Chained) (stripped : Artifact) :
    (provideChained chained run stripped).Yields host (Linked stripped.space) (¬IsGuard ·) := by
  unfold provideChained
  refine (intermediaryRelease_unguarded hnetwork chained _).andThen fun release => ?_
  refine (fetchIntermediary_unguarded hnetwork chained _ _ _).bind fun first hfirst => ?_
  obtain ⟨hsource, htarget, hheader⟩ := hfirst
  refine (fetchNamed_unguarded hnetwork chained _ _).bind fun result hresult => ?_
  cases result with
  | error fault =>
    exact (run.emit_unguarded _ _ _).andThen fun _ =>
      .pure ⟨checkChain_single hsource, by simp [hheader]⟩
  | ok second =>
    obtain ⟨hlink, version, hpath⟩ := hresult second rfl
    refine (decompressed_unguarded _ _).bind fun plain hplain => .pure ?_
    obtain rfl := hplain
    refine ⟨checkChain_pair hsource (hlink.trans htarget.symm), fun set hset hneeded => ?_⟩
    rcases List.mem_pair.mp hset with rfl | rfl
    · simp [hheader] at hneeded
    · rw [hpath]
      exact apart_headedPath run.workspace version

/-- What is provided is linked, once metadata and the stripped jar have been handed on. -/
theorem provide_unguarded (hfixed : ∀ word sets, run.provider ≠ .fixed word sets) {world : World}
    {metadata : VersionMetadata} (hmetadata : world.state.metadata = some metadata)
    {stripped : Artifact} (hstripped : world.state.stripped = some stripped) :
    Ends (Linked stripped.space) (¬IsGuard ·) ((provide run).eval host world).1 := by
  unfold provide
  rw [Action.eval_bind_ok (Run.eval_handed host world), hmetadata, hstripped]
  cases hprovider : run.provider with
  | direct => exact (provideDirect_unguarded hnetwork _ _).ends
  | chained metaUrl mavenUrl => exact (provideChained_unguarded hnetwork _ _).ends
  | fixed word sets => exact absurd hprovider (hfixed word sets)

end MappingProvider

/-! ### Passes -/

namespace Remapper

variable {host : Host} {workspace : Workspace}

/-- The sets are passes that go on from the artifact, each from where the one before led and onto
another file. -/
def GoesOn (workspace : Workspace) : Artifact → List MappingSet → Prop
  | _, [] => True
  | artifact, set :: rest => set.source = artifact.space ∧
    artifact.path.Apart (passOutput workspace set) ∧ GoesOn workspace (CallPlan.passed workspace set) rest

theorem pass_unguarded (remapper : Remapper) {artifact : Artifact} {set : MappingSet}
    (hsource : set.source = artifact.space) (hapart : artifact.path.Apart (passOutput workspace set)) :
    (remapper.pass workspace artifact set).Yields host (·.1 = CallPlan.passed workspace set)
      (¬IsGuard ·) := by
  have hfiles : ∀ {α : Type} (operation : FileTree.Action α),
      (Action.onFiles operation).Yields host any (¬IsGuard ·) := fun _ => .onFiles _ not_isGuard_ofFile
  have hlost : ∀ result : ToolResult, ¬IsGuard (.of .remapFailure ("Remapper exited with " ++
      toString result.status ++ " on pass " ++ Text.quote set.name ++ ": " ++ result.shown)) :=
    fun _ => not_isGuard_of_text 'R' (by simp) rfl (by decide)
  unfold pass
  rw [checkSource, if_pos hsource]
  refine .andThen (.ofExcept (fun _ _ => trivial) fun fault hfault => by cases hfault) fun _ => ?_
  refine Action.Yields.andThen ?_ fun _ => ?_
  · unfold clearOutput
    refine .resolving not_isGuard_ofFile fun here => ?_
    refine .andThen (.refuse fun hso => ?_) fun _ => (hfiles _).andThen fun _ => hfiles _
    exact absurd (of_decide_eq_true hso) (hapart.symm.ofLocation_ne here)
  refine .andThen (.faultless fun _ => ⟨_, rfl⟩) fun result => ?_
  refine .andThen (.refuse fun _ => hlost result) fun _ => (hfiles _).andThen fun written => ?_
  exact .andThen (.refuse fun _ => not_isGuard_of_text 'R' (by simp) rfl (by decide)) fun _ =>
    .pure rfl

theorem chain_unguarded {α : Type} (remapper : Remapper)
    {onPass : MappingSet → Artifact → ToolResult → Action α}
    (honPass : ∀ set output result, (onPass set output result).Yields host any (¬IsGuard ·))
    {artifact : Artifact} {sets : List MappingSet} (hgoes : GoesOn workspace artifact sets) :
    (remapper.chain workspace onPass artifact sets).Yields host (·.length = sets.length)
      (¬IsGuard ·) := by
  induction sets generalizing artifact with
  | nil => exact .pure rfl
  | cons set rest ih =>
    obtain ⟨hsource, hapart, hrest⟩ := hgoes
    unfold chain
    refine (pass_unguarded remapper hsource hapart).bind ?_
    rintro ⟨output, result⟩ rfl
    refine (honPass set _ result).andThen fun noted => ?_
    exact (ih hrest).bind fun others hothers => .pure (by simp [hothers])

/-- A chain goes on from the stripped jar. -/
theorem goesOn_of_chain {side : String} (hside : side ∈ Settings.sides) {provider : MappingProvider}
    {sets : List MappingSet} (hchain : provider.Chain sets) :
    GoesOn workspace (CallPlan.stripped workspace side) sets := by
  have hstripped : (workspace.stripped side).EndsIn (side ++ "-stripped.jar") :=
    (Stage.isDocument_side hside).2.endsIn _
  have hends : ∀ {set : MappingSet},
      set.name = intermediaryNamespace ∨ set.name = namedNamespace →
        (passOutput workspace set).EndsIn (set.name ++ "-mapped." ++ "jar") := fun hname =>
    (Stage.isDocument_mapped hname).endsIn _
  have hother : ∀ side ∈ Settings.sides, ∀ name ∈ [intermediaryNamespace, namedNamespace],
      side ++ "-stripped.jar" ≠ name ++ "-mapped." ++ "jar" := by decide
  cases provider with
  | direct =>
    obtain ⟨set, rfl, hset⟩ := hchain
    refine ⟨hset.source, hstripped.apart (hends (.inr hset.name)) (hother side hside _ ?_), trivial⟩
    simp [hset.name]
  | chained metaUrl mavenUrl =>
    obtain ⟨first, hfirst, hsets⟩ := hchain
    have hapart : (workspace.stripped side).Apart (passOutput workspace first) :=
      hstripped.apart (hends (.inl hfirst.name)) (hother side hside _ (by simp [hfirst.name]))
    rcases hsets with rfl | ⟨second, rfl, hsecond⟩
    · exact ⟨hfirst.source, hapart, trivial⟩
    refine ⟨hfirst.source, hapart, hsecond.source.trans hfirst.target.symm, ?_, trivial⟩
    refine (hends (.inl hfirst.name)).apart (hends (.inr hsecond.name)) ?_
    rw [hfirst.name, hsecond.name]
    decide
  | fixed word sets => exact hchain.elim

end Remapper

/-! ### The stages -/

namespace Stage

variable {host : Host} {run : Run} {world : World}

theorem normalized_unguarded {set : MappingSet}
    (hapart : set.needsHeader = true → set.path.Apart (MappingProvider.headedPath set.path)) :
    (normalized set).Yields host any (¬IsGuard ·) := by
  unfold normalized
  split
  · rename_i hneeded
    exact (Mapping.normalizeFile_unguarded (hapart hneeded) _ _).andThen fun _ => .pure trivial
  · exact .pure trivial

theorem hand_unguarded (change : RunState → RunState) :
    (Run.hand change).Yields host any (¬IsGuard ·) :=
  .faultless fun _ => ⟨_, rfl⟩

theorem announceLibrary_unguarded (library : LibraryFetch) :
    (announceLibrary run library).Yields host any (¬IsGuard ·) := by
  have hmissing : (announceMissing run library).Yields host any (¬IsGuard ·) := by
    unfold announceMissing
    split
    · exact .pure trivial
    · exact run.emit_unguarded _ _ _
  rw [announceLibrary_eq]
  split
  · exact (run.emit_unguarded _ _ _).andThen fun _ => hmissing
  · exact hmissing

theorem remap_unguarded {stripped : Artifact} (hstripped : world.state.stripped = some stripped)
    (hgoes : Remapper.GoesOn run.workspace stripped world.state.mappingSets)
    (hsets : world.state.mappingSets ≠ []) :
    Ends any (¬IsGuard ·) ((remap run).eval host world).1 := by
  unfold remap
  rw [Action.eval_bind_ok (Run.eval_handed host world), hstripped]
  dsimp only
  rw [Action.eval_bind_ok (Run.eval_handed host world)]
  refine Action.Yields.ends (Action.Yields.bind (Remapper.chain_unguarded _ (fun set output result => ?_)
    hgoes) fun passes hpasses => ?_)
  · exact (run.emit_unguarded _ _ _).andThen fun _ => run.recordArtifact_unguarded _ _ _
  split
  · rename_i hnone
    rw [List.getLast?_eq_none_iff.mp hnone] at hpasses
    exact absurd (List.length_eq_zero_iff.mp hpasses.symm) hsets
  · exact (hand_unguarded _).andThen fun _ => .pure trivial

theorem sanitize_unguarded {payload : Artifact} (hpayload : world.state.payload = some payload)
    (hapart : payload.path.Apart (run.workspace.stripped run.side)) :
    Ends any (¬IsGuard ·) ((sanitize run).eval host world).1 := by
  unfold sanitize Strip.artifact
  rw [Action.eval_bind_ok (Run.eval_handed host world), hpayload]
  simp only [bind_assoc, pure_bind]
  refine Action.Yields.ends (.andThen (Strip.strip_unguarded hapart) fun counts => ?_)
  refine (hand_unguarded _).andThen fun _ => ?_
  exact (run.recordArtifact_unguarded _ _ _).andThen fun ref => .pure trivial

theorem unpack_unguarded {primary : Artifact} (hprimary : world.state.primary = some primary) :
    Ends any (¬IsGuard ·) ((unpack run).eval host world).1 := by
  unfold unpack
  rw [Action.eval_bind_ok (Run.eval_handed host world), hprimary]
  refine Action.Yields.ends ((Package.inspect_unguarded _ _ _ _).andThen fun inspected => ?_)
  refine (hand_unguarded _).andThen fun _ => ?_
  dsimp only
  split
  · refine (run.emit_unguarded _ _ _).andThen fun _ => ?_
    exact (run.recordArtifact_unguarded _ _ _).andThen fun ref => .pure trivial
  · exact .pure trivial

theorem decompile_unguarded {mapped : Artifact} (hmapped : world.state.mapped = some mapped) :
    Ends any (¬IsGuard ·) ((decompile run).eval host world).1 := by
  have hfiles : ∀ {α : Type} (operation : FileTree.Action α),
      (Action.onFiles operation).Yields host any (¬IsGuard ·) := fun _ => .onFiles _ not_isGuard_ofFile
  unfold decompile Decompiler.decompile
  rw [Action.eval_bind_ok (Run.eval_handed host world), hmapped]
  simp only [bind_assoc, pure_bind]
  refine Action.Yields.ends ((hfiles _).andThen fun _ => ?_)
  refine .andThen (.faultless fun _ => ⟨_, rfl⟩) fun result => ?_
  refine .andThen (.refuse fun _ => not_isGuard_of_kind .decompileFailure rfl (by decide)) fun _ => ?_
  refine (hand_unguarded _).andThen fun _ => (run.emit_unguarded _ _ _).andThen fun _ => ?_
  unfold countFiles
  simp only [bind_assoc, pure_bind]
  exact (hfiles _).andThen fun location => .andThen (.faultless fun _ => ⟨_, rfl⟩)
    fun found => .pure trivial

/-- While nothing has been handed on, every stage but the first comes to its guard at once. -/
theorem perform_guarded {n : Nat} {stage : Stage} (hstage : all[n]? = some stage) (hlater : n ≠ 0)
    (hstate : world.state = {}) :
    ∃ fault, (stage.perform run).eval host world = (.error fault, world) ∧ IsGuard fault := by
  have hhanded : Run.handed.eval host world = (.ok {}, world) := hstate ▸ Run.eval_handed host world
  have hguarded : ∀ {next : RunState → Action StageOutput} {text : String},
      next {} = throw (.value text) → IsGuard (.value text) →
        ∃ fault, (Run.handed >>= next).eval host world = (.error fault, world) ∧ IsGuard fault := by
    intro next text hnext htext
    rw [Action.eval_bind_ok hhanded, hnext]
    exact ⟨_, rfl, htext⟩
  match n, hstage with
  | 0, _ => exact absurd rfl hlater
  | 1, hstage => cases hstage; exact hguarded rfl (by decide)
  | 2, hstage => cases hstage; exact hguarded rfl (by decide)
  | 3, hstage => cases hstage; exact hguarded rfl (by decide)
  | 4, hstage => cases hstage; exact hguarded rfl (by decide)
  | 5, hstage => cases hstage; exact hguarded rfl (by decide)
  | 6, hstage => cases hstage; exact hguarded rfl (by decide)
  | n + 7, hstage => simp [all] at hstage

section

variable (hnetwork : Http.FailsWith host (¬IsGuard ·))

include hnetwork

theorem resolve_unguarded : (resolve run).Yields host any (¬IsGuard ·) := by
  unfold resolve
  refine (ReleaseSource.entry_unguarded hnetwork _ _).andThen fun entry => ?_
  refine (ReleaseSource.metadata_unguarded hnetwork _ _).andThen fun metadata => ?_
  exact (hand_unguarded _).andThen fun _ => (run.emit_unguarded _ _ _).andThen fun _ => .pure trivial

theorem fetch_unguarded {metadata : VersionMetadata}
    (hmetadata : world.state.metadata = some metadata) :
    Ends any (¬IsGuard ·) ((fetch run).eval host world).1 := by
  unfold fetch
  rw [Action.eval_bind_ok (Run.eval_handed host world), hmetadata]
  refine Action.Yields.ends ((Release.fetchPrimary_unguarded hnetwork _ _ _ _).bind
    fun fetched hfetched => ?_)
  refine .andThen (.ofExcept (fun _ _ => trivial) hfetched) fun primary => ?_
  refine (hand_unguarded _).andThen fun _ => (run.recordArtifact_unguarded _ _ _).andThen fun ref => ?_
  refine .bind (.mapM fun dependency _ => Release.fetchLibrary_unguarded hnetwork _ _ dependency)
    fun libraries _ => ?_
  exact .andThen (.forM fun library => announceLibrary_unguarded library) fun _ => .pure trivial

theorem mappings_unguarded (hfixed : ∀ word sets, run.provider ≠ .fixed word sets)
    {metadata : VersionMetadata} (hmetadata : world.state.metadata = some metadata)
    {stripped : Artifact} (hstripped : world.state.stripped = some stripped) :
    Ends any (¬IsGuard ·) ((mappings run).eval host world).1 := by
  have hchain : Ends (MappingProvider.Linked stripped.space) (¬IsGuard ·)
      ((providedChain run stripped.space).eval host world).1 := by
    refine Ends.bind (MappingProvider.provide_unguarded hnetwork hfixed hmetadata hstripped)
      fun sets hsets => ?_
    rw [hsets.chain]
    exact .andThen (.faultless fun _ => ⟨_, rfl⟩) fun _ => .pure hsets
  unfold mappings
  rw [Action.eval_bind_ok (Run.eval_handed host world), hstripped]
  refine Ends.bind hchain fun sets hsets => ?_
  refine .bind (.mapM fun set hset => normalized_unguarded (hsets.apart set hset)) fun others _ => ?_
  refine (hand_unguarded _).andThen fun _ => (run.emit_unguarded _ _ _).andThen fun _ => ?_
  refine .bind (.mapM fun set _ => run.recordArtifact_unguarded _ _ _) fun artifacts _ => ?_
  exact .pure trivial

end

end Stage

end JarRefinery
