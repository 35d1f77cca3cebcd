import JarRefinery.Proofs.LikeOperations

/-!
# What stages do not see

No stage reads the records of a run, and the stages after the one that fetches libraries go nowhere
below their directory. The stages from the second on do not ask for the version that was wanted either,
unless they look for chained mappings; the first finds the same for a word and for the version it
stands for.
-/

namespace JarRefinery

open Action (any)
open FileTree (IsName)
open MappingRelease (Steady)

variable {l : Likeness}

/-! ### The places of libraries -/

namespace Workspace

variable (workspace : Workspace) (here : Location)

/-- What is below the directory of the libraries, unless the workspace is reached through it. -/
def libraryPlaces : Set Location :=
  { location | workspace.librariesDirectory.normal here <+: location ∧
      location ≠ workspace.librariesDirectory.normal here ∧
      ∀ passed ∈ workspace.root.trail here, ¬location <+: passed }

variable {workspace here}

theorem libraryPlaces_closed {above location : Location} (habove : above ∈ workspace.libraryPlaces here)
    (hbeyond : above <+: location) : location ∈ workspace.libraryPlaces here := by
  obtain ⟨hbelow, hne, hpassed⟩ := habove
  refine ⟨hbelow.trans hbeyond, ?_, fun passed htrail hlocation =>
    hpassed passed htrail (hbeyond.trans hlocation)⟩
  rintro rfl
  exact hne (hbeyond.eq_of_length_le hbelow.length_le)

theorem notMem_libraryPlaces_of_trail {location : Location}
    (hlocation : location ∈ workspace.root.trail here) : location ∉ workspace.libraryPlaces here :=
  fun ⟨_, _, hpassed⟩ => hpassed location hlocation List.prefix_rfl

theorem notMem_libraryPlaces {name : String} {rest : List String}
    (hname : rest ≠ [] → name ≠ "libraries") :
    workspace.root.normal here ++ name :: rest ∉ workspace.libraryPlaces here := by
  rintro ⟨hbelow, hne, -⟩
  have hlibraries : workspace.librariesDirectory.normal here =
      workspace.root.normal here ++ ["libraries"] := isName_libraries.normal_div here
  rw [hlibraries] at hbelow hne
  have hsame : "libraries" = name :=
    (List.cons_prefix_cons.mp ((List.prefix_append_right_inj _).mp hbelow)).1
  rcases List.eq_nil_or_concat rest with rfl | ⟨front, last, rfl⟩
  · exact hne (by rw [hsame])
  · exact hname (by simp) hsame.symm

end Workspace

namespace Likeness

/-- Another directory of the workspace than that of the libraries is seen. -/
theorem exposes_div {workspace : Workspace} (hgone : l.gone ⊆ workspace.libraryPlaces l.here)
    {name : String} (hname : IsName name) (hother : name ≠ "libraries") :
    l.Exposes (workspace.root / name) where
  clear := by
    intro location hlocation hmem
    rcases Path.mem_trail_div hname hlocation with htrail | rfl
    · exact Workspace.notMem_libraryPlaces_of_trail htrail (hgone hmem)
    · exact Workspace.notMem_libraryPlaces (fun hnil => absurd rfl hnil) (hgone hmem)
  below := by
    intro rest hmem
    rw [hname.normal_div, List.append_assoc] at hmem
    exact Workspace.notMem_libraryPlaces (fun _ => hother) (hgone hmem)

/-- All that the stages of the run have to do with is seen, but for libraries. -/
structure Covers (l : Likeness) (run : Run) : Prop where
  side : run.side ∈ Settings.sides
  gone : l.gone ⊆ run.workspace.libraryPlaces l.here
  events : l.Clear run.events.path
  report : l.Clear (Pipeline.reportPath run.workspace run.id)

theorem sees_div {path : Path} {name : String} (hname : IsName name)
    (hother : name ∉ recordNames) : l.Sees (path / name) := by
  refine sees_of_endsIn (fun here => ?_) hother
  rw [hname.normal_div]
  exact List.getLast?_concat

theorem side_notMem {side : String} (hside : side ∈ Settings.sides) :
    side ++ ".jar" ∉ recordNames ∧ side ++ "-stripped.jar" ∉ recordNames ∧
      side ++ "-" ++ officialNamespace ++ "-" ++ namedNamespace ++ ".txt" ∉ recordNames := by
  have hcases : side = "server" ∨ side = "client" := by simpa [Settings.sides] using hside
  rcases hcases with rfl | rfl <;> decide

theorem side_ne_libraries {side : String} (hside : side ∈ Settings.sides) :
    side ++ ".jar" ≠ "libraries" ∧ side ++ "-stripped.jar" ≠ "libraries" := by
  have hcases : side = "server" ∨ side = "client" := by simpa [Settings.sides] using hside
  rcases hcases with rfl | rfl <;> decide

namespace Covers

variable {run : Run}

/-- Where nothing is gone, all but the records is seen. -/
theorem of_none (hnone : l.gone = ∅) (hside : run.side ∈ Settings.sides) : l.Covers run := by
  have hclear : ∀ path, l.Clear path := fun _ _ _ => by simp [hnone]
  exact ⟨hside, by simp [hnone], hclear _, hclear _⟩

variable (hcovers : l.Covers run)

include hcovers

theorem exposes {name : String} (hname : IsName name) (hother : name ≠ "libraries") :
    l.Exposes (run.workspace.root / name) :=
  exposes_div hcovers.gone hname hother

theorem takes {name : String} (hname : IsName name) (hother : name ≠ "libraries") :
    l.Takes (run.workspace.root / name) where
  clear := (hcovers.exposes hname hother).clear
  beside := fun beside hgone => by
    rw [hname.parent_div] at hgone
    exact Workspace.notMem_libraryPlaces (fun hnil => absurd rfl hnil) (hcovers.gone hgone)

theorem directory : l.Clear (Pipeline.runDirectory run.workspace run.id) := by
  have hparent : (Pipeline.reportPath run.workspace run.id).parent =
      Pipeline.runDirectory run.workspace run.id := Pipeline.isName_report.parent_div
  exact hparent ▸ hcovers.report.parent

theorem sees_primary : l.Sees (run.workspace.primary run.side) :=
  sees_div (Pipeline.isName_side hcovers.side).1 (side_notMem hcovers.side).1

theorem sees_stripped : l.Sees (run.workspace.stripped run.side) :=
  sees_div (Pipeline.isName_side hcovers.side).2.1 (side_notMem hcovers.side).2.1

theorem takes_primary : l.Takes (run.workspace.primary run.side) :=
  hcovers.takes (Pipeline.isName_side hcovers.side).1 (side_ne_libraries hcovers.side).1

theorem takes_stripped : l.Takes (run.workspace.stripped run.side) :=
  hcovers.takes (Pipeline.isName_side hcovers.side).2.1 (side_ne_libraries hcovers.side).2

theorem exposes_unpacked : l.Exposes run.workspace.unpackDirectory :=
  hcovers.exposes ⟨by decide, by decide, by decide, by decide⟩ (by decide)

theorem exposes_sources : l.Exposes run.workspace.sourcesDirectory :=
  hcovers.exposes ⟨by decide, by decide, by decide, by decide⟩ (by decide)

theorem takes_passOutput {set : MappingSet}
    (hname : set.name = intermediaryNamespace ∨ set.name = namedNamespace) :
    l.Takes (Remapper.passOutput run.workspace set) :=
  (hcovers.exposes ⟨by decide, by decide, by decide, by decide⟩ (by decide)).takes
    ((Path.Within.refl _).below_div (Pipeline.isName_passOutput hname).1)

/-- The documents of the mappings are seen if versions have no step back. -/
theorem documents (hfixed : ∀ word sets, run.provider ≠ .fixed word sets) {path : Path}
    (hpath : run.provider.Documents run.workspace run.side Steady path) :
    l.Sees path ∧ l.Takes path := by
  have hmappings : l.Exposes run.workspace.mappingsDirectory :=
    hcovers.exposes Workspace.isName_mappings (by decide)
  have hdirect := (Pipeline.isName_side hcovers.side).2.2
  generalize run.provider = provider at hpath hfixed
  cases provider with
  | direct =>
    rw [show path = _ from hpath]
    exact ⟨sees_div hdirect (side_notMem hcovers.side).2.2,
      hmappings.takes ((Path.Within.refl _).below_div hdirect)⟩
  | chained metaUrl mavenUrl =>
    obtain ⟨version, hsteady, hdocument⟩ := hpath
    refine ⟨?_, hmappings.takes (hdocument.below run.workspace hsteady)⟩
    obtain ⟨name, hends, c, hletter, hmem⟩ := hdocument.endsIn
    refine sees_of_endsIn hends fun hrecord => ?_
    simp only [recordNames, List.mem_cons, List.not_mem_nil, or_false] at hletter hrecord
    rcases hrecord with rfl | rfl <;> rcases hletter with rfl | rfl | rfl <;>
      exact absurd hmem (by decide)
  | fixed word sets => exact absurd rfl (hfixed word sets)

end Covers

theorem sees_passOutput (workspace : Workspace) {set : MappingSet}
    (hname : set.name = intermediaryNamespace ∨ set.name = namedNamespace) :
    l.Sees (Remapper.passOutput workspace set) := by
  refine sees_div (Pipeline.isName_passOutput hname).1 ?_
  rcases hname with hname | hname <;> rw [hname] <;> decide

/-- A mapping set whose document is seen, and what the document is to become too. -/
structure Presents (l : Likeness) (set : MappingSet) : Prop where
  name : set.name = intermediaryNamespace ∨ set.name = namedNamespace
  sees : l.Sees set.path
  clear : l.Clear set.path
  headed : set.needsHeader = true → l.Sees (MappingProvider.headedPath set.path) ∧
    l.Takes (MappingProvider.headedPath set.path)

/-! ### What is handed on is seen -/

namespace Legible

variable {state : RunState} (hlegible : l.Legible state)

theorem empty : l.Legible {} :=
  ⟨by simp, by simp, by simp, by simp⟩

include hlegible

theorem setMetadata (metadata : VersionMetadata) :
    l.Legible { state with metadata := some metadata } :=
  ⟨hlegible.primary, hlegible.payload, hlegible.stripped, hlegible.sets⟩

theorem setPrimary {primary : Artifact} (hshows : l.Shows primary) :
    l.Legible { state with primary := some primary } :=
  ⟨by rintro _ ⟨⟩; exact hshows, hlegible.payload, hlegible.stripped, hlegible.sets⟩

theorem setPayload {payload : Artifact} (hshows : l.Shows payload) :
    l.Legible { state with payload := some payload } :=
  ⟨hlegible.primary, by rintro _ ⟨⟩; exact hshows, hlegible.stripped, hlegible.sets⟩

theorem setStripped {stripped : Artifact} (hspace : stripped.space = officialNamespace) :
    l.Legible { state with stripped := some stripped } :=
  ⟨hlegible.primary, hlegible.payload, by rintro _ ⟨⟩; exact hspace, hlegible.sets⟩

theorem setSets {sets : List MappingSet}
    (hsets : ∀ set ∈ sets, set.name = intermediaryNamespace ∨ set.name = namedNamespace) :
    l.Legible { state with mappingSets := sets } :=
  ⟨hlegible.primary, hlegible.payload, hlegible.stripped, hsets⟩

theorem setMapped (mapped : Artifact) : l.Legible { state with mapped := some mapped } :=
  ⟨hlegible.primary, hlegible.payload, hlegible.stripped, hlegible.sets⟩

theorem setSources (directory : Path) :
    l.Legible { state with sourcesDirectory := some directory } :=
  ⟨hlegible.primary, hlegible.payload, hlegible.stripped, hlegible.sets⟩

end Legible

end Likeness

/-! ### Stages -/

namespace Stage

variable {run : Run}

/-- What the stage that fetches does before it turns to the libraries. -/
def fetchJar (run : Run) (metadata : VersionMetadata) : Action ArtifactRef := do
  let fetched ← Release.fetchPrimary run.maxAttempts metadata run.side run.workspace
  let primary ← Action.ofResult fetched
  Run.hand ({ · with primary := some primary })
  run.recordArtifact "fetch" jarType primary.path

/-- What it does once the libraries have been fetched. -/
def tellLibraries (run : Run) (ref : ArtifactRef) (libraries : List LibraryFetch) :
    Action StageOutput := do
  libraries.forM (announceLibrary run)
  pure { outputs := [("primary", .text ref.path)], metrics := libraryCounts libraries,
         warnings := libraries.filterMap (·.warning), artifacts := [ref] }

theorem fetch_eq (run : Run) : fetch run = (do
    match (← Run.handed).metadata with
    | none => throw (.value "stage_fetch requires resolved version metadata")
    | some metadata =>
      let ref ← fetchJar run metadata
      let libraries ←
        Release.fetchLibraries run.maxAttempts run.workspace metadata.dependencies
      tellLibraries run ref libraries) := by
  unfold fetch fetchJar tellLibraries
  refine congrArg (Run.handed >>= ·) (funext fun state => ?_)
  cases state.metadata with
  | none => rfl
  | some metadata => simp only [bind_assoc]

section Covered

variable (hcovers : l.Covers run)

include hcovers

theorem resolve_blind : (resolve run).Blind l any := by
  unfold resolve
  refine (ReleaseSource.entry_blind (source run) _).andThen fun entry => ?_
  refine (ReleaseSource.metadata_blind (source run) entry).andThen fun metadata => ?_
  refine (Run.hand_blind fun state hlegible => hlegible.setMetadata metadata).andThen fun _ => ?_
  exact (Run.emit_blind hcovers.events _ _ _).andThen fun _ => .pure trivial

/-- The first stage finds the same for a word and for the version that it stands for. -/
theorem resolve_matches {word : String}
    (hdeclares : ∀ world manifest, ((source run).manifest.eval l.host world).1 = .ok manifest →
      manifest.Declares word run.version) :
    (resolve { run with version := word }).Matches l (resolve run) any := by
  refine (ReleaseSource.entry_matches hdeclares).andThen fun entry => ?_
  refine (ReleaseSource.metadata_blind (source run) entry).andThen fun metadata => ?_
  refine (Run.hand_blind fun state hlegible => hlegible.setMetadata metadata).andThen fun _ => ?_
  exact (Run.emit_blind hcovers.events _ _ _).andThen fun _ => .pure trivial

theorem announceLibrary_blind (library : LibraryFetch) :
    (announceLibrary run library).Blind l any := by
  have hmissing : (announceMissing run library).Blind l any := by
    unfold announceMissing
    split
    · exact .pure trivial
    · exact Run.emit_blind hcovers.events _ _ _
  rw [announceLibrary_eq]
  split
  · exact (Run.emit_blind hcovers.events _ _ _).andThen fun _ => hmissing
  · exact hmissing

/-- The jar of the version is fetched and recorded. -/
theorem fetchJar_blind (metadata : VersionMetadata) : (fetchJar run metadata).Blind l any := by
  unfold fetchJar
  refine (Release.fetchPrimary_blind _ _ _ hcovers.sees_primary hcovers.takes_primary).bind
    fun fetched hfetched => ?_
  refine .bind (.ofResult hfetched) fun primary hprimary => ?_
  refine (Run.hand_blind fun state hlegible => hlegible.setPrimary hprimary).andThen fun _ => ?_
  exact Run.recordArtifact_blind hcovers.events _ _ hprimary.sees hprimary.clear

/-- Where nothing is gone, libraries are fetched in the same way. -/
theorem fetch_blind (hnone : l.gone = ∅) : (fetch run).Blind l any := by
  rw [fetch_eq]
  refine Run.handed_blind.bind fun state _ => ?_
  split
  · exact .throw
  refine (fetchJar_blind hcovers _).andThen fun ref => ?_
  refine .andThen (Action.Matches.anyway (.mapM fun dependency _ =>
    Release.fetchLibrary_blind hnone _ _ dependency)) fun libraries => ?_
  unfold tellLibraries
  exact .andThen (.forM fun library _ => announceLibrary_blind hcovers library) fun _ =>
    .pure trivial

theorem package_unpack_blind {bundle : Artifact} (hbundle : l.Shows bundle) :
    (Package.unpack run.settings.javaBin run.settings.timeout run.workspace bundle).Blind l
      l.Shows := by
  have hexposes := hcovers.exposes_unpacked
  have hpayloads : l.Exposes (run.workspace.unpackDirectory / Package.payloadsDirectory) :=
    hexposes.inside ((Path.Within.refl _).below_div ⟨by decide, by decide, by decide, by decide⟩).within
  unfold Package.unpack
  dsimp only
  refine .andThen (.files (FileTree.ensureDirectories_blind hexposes.clear)) fun _ => ?_
  refine .andThen (.files (FileTree.resolve_blind _)) fun jar => ?_
  refine (Tool.call_blind _).andThen fun result => ?_
  refine .bind .refuse fun _ _ => ?_
  refine (Package.findPayload_blind hpayloads).bind fun found hfound => ?_
  cases found with
  | none => exact .throw
  | some payload =>
    obtain ⟨hsees, hclear⟩ := hfound payload rfl
    exact .pure ⟨hsees, hclear, hbundle.space⟩

theorem unpack_blind : (unpack run).Blind l any := by
  unfold unpack
  refine Run.handed_blind.bind fun state hlegible => ?_
  split
  · exact .throw
  rename_i primary hprimary
  have hshows := hlegible.primary primary hprimary
  refine .bind (?_ : Action.Blind l _ fun inspected => l.Shows inspected.1)
    fun inspected hinspected => ?_
  · unfold Package.inspect
    refine (Package.isBundled_blind hshows.sees hshows.clear).andThen fun bundled => ?_
    cases bundled with
    | false => exact .pure hshows
    | true =>
      exact (package_unpack_blind hcovers hshows).bind fun payload hpayload => .pure hpayload
  refine (Run.hand_blind fun state hlegible => hlegible.setPayload hinspected).andThen fun _ => ?_
  dsimp only
  split
  · refine (Run.emit_blind hcovers.events _ _ _).andThen fun _ => ?_
    exact (Run.recordArtifact_blind hcovers.events _ _ hinspected.sees hinspected.clear).andThen
      fun _ => .pure trivial
  · exact .pure trivial

omit hcovers in
theorem strip_blind {source target : Path} (hsees : l.Sees source) (hclear : l.Clear source)
    (htarget : l.Takes target) : (Strip.strip source target).Blind l any := by
  unfold Strip.strip
  refine .andThen (.files (FileTree.resolve_blind _)) fun from_ => ?_
  refine .andThen (.files (FileTree.resolve_blind _)) fun to_ => ?_
  refine .bind .refuse fun _ _ => .withSibling htarget fun sibling hsibling hbeside =>
    .explain (.moving hsibling hbeside htarget.clear ?_)
  unfold Strip.fill
  refine .andThen (.files (FileTree.readFile_blind hclear hsees)) fun archive => ?_
  refine .andThen (.ofExcept fun _ _ => trivial) fun stripped => ?_
  exact .andThen (.files (FileTree.writeFile_blind hbeside _)) fun _ => .pure trivial

theorem sanitize_blind : (sanitize run).Blind l any := by
  unfold sanitize Strip.artifact
  refine Run.handed_blind.bind fun state hlegible => ?_
  split
  · exact .throw
  rename_i payload hpayload
  have hshows := hlegible.payload payload hpayload
  have hspace : (payload.derive "stripped" (run.workspace.stripped run.side) none).space =
      officialNamespace := hshows.space
  simp only [bind_assoc, pure_bind]
  refine (strip_blind hshows.sees hshows.clear hcovers.takes_stripped).andThen fun counts => ?_
  refine (Run.hand_blind fun state hlegible => hlegible.setStripped hspace).andThen fun _ => ?_
  exact (Run.recordArtifact_blind hcovers.events _ _ hcovers.sees_stripped
    hcovers.takes_stripped.clear).andThen fun _ => .pure trivial

/-! ### Mappings -/

section Mappings

variable (hfixed : ∀ word sets, run.provider ≠ .fixed word sets)

include hfixed

theorem provideDirect_blind (hprovider : run.provider = .direct) (metadata : VersionMetadata)
    {stripped : Artifact} (hspace : stripped.space = officialNamespace) :
    (MappingProvider.provideDirect run metadata stripped).Blind l
      (run.provider.Provides run.workspace run.side Steady) := by
  have htarget := @Likeness.Covers.documents l run hcovers hfixed
  rw [hprovider] at htarget ⊢
  unfold MappingProvider.provideDirect
  split
  · exact .throw
  rw [hspace]
  exact .andThen (.explain (Http.download_blind _ _ (htarget rfl).2)) fun _ =>
    .pure ⟨_, rfl, rfl, rfl, rfl, rfl⟩

section Chained

open MappingProvider MappingProvider.Chained

variable {metaUrl mavenUrl : String} (hprovider : run.provider = .chained metaUrl mavenUrl)
  {chained : Chained}

omit hcovers hfixed in
theorem releases_blind (hlists : ∀ release, l.host.Lists release → Steady release.version)
    (layer version doing : String) : (chained.releases layer version doing).Blind l fun releases =>
      ∀ release ∈ releases, Steady release.version := by
  have hblind : (chained.releases layer version doing).Blind l any := by
    unfold Chained.releases MappingRelease.fetchAll
    refine .explain (.andThen (.handle (Http.getJson_blind _ _) fun _ _ => .pure trivial)
      fun json => ?_)
    exact .ofResult fun _ _ => trivial
  exact hblind.along
    (gives_of_lists Likeness.growing_allowsNetwork hlists chained layer version doing)

omit hcovers hfixed in
theorem intermediaryRelease_blind (hlists : ∀ release, l.host.Lists release → Steady release.version)
    (version : String) :
    (chained.intermediaryRelease version).Blind l fun release => Steady release.version := by
  unfold intermediaryRelease
  refine (releases_blind hlists _ _ _).bind fun releases hreleases => ?_
  split
  · exact .pure (hreleases _ List.mem_cons_self)
  · exact .throw

omit hcovers hfixed in
/-- A download whose failure is looked at afterwards. -/
theorem loaded_blind {target : Path} (htarget : l.Takes target) (maxAttempts : Int) (url : String) :
    (Action.handle (·.isA .httpFetchError) (fun fault => pure (.error fault))
      (Except.ok <$> Http.download maxAttempts url target)).Blind l any :=
  .handle (.map (Http.download_blind _ _ htarget)) fun _ _ => .pure trivial

omit hcovers hfixed in
theorem extractEntry_blind {container target : Path} (hsees : l.Sees container)
    (hclear : l.Clear container) (htarget : l.Takes target) (name : String) :
    (Mapping.extractEntry container name target).Blind l any := by
  unfold Mapping.extractEntry
  refine .withSibling htarget fun sibling hsibling hbeside =>
    .explain (.moving hsibling hbeside htarget.clear ?_)
  unfold Mapping.fillFromEntry
  simp only [bind_assoc]
  refine .andThen (.files (FileTree.readFile_blind hclear hsees)) fun archive => ?_
  refine .andThen (.ofResult fun _ _ => trivial) fun content => ?_
  exact .andThen (.files (FileTree.writeFile_blind hbeside _)) fun _ => .pure trivial

omit hcovers hfixed in
theorem gunzip_blind {source target : Path} (hsees : l.Sees source) (hclear : l.Clear source)
    (htarget : l.Takes target) : (Mapping.gunzip source target).Blind l any := by
  unfold Mapping.gunzip
  refine .withSibling htarget fun sibling hsibling hbeside =>
    .explain (.moving hsibling hbeside htarget.clear ?_)
  unfold Mapping.fillFromCompressed
  simp only [bind_assoc]
  refine .andThen (.files (FileTree.readFile_blind hclear hsees)) fun compressed => ?_
  refine .andThen (.ofExcept fun _ _ => trivial) fun content => ?_
  exact .andThen (.files (FileTree.writeFile_blind hbeside _)) fun _ => .pure trivial

include hprovider

theorem document_seen {version : String} (hsteady : Steady version) {path : Path}
    (hpath : DocumentOf run.workspace version path) : l.Sees path ∧ l.Takes path :=
  hcovers.documents hfixed (by rw [hprovider]; exact ⟨version, hsteady, hpath⟩)

theorem fetchIntermediary_blind {release : MappingRelease} (hsteady : Steady release.version)
    (space : String) : (chained.fetchIntermediary release run.workspace space).Blind l
      (Plain · intermediaryNamespace
        (run.workspace.mapping ("intermediary-" ++ release.version ++ ".tiny"))) := by
  obtain ⟨-, htarget⟩ := document_seen hcovers hfixed hprovider hsteady .intermediary
  obtain ⟨hsees, harchive⟩ := document_seen hcovers hfixed hprovider hsteady .archive
  unfold fetchIntermediary
  refine .andThen (.ofResult fun _ _ => trivial) fun url => ?_
  refine (loaded_blind htarget _ _).andThen fun loaded => ?_
  cases loaded with
  | ok length => exact .pure ⟨rfl, rfl, rfl, rfl⟩
  | error fault =>
    refine .bind .refuse fun _ _ => ?_
    refine .andThen ?_ fun _ => .pure ⟨rfl, rfl, rfl, rfl⟩
    unfold fetchFromArchive
    refine .andThen (.ofResult fun _ _ => trivial) fun url => ?_
    refine .andThen (.explain (Http.download_blind _ _ harchive)) fun length => ?_
    exact (extractEntry_blind hsees harchive.clear htarget _).andThen fun _ => .pure trivial

theorem fetchNamed_blind (hlists : ∀ release, l.host.Lists release → Steady release.version)
    (version : String) : (chained.fetchNamed run.workspace version).Blind l fun result =>
      ∀ set, result = .ok set → ∃ version, Steady version ∧
        MappingProvider.Readable set (compressedPath run.workspace version) := by
  unfold fetchNamed
  refine (releases_blind hlists _ _ _).bind fun releases hreleases => ?_
  split
  · exact .pure (by simp)
  rename_i release hnewest
  have hsteady := hreleases release (MappingRelease.newest?_eq_some hnewest).mem
  obtain ⟨-, htarget⟩ := document_seen hcovers hfixed hprovider hsteady .compressed
  refine .andThen (.ofResult fun _ _ => trivial) fun url => ?_
  refine (loaded_blind htarget _ _).andThen fun loaded => ?_
  cases loaded with
  | ok length =>
    refine .pure ?_
    rintro _ ⟨⟩
    exact ⟨release.version, hsteady, rfl, rfl, rfl, rfl⟩
  | error fault => exact .bind .refuse fun _ _ => .pure (by simp)

theorem decompressed_blind {version : String} (hsteady : Steady version) {set : MappingSet}
    (hset : MappingProvider.Readable set (compressedPath run.workspace version)) :
    (decompressed run.workspace set).Blind l
      (MappingProvider.Readable · (decompressedPath run.workspace version)) := by
  obtain ⟨hsees, hsource⟩ := document_seen hcovers hfixed hprovider hsteady .compressed
  obtain ⟨-, htarget⟩ := document_seen hcovers hfixed hprovider hsteady .decompressed
  unfold decompressed
  rw [hset.document]
  exact (gunzip_blind hsees hsource.clear htarget).andThen fun _ =>
    .pure ⟨hset.name, hset.source, hset.target, rfl⟩

theorem provideChained_blind (hlists : ∀ release, l.host.Lists release → Steady release.version)
    (stripped : Artifact) : (provideChained chained run stripped).Blind l
      (run.provider.Provides run.workspace run.side Steady) := by
  unfold provideChained
  refine (intermediaryRelease_blind hlists _).bind fun release hsteady => ?_
  refine (fetchIntermediary_blind hcovers hfixed hprovider hsteady _).bind fun first hfirst => ?_
  refine (fetchNamed_blind hcovers hfixed hprovider hlists _).bind fun result hresult => ?_
  rw [hprovider]
  cases result with
  | error fault =>
    exact (Run.emit_blind hcovers.events _ _ _).andThen fun _ =>
      .pure ⟨first, release.version, hsteady, hfirst, .inl rfl⟩
  | ok second =>
    obtain ⟨version, hnamed, hsecond⟩ := hresult second rfl
    exact (decompressed_blind hcovers hfixed hprovider hnamed hsecond).bind fun plain hplain =>
      .pure ⟨first, release.version, hsteady, hfirst, .inr ⟨plain, version, rfl, hnamed, hplain⟩⟩

end Chained

variable (hlists : ∀ metaUrl mavenUrl, run.provider = .chained metaUrl mavenUrl →
  ∀ release, l.host.Lists release → Steady release.version)

include hlists

theorem provide_blind : (MappingProvider.provide run).Blind l
    (run.provider.Provides run.workspace run.side Steady) := by
  unfold MappingProvider.provide
  refine Run.handed_blind.bind fun state hlegible => ?_
  split
  · rename_i metadata stripped hprovider _ hartifact
    exact provideDirect_blind hcovers hfixed hprovider metadata
      (hlegible.stripped stripped hartifact)
  · exact .throw
  · rename_i metaUrl mavenUrl stripped hprovider _
    exact provideChained_blind hcovers hfixed hprovider (hlists _ _ hprovider) stripped
  · exact .throw
  · rename_i word sets hprovider
    exact absurd hprovider (hfixed word sets)

omit hcovers hfixed hlists in
theorem write_blind {target : Path} (htarget : l.Takes target) (style : TextFile.Style)
    (text : String) : (TextFile.write style target text).Blind l any := by
  unfold TextFile.write
  refine .withSibling htarget fun sibling hsibling hbeside =>
    .moving hsibling hbeside htarget.clear ?_
  unfold TextFile.fill TextFile.setMode
  refine .andThen (.ofResult fun _ _ => trivial) fun bytes => ?_
  refine .andThen (.files (FileTree.writeFile_blind hbeside _)) fun _ => ?_
  split
  · exact .pure trivial
  · exact .files (FileTree.setMode_blind hbeside _)

omit hlists in
theorem presents_of_provides {sets : List MappingSet}
    (hsets : run.provider.Provides run.workspace run.side Steady sets) {set : MappingSet}
    (hset : set ∈ sets) : l.Presents set := by
  have hdocuments := @Likeness.Covers.documents l run hcovers hfixed
  have hplain : ∀ {set : MappingSet} {space : String} {document : Path},
      MappingProvider.Plain set space document →
      space = intermediaryNamespace ∨ space = namedNamespace →
      l.Sees document ∧ l.Takes document → l.Presents set := fun hplain hspace hseen =>
    { name := hplain.name ▸ hspace
      sees := hplain.document ▸ hseen.1
      clear := hplain.document ▸ hseen.2.clear
      headed := fun hheader => by simp [hplain.header] at hheader }
  generalize run.provider = provider at hsets hdocuments hfixed
  cases provider with
  | direct =>
    obtain ⟨only, rfl, honly⟩ := hsets
    obtain rfl := List.mem_singleton.mp hset
    exact hplain honly (.inr rfl) (hdocuments rfl)
  | chained metaUrl mavenUrl =>
    obtain ⟨first, version, hsteady, hfirst, hsets⟩ := hsets
    have hfirst' := hplain hfirst (.inl rfl) (hdocuments ⟨version, hsteady, .intermediary⟩)
    rcases hsets with rfl | ⟨second, other, rfl, hother, hsecond⟩
    · obtain rfl := List.mem_singleton.mp hset
      exact hfirst'
    rcases List.mem_cons.mp hset with rfl | hset
    · exact hfirst'
    obtain rfl := List.mem_singleton.mp hset
    obtain ⟨hsees, htakes⟩ := hdocuments ⟨other, hother, .decompressed⟩
    rw [← hsecond.document] at hsees htakes
    refine ⟨.inr hsecond.name, hsees, htakes.clear, fun _ => ?_⟩
    rw [hsecond.document]
    exact hdocuments ⟨other, hother, .headed⟩
  | fixed word result => exact absurd rfl (hfixed word result)

omit hcovers hfixed hlists in
theorem normalized_blind {set : MappingSet} (hset : l.Presents set) :
    (normalized set).Blind l l.Presents := by
  unfold normalized
  split
  swap
  · exact .pure hset
  obtain ⟨hsees, htarget⟩ := hset.headed ‹_›
  refine .andThen ?_ fun _ => .pure ⟨hset.name, hsees, htarget.clear, by simp⟩
  unfold Mapping.normalizeFile TextFile.read
  refine .andThen (.files (FileTree.resolve_blind _)) fun from_ => ?_
  refine .andThen (.files (FileTree.resolve_blind _)) fun to_ => ?_
  refine .bind .refuse fun _ _ => ?_
  simp only [bind_assoc, pure_bind]
  refine .andThen (.files (FileTree.readFile_blind hset.clear hset.sees)) fun bytes => ?_
  refine .andThen (.ofExcept fun _ _ => trivial) fun chars => ?_
  exact (write_blind htarget _ _).andThen fun _ => .pure trivial

theorem mappings_blind : (mappings run).Blind l any := by
  unfold mappings providedChain
  refine Run.handed_blind.bind fun state hlegible => ?_
  split
  · exact .throw
  simp only [bind_assoc, pure_bind]
  refine (provide_blind hcovers hfixed hlists).bind fun sets hsets => ?_
  refine .andThen (.explain (.ofResult fun _ _ => trivial)) fun _ => ?_
  refine .bind (.mapM fun set hset => normalized_blind
    (presents_of_provides hcovers hfixed hsets hset)) fun headed hheaded => ?_
  refine (Run.hand_blind fun state hlegible => hlegible.setSets fun set hset =>
    (hheaded set hset).name).andThen fun _ => ?_
  refine (Run.emit_blind hcovers.events _ _ _).andThen fun _ => ?_
  exact .andThen (Action.Matches.anyway (.mapM fun set hset => Run.recordArtifact_blind
    hcovers.events _ _ (hheaded set hset).sees (hheaded set hset).clear)) fun artifacts =>
      .pure trivial

end Mappings

/-! ### Remapping and decompiling -/

theorem pass_blind (remapper : Remapper) (artifact : Artifact) {set : MappingSet}
    (hname : set.name = intermediaryNamespace ∨ set.name = namedNamespace) :
    (remapper.pass run.workspace artifact set).Blind l fun passed =>
      passed.1.path = Remapper.passOutput run.workspace set := by
  have hclear := (hcovers.takes_passOutput hname).clear
  unfold Remapper.pass Remapper.clearOutput
  refine .andThen (.ofResult fun _ _ => trivial) fun _ => ?_
  simp only [bind_assoc]
  refine .andThen (.files (FileTree.resolve_blind _)) fun to_ => ?_
  refine .andThen (.files (FileTree.resolve_blind _)) fun from_ => ?_
  refine .bind .refuse fun _ _ => ?_
  refine .andThen (.files (FileTree.ensureDirectories_blind hclear.parent)) fun _ => ?_
  refine .andThen (.files (FileTree.discard_blind hclear)) fun _ => ?_
  refine (Tool.call_blind _).andThen fun result => ?_
  refine .bind .refuse fun _ _ => ?_
  refine .andThen (.files (FileTree.isFile_blind hclear)) fun written => ?_
  exact .bind .refuse fun _ _ => .pure rfl

theorem chain_blind (remapper : Remapper) (artifact : Artifact) {sets : List MappingSet}
    (hsets : ∀ set ∈ sets, set.name = intermediaryNamespace ∨ set.name = namedNamespace) :
    (remapper.chain run.workspace (announcePass run) artifact sets).Blind l any := by
  induction sets generalizing artifact with
  | nil => exact .pure trivial
  | cons set rest ih =>
    have hname := hsets set List.mem_cons_self
    unfold Remapper.chain announcePass
    refine (pass_blind hcovers remapper artifact hname).bind fun passed hpassed => ?_
    have hsees : l.Sees passed.1.path := by
      rw [hpassed]
      exact Likeness.sees_passOutput run.workspace hname
    have hclear : l.Clear passed.1.path := by
      rw [hpassed]
      exact (hcovers.takes_passOutput hname).clear
    simp only [bind_assoc]
    refine (Run.emit_blind hcovers.events _ _ _).andThen fun _ => ?_
    refine (Run.recordArtifact_blind hcovers.events _ _ hsees hclear).andThen fun ref => ?_
    exact (ih passed.1 fun set hset => hsets set (List.mem_cons_of_mem _ hset)).andThen fun passes =>
      .pure trivial

theorem remap_blind : (remap run).Blind l any := by
  unfold remap
  refine Run.handed_blind.bind fun state _ => ?_
  dsimp only
  split
  · exact .throw
  refine Run.handed_blind.bind fun state hlegible => ?_
  refine (chain_blind hcovers _ _ hlegible.sets).andThen fun passes => ?_
  split
  · exact .throw
  · rename_i final ref _
    exact (Run.hand_blind fun state hlegible => hlegible.setMapped final).andThen fun _ =>
      .pure trivial

omit hcovers in
theorem countFiles_blind {directory : Path} (hexposes : l.Exposes directory) :
    (countFiles directory).Blind l any := by
  unfold countFiles
  refine .bind (.locating hexposes.clear) ?_
  rintro _ rfl
  refine .getting (fun world _ => .pure trivial) fun world other halike => ?_
  have hcount : ∀ (tree : FileTree) (location : Location),
      (tree.below location).countP (fun entry => entry.2 != .directory) =
        ((tree.below location).map fun entry => (entry.1, entry.2.blank)).countP
          fun entry => entry.2 != .directory := by
    intro tree location
    rw [List.countP_map]
    refine List.countP_congr fun entry _ => ?_
    obtain ⟨names, _ | ⟨contents, mode⟩⟩ := entry <;> simp [Node.blank]
  refine .inr ⟨congrArg Except.ok ?_, halike⟩
  exact (hcount world.files _).trans ((congrArg _ (halike.files.below hexposes.below)).trans
    (hcount other.files _).symm)

theorem decompile_blind : (decompile run).Blind l any := by
  have hsources := hcovers.exposes_sources
  unfold decompile Decompiler.decompile
  refine Run.handed_blind.bind fun state _ => ?_
  split
  · exact .throw
  simp only [bind_assoc, pure_bind]
  refine .andThen (.files (FileTree.ensureDirectories_blind hsources.clear)) fun _ => ?_
  refine (Tool.call_blind _).andThen fun result => ?_
  refine .bind .refuse fun _ _ => ?_
  refine (Run.hand_blind fun state hlegible => hlegible.setSources _).andThen fun _ => ?_
  refine (Run.emit_blind hcovers.events _ _ _).andThen fun _ => ?_
  exact (countFiles_blind hsources).andThen fun files => .pure trivial

end Covered

end Stage

end JarRefinery
