import JarRefinery.Proofs.DocumentNames
import JarRefinery.Proofs.Framing
import JarRefinery.Proofs.Results

/-!
# What the stages touch

Every stage has its own places in the workspace, and touches nothing else but the event log. Which
mapping documents there are depends on what the network lists: the names are found once the releases
of both layers have been chosen.
-/

namespace JarRefinery

open Action (any)
open FileTree (IsDocument Spares)

/-! ### Mapping documents -/

namespace MappingProvider

def directDocument (side : String) : String :=
  side ++ "-" ++ officialNamespace ++ "-" ++ namedNamespace ++ ".txt"

/-- The names of the document of an intermediary release and of the archive it may come in. -/
def intermediaryDocuments (version : String) : List String :=
  ["intermediary-" ++ version ++ ".tiny", "intermediary-" ++ version ++ "-v2.jar"]

/-- The names of the document of a named release as published, decompressed, and with a header. -/
def namedDocuments (version : String) : List String :=
  ["yarn-" ++ version ++ ".tiny.gz", "yarn-" ++ version ++ ".tiny",
    "yarn-" ++ version ++ "-normalized.tiny"]

/-- A run may come to these mapping documents. The chained provider chooses at most one of the
releases that are listed for each layer. -/
inductive Chooses (host : Host) (side : String) : MappingProvider → List String → Prop
  | nothing {provider : MappingProvider} : Chooses host side provider []
  | published : Chooses host side direct [directDocument side]
  | intermediary {metaUrl mavenUrl : String} {first : MappingRelease} : host.Lists first →
    Chooses host side (chained metaUrl mavenUrl) (intermediaryDocuments first.version)
  | both {metaUrl mavenUrl : String} {first second : MappingRelease} : host.Lists first →
    host.Lists second → Chooses host side (chained metaUrl mavenUrl)
      (intermediaryDocuments first.version ++ namedDocuments second.version)

theorem isDocument_intermediary {version name : String} (hversion : '/' ∉ version.toList)
    (hname : name ∈ intermediaryDocuments version) : IsDocument name := by
  simp only [intermediaryDocuments, List.mem_cons, List.not_mem_nil, or_false] at hname
  rcases hname with rfl | rfl
  · exact Chained.isDocument_between hversion (by decide) (by decide) (c := 'y') (by decide) (by decide)
  · exact Chained.isDocument_between hversion (by decide) (by decide) (c := 'a') (by decide) (by decide)

theorem isDocument_named {version name : String} (hversion : '/' ∉ version.toList)
    (hname : name ∈ namedDocuments version) : IsDocument name := by
  simp only [namedDocuments, List.mem_cons, List.not_mem_nil, or_false] at hname
  rcases hname with rfl | rfl | rfl <;>
    exact Chained.isDocument_between hversion (by decide) (by decide) (c := 'y') (by decide) (by decide)

theorem isDocument_direct {side : String} (hside : side ∈ Settings.sides) :
    IsDocument (directDocument side) := by
  simp only [Settings.sides, List.mem_cons, List.not_mem_nil, or_false] at hside
  rcases hside with rfl | rfl <;> exact ⟨by decide, 'a', by decide, by decide⟩

end MappingProvider

/-! ### Places -/

/-- The event log is in the directory of the run. The paths of the run and the directory that it
begins in are such as can be written. -/
structure Run.IsWritten (run : Run) (here : Location) : Prop where
  here : FileTree.Named here
  root : run.workspace.root.IsWritten
  log : run.events.path = Pipeline.eventsPath run.workspace run.id

theorem Run.IsWritten.events {run : Run} {here : Location} (hrun : run.IsWritten here) :
    run.events.path.IsWritten := by
  rw [hrun.log]
  exact ((hrun.root.div "runs").div run.id).div "events.jsonl"

theorem Run.IsWritten.mapping {run : Run} {here : Location} (hrun : run.IsWritten here)
    (name : String) : (run.workspace.mapping name).IsWritten :=
  (hrun.root.div "mappings").div name

/-- The place of a library can be named. -/
theorem Run.IsWritten.named_library {run : Run} {here : Location} (hrun : run.IsWritten here)
    {rest : List String} (hrest : run.workspace.LeadsToLibrary here rest) :
    FileTree.Named (run.workspace.librariesDirectory.normal here ++ rest) := by
  obtain ⟨relative, hplace⟩ := hrest.place
  exact hplace ▸ ((hrun.root.div "libraries").div relative).named_normal hrun.here

namespace Stage

/-- The places that the stage of this name touches, if the mapping documents have these names. -/
inductive Touches (workspace : Workspace) (side : String) (documents : List String)
    (here : Location) : String → Location → Prop
  | primary : Touches workspace side documents here "fetch" ((workspace.primary side).normal here)
  | unpacked {location : Location} : workspace.unpackDirectory.normal here <+: location →
    Touches workspace side documents here "unpack" location
  | stripped :
    Touches workspace side documents here "sanitize" ((workspace.stripped side).normal here)
  | document {name : String} : name ∈ documents → Touches workspace side documents here "mappings"
    (workspace.mappingsDirectory.normal here ++ [name])
  | mapped {name : String} : name = intermediaryNamespace ∨ name = namedNamespace →
    Touches workspace side documents here "remap" ((workspace.mapped name "jar").normal here)
  | source {location : Location} : workspace.sourcesDirectory.normal here <+: location →
    Touches workspace side documents here "decompile" location

/-- Only one stage touches more if there are more mapping documents. -/
theorem Touches.mono {workspace : Workspace} {side : String} {documents others : List String}
    {here location : Location} {stage : String}
    (hdocuments : stage = "mappings" → documents ⊆ others)
    (htouches : Touches workspace side documents here stage location) :
    Touches workspace side others here stage location := by
  cases htouches with
  | primary => exact .primary
  | unpacked hbelow => exact .unpacked hbelow
  | stripped => exact .stripped
  | document hmem => exact .document (hdocuments rfl hmem)
  | mapped hname => exact .mapped hname
  | source hbelow => exact .source hbelow

/-- What a stage of a run touches, with the event log. -/
def region (run : Run) (here : Location) (stage : String) (documents : List String) : Set Location :=
  insert (run.events.path.normal here)
    {location | Touches run.workspace run.side documents here stage location}

/-- What a stage of a run may touch, for whatever mapping documents may be chosen. -/
def regions (host : Host) (run : Run) (here : Location) (stage : String) : Set (Set Location) :=
  {touched | ∃ documents, run.provider.Chooses host run.side documents ∧
    touched = region run here stage documents}

end Stage

/-! ### Frames that are found along the way -/

/-- In every world there is one of the sets of places such that the action touches only them. -/
def Action.Frames {α : Type} (host : Host) (here : Location) (run : Run) (family : Set (Set Location))
    (action : Action α) (post : Set Location → α → Prop) : Prop :=
  ∀ world, (framed host here run ∅).Ready world → ∃ touched ∈ family,
    (framed host here run touched).step world (action.eval host world).2 ∧
      (action.eval host world).2.files.here = here ∧
      ∀ value, (action.eval host world).1 = .ok value → post touched value

namespace Action.Frames

variable {α β : Type} {host : Host} {here : Location} {run : Run} {touched larger : Set Location}
  {family : Set (Set Location)} {post : Set Location → α → Prop} {last : Set Location → β → Prop}

theorem of_keeps {action : Action α} (hmem : touched ∈ family)
    (hkeeps : action.Keeps (framed host here run touched) (post touched)) :
    Frames host here run family action post :=
  fun _ hready => ⟨touched, hmem, hkeeps.step hready.here hready.inv,
    hkeeps.here hready.here hready.inv,
    fun _ hvalue => hkeeps.value hready.here hready.inv (Prod.ext hvalue rfl)⟩

/-- The places are found after a part that touches none but those of all of them. -/
theorem after {action : Action α} {next : α → Action β} {gives : α → Prop}
    (haction : action.Keeps (framed host here run touched) gives) (hne : family.Nonempty)
    (hfamily : ∀ larger ∈ family, touched ⊆ larger)
    (hnext : ∀ value, gives value → Frames host here run family (next value) last) :
    Frames host here run family (action >>= next) last := by
  intro world hready
  have hstart : (framed host here run touched).Ready world := ⟨hready.here, hready.inv⟩
  rw [eval_bind]
  rcases heval : action.eval host world with ⟨fault | value, middle⟩ <;>
    obtain ⟨hmiddle, hstep⟩ := hstart.evaluated haction heval
  · obtain ⟨larger, hmem⟩ := hne
    exact ⟨larger, hmem, Discipline.framing.mono_step (hfamily larger hmem) hstep, hmiddle.here,
      by simp⟩
  · obtain ⟨larger, hmem, hsteps, hends⟩ := hnext value
      (haction.value hready.here hready.inv heval) middle ⟨hmiddle.here, hmiddle.inv⟩
    exact ⟨larger, hmem, (framed host here run larger).trans
      (Discipline.framing.mono_step (hfamily larger hmem) hstep) hsteps, hends⟩

/-- Once the places are found everything else touches only them. -/
theorem bind {action : Action α} {next : α → Action β}
    (haction : Frames host here run family action post)
    (hnext : ∀ touched ∈ family, ∀ value, post touched value →
      (next value).Keeps (framed host here run touched) (last touched)) :
    Frames host here run family (action >>= next) last := by
  intro world hready
  obtain ⟨touched, hmem, hstep, hhere, hpost⟩ := haction world hready
  have hkept := (framed host here run touched).keep hstep hready.inv
  rw [eval_bind]
  rcases heval : action.eval host world with ⟨fault | value, middle⟩ <;>
    rw [heval] at hstep hhere hpost hkept
  · exact ⟨touched, hmem, hstep, hhere, by simp⟩
  · have hends := hnext touched hmem value (hpost value rfl)
    exact ⟨touched, hmem, (framed host here run touched).trans hstep (hends.step hhere hkept),
      hends.here hhere hkept, fun found hfound => hends.value hhere hkept (Prod.ext hfound rfl)⟩

theorem narrow {small : Set (Set Location)} {action : Action α} (hsubset : small ⊆ family)
    (haction : Frames host here run small action post) : Frames host here run family action post := by
  intro world hready
  obtain ⟨touched, hmem, hends⟩ := haction world hready
  exact ⟨touched, hsubset hmem, hends⟩

/-- What touches only some places each time keeps to all of them together. -/
theorem keeps {action : Action α} {gives : α → Prop}
    (haction : Frames host here run family action post)
    (hfamily : ∀ touched ∈ family, touched ⊆ larger)
    (hpost : ∀ touched ∈ family, ∀ value, post touched value → gives value) :
    action.Keeps (framed host here run larger) gives := by
  intro world hhere hinv
  obtain ⟨touched, hmem, hstep, hafter, hvalue⟩ := haction world ⟨hhere, hinv⟩
  refine ⟨Discipline.framing.mono_step (hfamily touched hmem) hstep, hafter, ?_⟩
  generalize hresult : (action.eval (framed host here run larger).host world).1 = result
  cases result with
  | ok value => exact hpost touched hmem value (hvalue value hresult)
  | error fault => trivial

end Action.Frames

/-! ### The stages -/

/-- The tools of a run write only to their places, and none of them makes a step back a name. -/
structure Host.Tidy (host : Host) (settings : Settings) (workspace : Workspace) (here : Location) :
    Prop where
  bundler : ∀ calls files, Spares {location | workspace.unpackDirectory.normal here <+: location}
    files (host.tools calls (CallPlan.bundlerCall settings workspace here) files).2
  remapper : ∀ artifact set, set.name = intermediaryNamespace ∨ set.name = namedNamespace →
    ∀ calls files, Spares {(Remapper.passOutput workspace set).normal here} files
      (host.tools calls
        (CallPlan.passCall (Stage.remapper settings) workspace artifact set) files).2
  decompiler : ∀ artifact calls files,
    Spares {location | workspace.sourcesDirectory.normal here <+: location} files
      (host.tools calls (CallPlan.decompilerCall settings workspace artifact) files).2
  names : ∀ calls call files, files.WellNamed → (host.tools calls call files).2.WellNamed

theorem FileTree.Spares.mono {touched larger : Set Location} {before after : FileTree}
    (hspares : Spares touched before after) (hsubset : touched ⊆ larger) :
    Spares larger before after :=
  fun location contents mode hout => hspares location contents mode fun hmem => hout (hsubset hmem)

namespace Stage

open Action (Frames)
open MappingProvider (Chained Provides)

variable {host : Host} {here : Location} {run : Run} {documents : List String}

theorem events_mem_region (stage : String) :
    run.events.path.normal here ∈ region run here stage documents :=
  Set.mem_insert _ _

theorem nothing_mem_regions (stage : String) :
    region run here stage [] ∈ regions host run here stage :=
  ⟨[], .nothing, rfl⟩

theorem region_mono {stage : String} {others : List String}
    (hdocuments : stage = "mappings" → documents ⊆ others) :
    region run here stage documents ⊆ region run here stage others :=
  Set.insert_subset_insert fun _ htouches => htouches.mono hdocuments

theorem nothing_subset {stage : String} {touched : Set Location}
    (hmem : touched ∈ regions host run here stage) : region run here stage [] ⊆ touched := by
  obtain ⟨documents, -, rfl⟩ := hmem
  exact region_mono fun _ => List.nil_subset _

variable (hrun : run.IsWritten here)

include hrun

theorem allowsEvents (stage : String) :
    (framed host here run (region run here stage documents)).AllowsFiles
      { written := {run.events.path.normal here} } :=
  Discipline.framing.allowsWritten hrun.here hrun.events (events_mem_region stage)

theorem produces_of_touches {stage : String} {target : Path} (htarget : target.IsWritten)
    (htouches : Touches run.workspace run.side documents here stage (target.normal here)) :
    (framed host here run (region run here stage documents)).Produces target :=
  framed.produces hrun.here htarget (Set.mem_insert_of_mem _ htouches)

theorem produces_document {name : String} (hname : IsDocument name) (hmem : name ∈ documents) :
    (framed host here run (region run here "mappings" documents)).Produces
      (run.workspace.mapping name) := by
  refine produces_of_touches hrun (hrun.mapping name) ?_
  rw [Workspace.mapping, hname.normal_div]
  exact .document hmem

/-- The document of the set, with its header, is at one of the places that are touched. -/
def Documented (run : Run) (here : Location) (touched : Set Location) (set : MappingSet) : Prop :=
  ∃ name, IsDocument name ∧ run.workspace.mappingsDirectory.normal here ++ [name] ∈ touched ∧
    (if set.needsHeader then MappingProvider.headedPath set.path else set.path) =
      run.workspace.mapping name

omit hrun in
theorem Documented.mono {touched larger : Set Location} {set : MappingSet}
    (hdocumented : Documented run here touched set) (hsubset : touched ⊆ larger) :
    Documented run here larger set := by
  obtain ⟨name, hname, hmem, hpath⟩ := hdocumented
  exact ⟨name, hname, hsubset hmem, hpath⟩

omit hrun in
theorem documented_plain {set : MappingSet} {space name : String} (hname : IsDocument name)
    (hmem : name ∈ documents)
    (hplain : MappingProvider.Plain set space (run.workspace.mapping name)) :
    Documented run here (region run here "mappings" documents) set :=
  ⟨name, hname, Set.mem_insert_of_mem _ (.document hmem), by rw [hplain.header, ← hplain.document]; rfl⟩

omit hrun in
theorem documented_readable {set : MappingSet} {version : String} (hversion : '/' ∉ version.toList)
    (hmem : ∀ name ∈ MappingProvider.namedDocuments version, name ∈ documents)
    (hreadable : MappingProvider.Readable set (Chained.decompressedPath run.workspace version)) :
    Documented run here (region run here "mappings" documents) set := by
  have hplaced : ∀ name ∈ MappingProvider.namedDocuments version, IsDocument name ∧
      run.workspace.mappingsDirectory.normal here ++ [name] ∈ region run here "mappings" documents :=
    fun name hname => ⟨MappingProvider.isDocument_named hversion hname,
      Set.mem_insert_of_mem _ (.document (hmem name hname))⟩
  cases hheader : set.needsHeader with
  | true =>
    obtain ⟨hname, hplace⟩ := hplaced ("yarn-" ++ version ++ "-normalized.tiny")
      (by simp [MappingProvider.namedDocuments])
    exact ⟨_, hname, hplace, by
      rw [hheader, if_pos rfl, hreadable.document, Chained.headedPath_decompressedPath _ hversion]⟩
  | false =>
    obtain ⟨hname, hplace⟩ := hplaced ("yarn-" ++ version ++ ".tiny")
      (by simp [MappingProvider.namedDocuments])
    exact ⟨_, hname, hplace, by
      rw [hheader, if_neg (by simp), hreadable.document, Chained.decompressedPath_eq _ hversion]⟩

section Chained

open MappingProvider (intermediaryDocuments namedDocuments isDocument_intermediary
  isDocument_named provideChained)

variable {metaUrl mavenUrl : String} (hprovider : run.provider = .chained metaUrl mavenUrl)
  (hversions : ∀ release, host.Lists release → '/' ∉ release.version.toList)

/-- What may be touched once the intermediary release has been chosen. -/
def choices (host : Host) (run : Run) (here : Location) (first : MappingRelease) :
    Set (Set Location) :=
  {touched | touched = region run here "mappings" (intermediaryDocuments first.version) ∨
    ∃ second, host.Lists second ∧ touched = region run here "mappings"
      (intermediaryDocuments first.version ++ namedDocuments second.version)}

omit hrun in
theorem of_mem_choices {first : MappingRelease} {touched : Set Location}
    (hmem : touched ∈ choices host run here first) : ∃ documents,
      intermediaryDocuments first.version ⊆ documents ∧
        touched = region run here "mappings" documents := by
  rcases hmem with rfl | ⟨second, -, rfl⟩
  · exact ⟨_, List.Subset.refl _, rfl⟩
  · exact ⟨_, List.subset_append_left _ _, rfl⟩

include hprovider in
omit hrun in
theorem choices_subset {first : MappingRelease} (hfirst : host.Lists first) :
    choices host run here first ⊆ regions host run here "mappings" := by
  rintro _ (rfl | ⟨second, hsecond, rfl⟩)
  · exact ⟨_, hprovider ▸ .intermediary hfirst, rfl⟩
  · exact ⟨_, hprovider ▸ .both hfirst hsecond, rfl⟩

omit hrun in
theorem gives_listed (touched : Set Location) (chained : Chained) :
    chained.Gives (framed host here run touched) fun version =>
      ∃ release, host.Lists release ∧ release.version = version :=
  Chained.gives_of_lists Discipline.framing.allowsNetwork (fun release hlists => ⟨release, hlists, rfl⟩) _

include hversions

/-- The named release is chosen last. -/
theorem fetchNamed_frames {first : MappingRelease} (chained : Chained) (version : String) :
    Frames host here run (choices host run here first)
      (chained.fetchNamed run.workspace version) fun touched result => ∀ set, result = .ok set →
        ∃ second, host.Lists second ∧
          MappingProvider.Readable set (Chained.compressedPath run.workspace second.version) ∧
          touched = region run here "mappings"
            (intermediaryDocuments first.version ++ namedDocuments second.version) := by
  unfold Chained.fetchNamed
  refine .after (gives_listed (region run here "mappings" []) chained _ _ _) ⟨_, .inl rfl⟩
    (fun larger hmem => ?_) fun releases hreleases => ?_
  · obtain ⟨documents, -, rfl⟩ := of_mem_choices hmem
    exact region_mono fun _ => List.nil_subset _
  split
  · exact .of_keeps (.inl rfl) (.pure (by simp))
  rename_i release hnewest
  obtain ⟨second, hsecond, hversion⟩ :=
    hreleases release (MappingRelease.newest?_eq_some hnewest).mem
  refine .of_keeps (.inr ⟨second, hsecond, rfl⟩) ?_
  rw [← hversion]
  have hname : "yarn-" ++ second.version ++ ".tiny.gz" ∈ namedDocuments second.version :=
    List.mem_cons_self
  have htarget : (framed host here run _).Produces
      (Chained.compressedPath run.workspace second.version) :=
    produces_document hrun (isDocument_named (hversions second hsecond) hname)
      (List.mem_append_right (intermediaryDocuments first.version) hname)
  refine .andThen (.ofOrdinary (Chained.fileUrl_ordinary _ _ _ _)) fun url => ?_
  refine (Chained.loaded_keeps htarget _ _).andThen fun loaded => ?_
  cases loaded with
  | ok length =>
    refine .pure ?_
    rintro _ ⟨⟩
    exact ⟨second, hsecond, ⟨rfl, rfl, rfl, rfl⟩, rfl⟩
  | error fault =>
    exact .bind (.refuse fun _ => trivial) fun _ _ => .pure (by simp)

theorem decompressed_framed {first second : MappingRelease} (hsecond : host.Lists second)
    {set : MappingSet}
    (hset : MappingProvider.Readable set (Chained.compressedPath run.workspace second.version)) :
    (Chained.decompressed run.workspace set).Keeps
      (framed host here run (region run here "mappings"
        (intermediaryDocuments first.version ++ namedDocuments second.version)))
      (MappingProvider.Readable · (Chained.decompressedPath run.workspace second.version)) := by
  have hversion := hversions second hsecond
  have hname : "yarn-" ++ second.version ++ ".tiny" ∈ namedDocuments second.version := by
    simp [namedDocuments]
  refine Chained.decompressed_keeps ?_ hset
  rw [Chained.decompressedPath_eq _ hversion]
  exact produces_document hrun (isDocument_named hversion hname) (List.mem_append_right _ hname)

include hprovider

theorem provideChained_frames (services : Chained) (stripped : Artifact) :
    Frames host here run (regions host run here "mappings")
      (provideChained services run stripped) fun touched sets =>
        run.provider.Provides run.workspace run.side any sets ∧
          ∀ set ∈ sets, Documented run here touched set := by
  unfold provideChained
  refine .after (Chained.intermediaryRelease_keeps
    (gives_listed (region run here "mappings" []) services) _) ⟨_, nothing_mem_regions _⟩
    (fun _ hmem => nothing_subset hmem) fun release hrelease => ?_
  obtain ⟨first, hfirst, hversion⟩ := hrelease
  refine .narrow (choices_subset hprovider hfirst) ?_
  have hdocument : ∀ name ∈ intermediaryDocuments first.version, IsDocument name :=
    fun name hname => isDocument_intermediary (hversions first hfirst) hname
  have hproduces : ∀ name ∈ intermediaryDocuments release.version,
      (framed host here run (region run here "mappings"
        (intermediaryDocuments first.version))).Produces (run.workspace.mapping name) := by
    rw [← hversion]
    exact fun name hname => produces_document hrun (hdocument name hname) hname
  refine .after (Chained.fetchIntermediary_keeps services (hproduces _ List.mem_cons_self)
    (hproduces _ (List.mem_cons_of_mem _ List.mem_cons_self)) _) ⟨_, .inl rfl⟩
    (fun larger hmem => ?_) fun set hset => ?_
  · obtain ⟨documents, hsubset, rfl⟩ := of_mem_choices hmem
    exact region_mono fun _ => hsubset
  rw [← hversion] at hset
  refine .bind (fetchNamed_frames hrun hversions services _) fun touched hmem result hresult => ?_
  have hplain : Documented run here touched set := by
    obtain ⟨documents, hsubset, rfl⟩ := of_mem_choices hmem
    exact documented_plain (hdocument _ List.mem_cons_self) (hsubset List.mem_cons_self) hset
  cases result with
  | error fault =>
    obtain ⟨documents, -, rfl⟩ := of_mem_choices hmem
    refine (Run.emit_keeps (allowsEvents hrun _) _ _ _).andThen fun _ => .pure ⟨?_, by simpa⟩
    rw [hprovider]
    exact ⟨set, _, trivial, hset, .inl rfl⟩
  | ok named =>
    obtain ⟨second, hsecond, hnamed, rfl⟩ := hresult named rfl
    refine (decompressed_framed hrun hversions hsecond hnamed).bind fun plain hreadable => .pure ?_
    have hdocumented : Documented run here _ plain := documented_readable (hversions second hsecond)
      (fun name hname => List.mem_append_right (intermediaryDocuments first.version) hname) hreadable
    refine ⟨?_, by simpa using ⟨hplain, hdocumented⟩⟩
    rw [hprovider]
    exact ⟨set, _, trivial, hset, .inr ⟨plain, _, rfl, trivial, hreadable⟩⟩

end Chained

section Providing

open MappingProvider (directDocument isDocument_direct)

variable (hside : run.side ∈ Settings.sides) (hfixed : ∀ word sets, run.provider ≠ .fixed word sets)
  (hversions : ∀ metaUrl mavenUrl, run.provider = .chained metaUrl mavenUrl →
    ∀ release, host.Lists release → '/' ∉ release.version.toList)

include hside hfixed hversions

theorem provide_frames :
    Frames host here run (regions host run here "mappings") (MappingProvider.provide run)
      fun touched sets => run.provider.Provides run.workspace run.side any sets ∧
        ∀ set ∈ sets, Documented run here touched set := by
  have hnothing : region run here "mappings" [] ∈ regions host run here "mappings" :=
    nothing_mem_regions _
  unfold MappingProvider.provide
  refine .after (handed_keeps framed.hands) ⟨_, hnothing⟩ (fun _ hmem => nothing_subset hmem)
    fun state hhanded => ?_
  split
  · rename_i metadata stripped hprovider _ hstripped
    have hspace := congrArg Artifact.space (hhanded.stripped stripped hstripped)
    have hname := isDocument_direct hside
    have htarget : (framed host here run (region run here "mappings"
        [directDocument run.side])).Produces (run.workspace.mapping (directDocument run.side)) :=
      produces_document hrun hname List.mem_cons_self
    have hdocuments : ∀ path, run.provider.Documents run.workspace run.side any path →
        (framed host here run (region run here "mappings" [directDocument run.side])).Produces path := by
      intro path hpath
      rw [hprovider] at hpath
      exact (show path = _ from hpath) ▸ htarget
    refine .of_keeps ⟨[directDocument run.side], hprovider ▸ .published, rfl⟩ ?_
    refine (MappingProvider.provideDirect_keeps hdocuments hprovider metadata hspace).weaken
      fun sets hprovides => ⟨hprovides, ?_⟩
    rw [hprovider] at hprovides
    obtain ⟨set, rfl, hplain⟩ := hprovides
    simpa using documented_plain hname List.mem_cons_self hplain
  · exact .of_keeps hnothing (.throw trivial)
  · rename_i metaUrl mavenUrl stripped hprovider _
    exact provideChained_frames hrun hprovider (hversions _ _ hprovider) _ stripped
  · exact .of_keeps hnothing (.throw trivial)
  · rename_i word sets hprovider
    exact absurd hprovider (hfixed word sets)

theorem providedChain_frames :
    Frames host here run (regions host run here "mappings") (providedChain run officialNamespace)
      fun touched sets => run.provider.Chain sets ∧ ∀ set ∈ sets, Documented run here touched set := by
  unfold providedChain
  refine .bind (provide_frames hrun hside hfixed hversions) fun touched _ sets hsets => ?_
  have hchecked : (Action.ofResult (MappingSet.checkChain sets officialNamespace)).Keeps
      (framed host here run touched) fun _ => MappingSet.checkChain sets officialNamespace = .ok () :=
    .ofResult (fun _ _ => trivial) fun _ hvalue => hvalue
  exact (hchecked.explain fun _ => rfl).bind fun _ hchain =>
    .pure ⟨hsets.1.chain hfixed hchain, hsets.2⟩

omit hside hfixed hversions in
/-- The sets with their headers stand where they are documented. -/
theorem normalizedSets_framed {touched : Set Location} {sets : List MappingSet}
    (hchain : run.provider.Chain sets) (hdocumented : ∀ set ∈ sets, Documented run here touched set) :
    (sets.mapM normalized).Keeps (framed host here run touched) fun others =>
      run.provider.Chain others ∧ ∀ set ∈ others, ∃ name, IsDocument name ∧
        run.workspace.mappingsDirectory.normal here ++ [name] ∈ touched ∧
        set.path = run.workspace.mapping name := by
  refine .weaken (.mapM fun set hset => normalized_keeps fun hheader => ?_) fun others hheaded =>
    ⟨hchain.samePass (hheaded.imp fun _ _ hset => hset.toSamePass), fun other hother => ?_⟩
  · obtain ⟨name, hname, hmem, hpath⟩ := hdocumented set hset
    rw [if_pos hheader] at hpath
    rw [hpath]
    refine framed.produces hrun.here (hrun.mapping name) ?_
    rwa [Workspace.mapping, hname.normal_div]
  · obtain ⟨set, hset, hsame⟩ := Result.exists_item hheaded hother
    obtain ⟨name, hname, hmem, hpath⟩ := hdocumented set hset
    exact ⟨name, hname, hmem, hsame.path.trans hpath⟩

theorem mappings_frames : Frames host here run (regions host run here "mappings") (mappings run)
    fun _ _ => True := by
  have hnothing : region run here "mappings" [] ∈ regions host run here "mappings" :=
    nothing_mem_regions _
  unfold mappings
  refine .after (handed_keeps framed.hands) ⟨_, hnothing⟩ (fun _ hmem => nothing_subset hmem)
    fun state hhanded => ?_
  split
  · exact .of_keeps hnothing (.throw trivial)
  rename_i stripped hstripped
  rw [show stripped.space = officialNamespace from
    congrArg Artifact.space (hhanded.stripped stripped hstripped)]
  refine .bind (providedChain_frames hrun hside hfixed hversions) fun touched hmem sets hsets => ?_
  obtain ⟨documents, -, rfl⟩ := hmem
  have hevents : (framed host here run (region run here "mappings" documents)).AllowsFiles
      { written := {run.events.path.normal here} } := allowsEvents hrun "mappings"
  refine (normalizedSets_framed hrun hsets.1 hsets.2).bind fun others hothers => ?_
  refine .andThen (Run.hand_keeps (framed.hands.hand _ fun _ hstate => hstate.setSets hothers.1))
    fun _ => ?_
  refine (Run.emit_keeps hevents _ _ _).andThen fun _ => ?_
  exact .andThen (Action.Keeps.mapM fun set _ =>
    Run.recordArtifact_keeps hevents _ _ _).anyway fun artifacts => .pure trivial

variable (htidy : host.Tidy run.settings run.workspace here)

include htidy

omit hside hfixed hversions in
theorem allowsPass {touched : Set Location} {set : MappingSet}
    (hset : set.name = intermediaryNamespace ∨ set.name = namedNamespace)
    (houtput : (Remapper.passOutput run.workspace set).normal here ∈ touched) :
    (framed host here run touched).AllowsPass (remapper run.settings) run.workspace set :=
  ⟨Discipline.framing.allowsMade hrun.here ((hrun.root.div _).div _).parent,
    Discipline.framing.allowsRemoved hrun.here houtput,
    fun artifact => Discipline.framing.allowsCall (fun calls files =>
      (htidy.remapper artifact set hset calls files).mono (Set.singleton_subset_iff.mpr houtput))
      fun calls files => htidy.names calls _ files⟩

/-- **Places.** Every stage touches its own places and the event log alone. -/
theorem perform_frames {stage : Stage} (hstage : stage ∈ all) :
    Frames host here run (regions host run here stage.name) (stage.perform run) fun _ _ => True := by
  have hbelow : ∀ {name : String} {base : Path},
      (∀ location, base.normal here <+: location →
        Touches run.workspace run.side [] here name location) →
      {location | base.normal here <+: location} ⊆ region run here name [] :=
    fun htouches location hlocation => Set.mem_insert_of_mem _ (htouches location hlocation)
  simp only [all, List.mem_cons, List.not_mem_nil, or_false] at hstage
  rcases hstage with rfl | rfl | rfl | rfl | rfl | rfl | rfl
  · exact .of_keeps (nothing_mem_regions _) (resolve_keeps framed.hands (allowsEvents hrun _)
      Discipline.framing.allowsNetwork).anyway
  · refine .of_keeps (nothing_mem_regions _) (fetch_keeps framed.hands (allowsEvents hrun _)
      (produces_of_touches hrun (hrun.root.div _) .primary) fun rest hrest dependency => ?_)
    exact Release.fetchLibraryTo_framing hrun.here (hrun.named_library hrest)
      (List.prefix_append _ _) _ dependency
  · exact .of_keeps (nothing_mem_regions _) (unpack_keeps framed.hands (allowsEvents hrun _)
      (Discipline.framing.allowsMade hrun.here (hrun.root.div _)) (Discipline.framing.allowsCall
        (fun calls files => (htidy.bundler calls files).mono (hbelow fun _ => .unpacked))
        fun calls files => htidy.names calls _ files))
  · exact .of_keeps (nothing_mem_regions _) (sanitize_keeps framed.hands (allowsEvents hrun _)
      (produces_of_touches hrun (hrun.root.div _) .stripped))
  · exact mappings_frames hrun hside hfixed hversions
  · exact .of_keeps (nothing_mem_regions _) (remap_keeps framed.hands (allowsEvents hrun _)
      fun set hset => allowsPass hrun htidy hset (Set.mem_insert_of_mem _ (.mapped hset)))
  · have hcall : ∀ artifact, (framed host here run (region run here "decompile" [])).AllowsCall
        (CallPlan.decompilerCall run.settings run.workspace artifact) := fun artifact =>
      Discipline.framing.allowsCall
        (fun calls files => (htidy.decompiler artifact calls files).mono (hbelow fun _ => .source))
        fun calls files => htidy.names calls _ files
    exact .of_keeps (nothing_mem_regions _) (decompile_keeps framed.hands (allowsEvents hrun _)
      (Discipline.framing.allowsMade hrun.here (hrun.root.div _)) hcall).anyway

end Providing

end Stage

end JarRefinery
