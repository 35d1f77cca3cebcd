import JarRefinery.Mapping.Provide
import JarRefinery.Proofs.Operations

/-!
# Providing mappings

What the providers ask of a discipline, and the shape of what they provide: the direct provider one
set to the readable names, the chained one a set to the intermediary names and perhaps a second one
from there to the readable names.
-/

namespace JarRefinery

open Action (any)

variable {d : Discipline}

theorem MappingRelease.ofList_ordinary (url : String) (json : Json) :
    Ordinary (ofList url json) := by
  unfold ofList
  split
  · exact .mapM fun item => .mapError fun _ => rfl
  · exact .error rfl

/-- Some address answers with a list that has this release in it. -/
def Host.Lists (host : Host) (release : MappingRelease) : Prop :=
  ∃ json url releases, host.Delivers json ∧ MappingRelease.ofList url json = .ok releases ∧
    release ∈ releases

theorem MappingRelease.fetchAll_keeps (hnetwork : d.AllowsNetwork) (maxAttempts : Int)
    (url : String) :
    (fetchAll maxAttempts url).Keeps d fun releases => ∀ release ∈ releases, d.host.Lists release := by
  unfold fetchAll
  have hjson : (Action.handle (fun fault => fault.isA .httpFetchError && fault.isNotFound)
      (fun _ => pure (.list [])) (Http.getJson maxAttempts url)).Keeps d fun json =>
        d.host.Delivers json ∨ json = .list [] :=
    .handle ((Http.getJson_delivered hnetwork _ _).weaken fun _ hjson => .inl hjson)
      fun _ _ _ => .pure (.inr rfl)
  refine hjson.bind fun json hjson => .ofResult (fun fault hfault =>
    d.ordinary fault (ofList_ordinary url json fault hfault)) fun releases hreleases release hmem => ?_
  rcases hjson with hjson | rfl
  · exact ⟨json, url, releases, hjson, hreleases, hmem⟩
  · obtain rfl : [] = releases := Except.ok.inj hreleases
    simp at hmem

namespace MappingRelease

/-- The first of the releases with the greatest build number. -/
def Newest (release : MappingRelease) (releases : List MappingRelease) : Prop :=
  ∃ before after, releases = before ++ release :: after ∧
    (∀ other ∈ before, other.order < release.order) ∧
    ∀ other ∈ after, other.order ≤ release.order

theorem Newest.next {best : MappingRelease} {seen : List MappingRelease} (hbest : Newest best seen)
    (release : MappingRelease) :
    Newest (if best.order < release.order then release else best) (seen ++ [release]) := by
  obtain ⟨before, after, rfl, hbefore, hafter⟩ := hbest
  split
  · rename_i hless
    refine ⟨before ++ best :: after, [], by simp, fun other hother => ?_, by simp⟩
    obtain hother | rfl | hother : other ∈ before ∨ other = best ∨ other ∈ after := by
      simpa using hother
    · exact (hbefore other hother).trans hless
    · exact hless
    · exact (hafter other hother).trans_lt hless
  · rename_i hnot
    refine ⟨before, after ++ [release], by simp, hbefore, fun other hother => ?_⟩
    obtain hother | rfl : other ∈ after ∨ other = release := by simpa using hother
    · exact hafter other hother
    · exact not_lt.mp hnot

theorem Newest.all {best : MappingRelease} {seen : List MappingRelease} (hbest : Newest best seen)
    (rest : List MappingRelease) :
    Newest (rest.foldl (fun best release => if best.order < release.order then release else best)
      best) (seen ++ rest) := by
  induction rest generalizing best seen with
  | nil => simpa using hbest
  | cons release rest ih =>
    rw [List.foldl_cons, List.append_cons]
    exact ih (hbest.next release)

theorem newest?_eq_some {releases : List MappingRelease} {release : MappingRelease}
    (hnewest : newest? releases = some release) : Newest release releases := by
  cases releases with
  | nil => cases hnewest
  | cons first rest =>
    obtain rfl := Option.some.inj hnewest
    have hfirst : Newest first [first] := ⟨[], [], rfl, by simp, by simp⟩
    exact hfirst.all rest

theorem Newest.le {release other : MappingRelease} {releases : List MappingRelease}
    (hnewest : Newest release releases) (hother : other ∈ releases) : other.order ≤ release.order := by
  obtain ⟨before, after, rfl, hbefore, hafter⟩ := hnewest
  obtain hother | rfl | hother : other ∈ before ∨ other = release ∨ other ∈ after := by
    simpa using hother
  · exact (hbefore other hother).le
  · exact le_rfl
  · exact hafter other hother

theorem Newest.mem {release : MappingRelease} {releases : List MappingRelease}
    (hnewest : Newest release releases) : release ∈ releases := by
  obtain ⟨before, after, rfl, -, -⟩ := hnewest
  simp

/-- A list has no two newest releases: either of them would come before the other. -/
theorem Newest.unique {release other : MappingRelease} {releases : List MappingRelease}
    (hnewest : Newest release releases) (hother : Newest other releases) : release = other := by
  have hfirst : ∀ {first second : MappingRelease} {before after between rest : List MappingRelease},
      (∀ earlier ∈ before ++ between, earlier.order < second.order) →
      first :: after = between ++ second :: rest → second.order ≤ first.order → first = second := by
    intro first second before after between rest hless heq hle
    cases between with
    | nil => exact (List.cons.inj heq).1
    | cons head between =>
      obtain ⟨rfl, -⟩ := List.cons.inj heq
      exact absurd (hless first (by simp)) (not_lt.mpr hle)
  have hle := hnewest.le hother.mem
  have hge := hother.le hnewest.mem
  obtain ⟨before, after, rfl, hbefore, -⟩ := hnewest
  obtain ⟨before', after', heq, hbefore', -⟩ := hother
  rcases List.append_eq_append_iff.mp heq with ⟨between, rfl, hrest⟩ | ⟨between, rfl, hrest⟩
  · exact hfirst hbefore' hrest hle
  · exact (hfirst hbefore hrest hge).symm

theorem newest?_eq_some_iff {releases : List MappingRelease} {release : MappingRelease} :
    newest? releases = some release ↔ Newest release releases := by
  refine ⟨newest?_eq_some, fun hnewest => ?_⟩
  obtain ⟨found, hfound⟩ : ∃ found, newest? releases = some found := by
    cases releases with
    | nil => exact absurd hnewest.mem List.not_mem_nil
    | cons first rest => exact ⟨_, rfl⟩
  rw [hfound, (newest?_eq_some hfound).unique hnewest]

end MappingRelease

namespace MappingProvider

/-- The place of a document with its header. -/
def headedPath (document : Path) : Path :=
  document.withName (document.stem ++ "-normalized" ++ document.suffix)

namespace Chained

def compressedPath (workspace : Workspace) (version : String) : Path :=
  workspace.mapping ("yarn-" ++ version ++ ".tiny.gz")

def decompressedPath (workspace : Workspace) (version : String) : Path :=
  workspace.mapping (plainName (compressedPath workspace version).name)

/-- The documents of a release of this version: as published, decompressed, and with a header. -/
inductive DocumentOf (workspace : Workspace) (version : String) : Path → Prop
  | intermediary :
    DocumentOf workspace version (workspace.mapping ("intermediary-" ++ version ++ ".tiny"))
  | archive :
    DocumentOf workspace version (workspace.mapping ("intermediary-" ++ version ++ "-v2.jar"))
  | compressed : DocumentOf workspace version (compressedPath workspace version)
  | decompressed : DocumentOf workspace version (decompressedPath workspace version)
  | headed : DocumentOf workspace version (headedPath (decompressedPath workspace version))

/-- The lists of releases give versions that are admitted. -/
def Gives (d : Discipline) (versions : String → Prop) (chained : Chained) : Prop :=
  ∀ layer version doing, (chained.releases layer version doing).Keeps d fun releases =>
    ∀ release ∈ releases, versions release.version

end Chained

/-- The places that the documents of the provider's mappings may have if releases have such
versions. -/
def Documents (workspace : Workspace) (side : String) (versions : String → Prop) :
    MappingProvider → Path → Prop
  | direct, path => path =
    workspace.mapping (side ++ "-" ++ officialNamespace ++ "-" ++ namedNamespace ++ ".txt")
  | chained _ _, path => ∃ version, versions version ∧ Chained.DocumentOf workspace version path
  | fixed _ _, _ => True

/-- A set whose document has its header already. -/
structure Plain (set : MappingSet) (space : String) (document : Path) : Prop where
  name : set.name = space
  target : set.target = space
  header : set.needsHeader = false
  document : set.path = document

/-- The second set of a chain, which goes on to readable names. -/
structure Readable (set : MappingSet) (document : Path) : Prop where
  name : set.name = namedNamespace
  source : set.source = intermediaryNamespace
  target : set.target = namedNamespace
  document : set.path = document

/-- The sets that a provider comes to, but for where they begin. -/
def Provides (workspace : Workspace) (side : String) (versions : String → Prop) :
    MappingProvider → List MappingSet → Prop
  | direct, sets => ∃ set, sets = [set] ∧ Plain set namedNamespace
    (workspace.mapping (side ++ "-" ++ officialNamespace ++ "-" ++ namedNamespace ++ ".txt"))
  | chained _ _, sets => ∃ first version, versions version ∧ Plain first intermediaryNamespace
      (workspace.mapping ("intermediary-" ++ version ++ ".tiny")) ∧
    (sets = [first] ∨ ∃ second version, sets = [first, second] ∧ versions version ∧
      Readable second (Chained.decompressedPath workspace version))
  | fixed _ result, sets => result = .ok sets

variable {run : Run} {versions : String → Prop}
  (hdocuments : ∀ path, run.provider.Documents run.workspace run.side versions path →
    d.Produces path)

include hdocuments

theorem provideDirect_keeps (hprovider : run.provider = direct) (metadata : VersionMetadata)
    {stripped : Artifact} (hspace : stripped.space = officialNamespace) :
    (provideDirect run metadata stripped).Keeps d
      (run.provider.Provides run.workspace run.side versions) := by
  rw [hprovider] at hdocuments ⊢
  unfold provideDirect
  split
  · exact .throw (d.ordinary _ rfl)
  rw [hspace]
  refine .andThen (.explain ?_ fun _ => rfl) fun length =>
    .pure ⟨_, rfl, rfl, rfl, rfl, rfl⟩
  exact (hdocuments _ rfl).download _ _

namespace Chained

omit hdocuments in
theorem fileUrl_ordinary (chained : Chained) (coordinate classifier extension : String) :
    Ordinary (chained.fileUrl coordinate classifier extension) := by
  unfold fileUrl
  refine .bind ?_ fun coordinate => .pure _
  unfold Coordinate.parse
  split
  · exact .ok _
  · exact .error rfl

omit hdocuments in
theorem releases_keeps (hnetwork : d.AllowsNetwork) (chained : Chained)
    (layer version doing : String) :
    (chained.releases layer version doing).Keeps d fun releases =>
      ∀ release ∈ releases, d.host.Lists release :=
  (MappingRelease.fetchAll_keeps hnetwork _ _).explain fun _ => rfl

omit hdocuments in
/-- Versions are admitted if all are that the network lists. -/
theorem gives_of_lists (hnetwork : d.AllowsNetwork)
    (hlists : ∀ release, d.host.Lists release → versions release.version) (chained : Chained) :
    chained.Gives d versions :=
  fun _ _ _ => (releases_keeps hnetwork chained _ _ _).weaken fun _ hreleases release hmem =>
    hlists release (hreleases release hmem)

omit hdocuments in
/-- Whatever versions a list gives, they are admitted. -/
theorem gives_any (hnetwork : d.AllowsNetwork) (chained : Chained) : chained.Gives d any :=
  gives_of_lists hnetwork (fun _ _ => trivial) chained

omit hdocuments in
theorem intermediaryRelease_keeps {chained : Chained} (hgives : chained.Gives d versions)
    (version : String) :
    (chained.intermediaryRelease version).Keeps d fun release => versions release.version := by
  unfold intermediaryRelease
  refine (hgives _ _ _).bind fun releases hreleases => ?_
  split
  · exact .pure (hreleases _ List.mem_cons_self)
  · exact .throw (d.ordinary _ rfl)

omit hdocuments in
/-- A download whose failure is looked at afterwards. -/
theorem loaded_keeps {target : Path} (htarget : d.Produces target) (maxAttempts : Int) (url : String) :
    (Action.handle (·.isA .httpFetchError) (fun fault => pure (.error fault))
      (Except.ok <$> Http.download maxAttempts url target)).Keeps d any :=
  .handle (.map (htarget.download _ _).anyway) fun _ _ _ => .pure trivial

section

variable {workspace : Workspace}

omit hdocuments in
theorem fetchFromArchive_keeps (chained : Chained) {release : MappingRelease} {target : Path}
    (htarget : d.Produces target)
    (harchive : d.Produces (workspace.mapping ("intermediary-" ++ release.version ++ "-v2.jar"))) :
    (chained.fetchFromArchive release workspace target).Keeps d any := by
  unfold fetchFromArchive
  refine .andThen (.ofOrdinary (fileUrl_ordinary _ _ _ _)) fun url => ?_
  refine .andThen (.explain (harchive.download _ _) fun _ => rfl) fun length => ?_
  exact (htarget.extract _ _).andThen fun _ => .pure trivial

omit hdocuments in
theorem fetchIntermediary_keeps (chained : Chained) {release : MappingRelease}
    (htarget : d.Produces (workspace.mapping ("intermediary-" ++ release.version ++ ".tiny")))
    (harchive : d.Produces (workspace.mapping ("intermediary-" ++ release.version ++ "-v2.jar")))
    (space : String) :
    (chained.fetchIntermediary release workspace space).Keeps d
      (Plain · intermediaryNamespace
        (workspace.mapping ("intermediary-" ++ release.version ++ ".tiny"))) := by
  unfold fetchIntermediary
  refine .andThen (.ofOrdinary (fileUrl_ordinary _ _ _ _)) fun url => ?_
  refine (loaded_keeps htarget _ _).andThen fun loaded => ?_
  cases loaded with
  | ok length => exact .pure ⟨rfl, rfl, rfl, rfl⟩
  | error fault =>
    refine .bind (.refuse fun _ => d.ordinary _ rfl) fun _ _ => ?_
    exact (fetchFromArchive_keeps chained htarget harchive).andThen fun _ =>
      .pure ⟨rfl, rfl, rfl, rfl⟩

omit hdocuments in
theorem decompressed_keeps {version : String}
    (htarget : d.Produces (decompressedPath workspace version)) {set : MappingSet}
    (hset : Readable set (compressedPath workspace version)) :
    (decompressed workspace set).Keeps d
      (Readable · (decompressedPath workspace version)) := by
  unfold decompressed
  rw [hset.document]
  exact (htarget.gunzip _).andThen fun _ => .pure ⟨hset.name, hset.source, hset.target, rfl⟩

end

variable {metaUrl mavenUrl : String} (hprovider : run.provider = chained metaUrl mavenUrl)

include hprovider

theorem produces_document {version : String} (hversion : versions version) {path : Path}
    (hpath : DocumentOf run.workspace version path) : d.Produces path :=
  hdocuments _ (by rw [hprovider]; exact ⟨version, hversion, hpath⟩)

theorem fetchNamed_keeps {chained : Chained} (hgives : chained.Gives d versions)
    (version : String) :
    (chained.fetchNamed run.workspace version).Keeps d fun result => ∀ set, result = .ok set →
      ∃ version, versions version ∧ Readable set (compressedPath run.workspace version) := by
  unfold fetchNamed
  refine (hgives _ _ _).bind fun releases hreleases => ?_
  split
  · exact .pure (by simp)
  rename_i release hnewest
  have hversion := hreleases release (MappingRelease.newest?_eq_some hnewest).mem
  have htarget := produces_document hdocuments hprovider hversion .compressed
  refine .andThen (.ofOrdinary (fileUrl_ordinary _ _ _ _)) fun url => ?_
  refine (loaded_keeps htarget _ _).andThen fun loaded => ?_
  cases loaded with
  | ok length =>
    refine .pure ?_
    rintro _ ⟨⟩
    exact ⟨release.version, hversion, rfl, rfl, rfl, rfl⟩
  | error fault =>
    exact .bind (.refuse fun _ => d.ordinary _ rfl) fun _ _ => .pure (by simp)

end Chained

theorem provideChained_keeps (hevents : d.AllowsFiles { written := {run.events.path.normal d.here} })
    {metaUrl mavenUrl : String} (hprovider : run.provider = chained metaUrl mavenUrl)
    {services : Chained} (hgives : services.Gives d versions) (stripped : Artifact) :
    (provideChained services run stripped).Keeps d
      (run.provider.Provides run.workspace run.side versions) := by
  unfold provideChained
  refine (Chained.intermediaryRelease_keeps hgives _).bind fun release hversion => ?_
  refine (Chained.fetchIntermediary_keeps services
    (Chained.produces_document hdocuments hprovider hversion .intermediary)
    (Chained.produces_document hdocuments hprovider hversion .archive) _).bind
    fun first hfirst => ?_
  refine (Chained.fetchNamed_keeps hdocuments hprovider hgives _).bind
    fun result hresult => ?_
  rw [hprovider]
  cases result with
  | error fault =>
    exact (Run.emit_keeps hevents _ _ _).andThen fun _ =>
      .pure ⟨first, release.version, hversion, hfirst, .inl rfl⟩
  | ok second =>
    obtain ⟨version, hnamed, hsecond⟩ := hresult second rfl
    have htarget := Chained.produces_document hdocuments hprovider hnamed .decompressed
    exact (Chained.decompressed_keeps htarget hsecond).bind fun plain hplain =>
      .pure ⟨first, release.version, hversion, hfirst, .inr ⟨plain, version, rfl, hnamed, hplain⟩⟩

theorem provide_keeps (hevents : d.AllowsFiles { written := {run.events.path.normal d.here} })
    (hgives : ∀ metaUrl mavenUrl, run.provider = chained metaUrl mavenUrl →
      Chained.Gives d versions ⟨metaUrl, mavenUrl, run.maxAttempts⟩)
    (hfixed : ∀ word sets, run.provider ≠ fixed word sets)
    (hstripped : ∀ world, d.inv world → ∀ artifact, world.state.stripped = some artifact →
      artifact.space = officialNamespace) :
    (provide run).Keeps d (run.provider.Provides run.workspace run.side versions) := by
  unfold provide
  refine Run.handed_keeps.bind fun state hstate => ?_
  obtain ⟨world, hinv, rfl⟩ := hstate
  split
  · rename_i metadata stripped hprovider _ hartifact
    exact provideDirect_keeps hdocuments hprovider metadata
      (hstripped world hinv stripped hartifact)
  · exact .throw (d.ordinary _ rfl)
  · rename_i metaUrl mavenUrl stripped hprovider _
    exact provideChained_keeps hdocuments hevents hprovider (hgives _ _ hprovider) stripped
  · exact .throw (d.ordinary _ rfl)
  · rename_i word sets hprovider
    exact absurd hprovider (hfixed word sets)

end MappingProvider

/-! ### The chain of a run -/

theorem MappingSet.checkLinks_ordinary (space : String) (sets : List MappingSet) :
    Ordinary (checkLinks space sets) := by
  induction sets generalizing space with
  | nil => exact .ok _
  | cons set rest ih =>
    unfold checkLinks
    split
    · exact ih set.target
    · exact .error rfl

theorem MappingSet.checkChain_ordinary (sets : List MappingSet) (space : String) :
    Ordinary (checkChain sets space) := by
  unfold checkChain
  split
  · exact checkLinks_ordinary space sets
  · exact .error rfl

/-- The set leads from one namespace to another, for which it is named. -/
structure MappingSet.Maps (set : MappingSet) (from_ to_ : String) : Prop where
  source : set.source = from_
  target : set.target = to_
  name : set.name = to_

/-- The mapping sets that a run of a provider goes through, each from where the one before led. -/
def MappingProvider.Chain : MappingProvider → List MappingSet → Prop
  | direct, sets => ∃ set, sets = [set] ∧ set.Maps officialNamespace namedNamespace
  | chained _ _, sets => ∃ first, first.Maps officialNamespace intermediaryNamespace ∧
    (sets = [first] ∨ ∃ second, sets = [first, second] ∧
      second.Maps intermediaryNamespace namedNamespace)
  | fixed _ _, _ => False

theorem MappingSet.source_of_checkChain {set : MappingSet} {rest : List MappingSet}
    {space : String} (hchain : checkChain (set :: rest) space = .ok ()) : set.source = space := by
  unfold checkChain at hchain
  split at hchain
  · unfold checkLinks at hchain
    split at hchain
    · assumption
    · simp at hchain
  · simp at hchain

/-- What a provider comes to is a chain once it begins in the official names. -/
theorem MappingProvider.Provides.chain {workspace : Workspace} {side : String}
    {versions : String → Prop} {provider : MappingProvider} {sets : List MappingSet} (hfixed : ∀ word sets, provider ≠ fixed word sets)
    (hprovides : provider.Provides workspace side versions sets)
    (hchain : MappingSet.checkChain sets officialNamespace = .ok ()) : provider.Chain sets := by
  cases provider with
  | direct =>
    obtain ⟨set, rfl, hset⟩ := hprovides
    exact ⟨set, rfl, MappingSet.source_of_checkChain hchain, hset.target, hset.name⟩
  | chained metaUrl mavenUrl =>
    obtain ⟨first, _, -, hfirst, rfl | ⟨second, version, rfl, -, hsecond⟩⟩ := hprovides
    · exact ⟨first, ⟨MappingSet.source_of_checkChain hchain, hfirst.target, hfirst.name⟩, .inl rfl⟩
    · exact ⟨first, ⟨MappingSet.source_of_checkChain hchain, hfirst.target, hfirst.name⟩,
        .inr ⟨second, rfl, hsecond.source, hsecond.target, hsecond.name⟩⟩
  | fixed word sets => exact absurd rfl (hfixed word sets)

/-- Another document for the same pass. -/
structure SamePass (set other : MappingSet) : Prop where
  name : other.name = set.name
  source : other.source = set.source
  target : other.target = set.target

theorem MappingSet.Maps.samePass {set other : MappingSet} {from_ to_ : String}
    (hmaps : set.Maps from_ to_) (hsame : SamePass set other) : other.Maps from_ to_ :=
  ⟨hsame.source.trans hmaps.source, hsame.target.trans hmaps.target, hsame.name.trans hmaps.name⟩

theorem MappingProvider.Chain.samePass {provider : MappingProvider} {sets others : List MappingSet}
    (hchain : provider.Chain sets) (hsame : List.Forall₂ SamePass sets others) :
    provider.Chain others := by
  cases provider with
  | direct =>
    obtain ⟨set, rfl, hmaps⟩ := hchain
    cases hsame with | cons hset hrest =>
    cases hrest
    exact ⟨_, rfl, hmaps.samePass hset⟩
  | chained metaUrl mavenUrl =>
    obtain ⟨first, hfirst, rfl | ⟨second, rfl, hsecond⟩⟩ := hchain
    · cases hsame with | cons hset hrest =>
      cases hrest
      exact ⟨_, hfirst.samePass hset, .inl rfl⟩
    · cases hsame with | cons hset hrest =>
      cases hrest with | cons hset' hrest =>
      cases hrest
      exact ⟨_, hfirst.samePass hset, .inr ⟨_, rfl, hsecond.samePass hset'⟩⟩
  | fixed word sets => exact hchain.elim

/-- The outputs of the passes have one of two names. -/
theorem MappingProvider.Chain.name_eq {provider : MappingProvider} {sets : List MappingSet}
    (hchain : provider.Chain sets) {set : MappingSet} (hset : set ∈ sets) :
    set.name = intermediaryNamespace ∨ set.name = namedNamespace := by
  cases provider with
  | direct =>
    obtain ⟨only, rfl, hmaps⟩ := hchain
    obtain rfl := List.mem_singleton.mp hset
    exact .inr hmaps.name
  | chained metaUrl mavenUrl =>
    obtain ⟨first, hfirst, rfl | ⟨second, rfl, hsecond⟩⟩ := hchain
    · obtain rfl := List.mem_singleton.mp hset
      exact .inl hfirst.name
    · obtain rfl | rfl : set = first ∨ set = second := by simpa using hset
      · exact .inl hfirst.name
      · exact .inr hsecond.name
  | fixed word sets => exact hchain.elim

/-- The outputs of the passes have different names. -/
theorem MappingProvider.Chain.nodup {provider : MappingProvider} {sets : List MappingSet}
    (hchain : provider.Chain sets) : (sets.map (·.name)).Nodup := by
  cases provider with
  | direct =>
    obtain ⟨only, rfl, hmaps⟩ := hchain
    simp
  | chained metaUrl mavenUrl =>
    obtain ⟨first, hfirst, rfl | ⟨second, rfl, hsecond⟩⟩ := hchain
    · simp
    · have hne : intermediaryNamespace ≠ namedNamespace := by decide
      simpa [hfirst.name, hsecond.name] using hne
  | fixed word sets => exact hchain.elim

end JarRefinery
