import JarRefinery.Proofs.Contents
import JarRefinery.Proofs.EventLog

/-!
# The layer of readable names

Chained mappings go on to readable names unless these do not exist. They do not if no release is
listed for the version or the file of the newest one is not found. Then there is one event of that
and one mapping; else there is a second mapping, from what was just downloaded, or a fault.
-/

namespace JarRefinery

open Action (any)

namespace Http

/-- The client's own faults come from the client. -/
def Foreign (fault : Fault) : Prop :=
  fault.isA .httpFetchError = false

/-- The final answer was that the address does not exist. -/
def Missing (url : String) (fault : Fault) : Prop :=
  ∃ body, fault = .badStatus url 404 body

variable {host : Host} (hnetwork : FailsWith host Foreign)

theorem Misdirected.foreign {fault : Fault} (hfault : Misdirected fault) : Foreign fault := by
  cases hfault <;> rfl

theorem foreign_ofFile (error : FileError) : Foreign (.ofFile error) := by
  obtain error | _ := error
  · obtain ⟨code, _⟩ := error
    cases code <;> rfl
  · rfl

theorem FetchFault.missing_iff {url : String} {fault : Fault} (hfault : FetchFault url Foreign fault) :
    (fault.isA .httpFetchError = true ∧ fault.isNotFound = true) ↔ Missing url fault := by
  constructor
  · rintro ⟨hclient, hnot⟩
    cases hfault with
    | status code body =>
      obtain rfl : code = 404 := by simpa [Fault.isNotFound] using hnot
      exact ⟨body, rfl⟩
    | retries attempts last => cases hnot
    | other hforeign _ => exact absurd (hclient.symm.trans hforeign) (by decide)
  · rintro ⟨body, rfl⟩
    exact ⟨rfl, rfl⟩

include hnetwork

theorem getJson_foreign (maxAttempts : Int) (url : String) :
    (getJson maxAttempts url).Yields host any (FetchFault url Foreign) := by
  refine fetch_yields hnetwork (fun _ hfault => hfault.misdirected.foreign) (fun response hbreaks => ?_) _ _
  refine hbreaks.read_yields.andThen fun body => ?_
  refine .andThen (.ofExcept (fun _ _ => trivial) fun _ _ => rfl) fun chars => ?_
  exact .ofExcept (fun _ _ => trivial) fun error _ => by cases error <;> rfl

theorem download_foreign (maxAttempts : Int) (url : String) (target : Path) :
    (download maxAttempts url target).Yields host any (FetchFault url Foreign) :=
  download_yields hnetwork (fun _ hfault => hfault.misdirected.foreign) foreign_ofFile _ _ _

end Http

/-- Only from an empty list there are no releases. -/
theorem MappingRelease.eq_of_ofList_nil {url : String} {json : Json}
    (hnone : ofList url json = .ok []) : json = .list [] := by
  unfold ofList at hnone
  split at hnone
  · rename_i items
    cases items with
    | nil => rfl
    | cons item rest =>
      rw [List.mapM_cons] at hnone
      cases hitem : (ofJson item).mapError Fault.schema with
      | error fault => simp [bind, Except.bind, hitem] at hnone
      | ok release =>
        cases hrest : rest.mapM fun item => (ofJson item).mapError Fault.schema <;>
          simp [bind, Except.bind, pure, Except.pure, hitem, hrest] at hnone
  · cases hnone

namespace MappingProvider.Chained

variable {chained : Chained} {workspace : Workspace} {version : String} {host : Host}

/-- The layer of readable names does not exist: looking for it ends in the world `after`, with this
message. -/
inductive Absent (chained : Chained) (workspace : Workspace) (version : String) (host : Host)
    (world : World) : String → World → Prop
  | unlisted {fault : Fault} {after : World} :
    (Http.getJson chained.maxAttempts (chained.releasesUrl "yarn" version)).eval host world =
      (.error fault, after) →
    Http.Missing (chained.releasesUrl "yarn" version) fault →
    Absent chained workspace version host world ("No named mapping release for " ++ version) after
  | empty {after : World} :
    (Http.getJson chained.maxAttempts (chained.releasesUrl "yarn" version)).eval host world =
      (.ok (.list []), after) →
    Absent chained workspace version host world ("No named mapping release for " ++ version) after
  | unpublished {json : Json} {releases : List MappingRelease} {release : MappingRelease}
    {url : String} {fault : Fault} {listed after : World} :
    (Http.getJson chained.maxAttempts (chained.releasesUrl "yarn" version)).eval host world =
      (.ok json, listed) →
    MappingRelease.ofList (chained.releasesUrl "yarn" version) json = .ok releases →
    release.Newest releases → chained.fileUrl release.coordinate "tiny" "gz" = .ok url →
    (Http.download chained.maxAttempts url (compressedPath workspace release.version)).eval host
      listed = (.error fault, after) →
    Http.Missing url fault →
    Absent chained workspace version host world ("Named mappings not published at " ++ url) after

/-- What a list of releases comes to: what was listed, or nothing if there is no list. -/
theorem eval_releases_iff {layer doing : String} {world after : World}
    {releases : List MappingRelease} :
    (chained.releases layer version doing).eval host world = (.ok releases, after) ↔
      (∃ fault, (Http.getJson chained.maxAttempts (chained.releasesUrl layer version)).eval host
          world = (.error fault, after) ∧
        (fault.isA .httpFetchError = true ∧ fault.isNotFound = true) ∧ releases = []) ∨
      ∃ json, (Http.getJson chained.maxAttempts (chained.releasesUrl layer version)).eval host
          world = (.ok json, after) ∧
        MappingRelease.ofList (chained.releasesUrl layer version) json = .ok releases := by
  have hnone : ∀ url, MappingRelease.ofList url (.list []) = .ok [] := fun _ => rfl
  unfold Chained.releases MappingRelease.fetchAll
  rw [Action.eval_explain, Action.eval_bind, Action.eval_handle]
  rcases (Http.getJson chained.maxAttempts (chained.releasesUrl layer version)).eval host world
    with ⟨fault | json, listed⟩
  · by_cases hmissing : fault.isA .httpFetchError = true ∧ fault.isNotFound = true
    · have hanswers : (fault.isA .httpFetchError && fault.isNotFound) = true := by
        simpa using hmissing
      simp only [hanswers, if_true, Action.eval_pure, Action.eval_ofResult, hnone]
      constructor
      · rintro ⟨⟩
        exact .inl ⟨fault, rfl, hmissing, rfl⟩
      · rintro (⟨_, ⟨⟨⟩⟩, -, rfl⟩ | ⟨_, ⟨⟨⟩⟩, -⟩)
        rfl
    · have hanswers : (fault.isA .httpFetchError && fault.isNotFound) = false := by
        simpa using hmissing
      simp only [hanswers]
      constructor
      · rintro ⟨⟩
      · rintro (⟨_, ⟨⟨⟩⟩, hother, -⟩ | ⟨_, ⟨⟨⟩⟩, -⟩)
        exact absurd hother hmissing
  · simp only [Action.eval_ofResult]
    rcases hfound : MappingRelease.ofList (chained.releasesUrl layer version) json with fault | found
    · constructor
      · rintro ⟨⟩
      · rintro (⟨_, ⟨⟨⟩⟩, -⟩ | ⟨_, ⟨⟨⟩⟩, hother⟩)
        cases hfound.symm.trans hother
    · constructor
      · rintro ⟨⟩
        exact .inr ⟨json, rfl, hfound⟩
      · rintro (⟨_, ⟨⟨⟩⟩, -⟩ | ⟨_, ⟨⟨⟩⟩, hother⟩)
        rw [Except.ok.inj (hfound.symm.trans hother)]

/-- The file of the newest release that was listed was downloaded, with this body. -/
inductive Downloaded (chained : Chained) (workspace : Workspace) (version : String) (host : Host)
    (world : World) (release : MappingRelease) (body : Bytes) (after : World) : Prop
  | published {json : Json} {releases : List MappingRelease} {url : String} {length : Nat}
    {listed : World} :
    (Http.getJson chained.maxAttempts (chained.releasesUrl "yarn" version)).eval host world =
      (.ok json, listed) →
    MappingRelease.ofList (chained.releasesUrl "yarn" version) json = .ok releases →
    release.Newest releases → chained.fileUrl release.coordinate "tiny" "gz" = .ok url →
    (Http.download chained.maxAttempts url (compressedPath workspace release.version)).eval host
      listed = (.ok length, after) →
    Http.Brought host url listed body after →
    Downloaded chained workspace version host world release body after

/-- Without the layer there is only the fault that tells of it. -/
theorem Absent.eval_fetchNamed {world after : World} {message : String}
    (habsent : Absent chained workspace version host world message after) :
    (chained.fetchNamed workspace version).eval host world =
      (.ok (.error (.of .mappingUnavailable message)), after) := by
  unfold fetchNamed
  cases habsent with
  | unlisted hlist hmissing =>
    obtain ⟨body, rfl⟩ := hmissing
    rw [Action.eval_bind_ok (eval_releases_iff.mpr (.inl ⟨_, hlist, ⟨rfl, rfl⟩, rfl⟩))]
    rfl
  | empty hlist =>
    rw [Action.eval_bind_ok (eval_releases_iff.mpr (.inr ⟨_, hlist, rfl⟩))]
    rfl
  | unpublished hlist hreleases hnewest hurl hdownload hmissing =>
    obtain ⟨body, rfl⟩ := hmissing
    rw [Action.eval_bind_ok (eval_releases_iff.mpr (.inr ⟨_, hlist, hreleases⟩)),
      MappingRelease.newest?_eq_some_iff.mpr hnewest]
    dsimp only
    rw [hurl, Action.eval_bind_ok (Action.eval_ofResult _ _ _), Action.eval_bind,
      Action.eval_caught]
    unfold compressedPath at hdownload
    rw [hdownload]
    rfl

section

variable (hnetwork : Http.FailsWith host Http.Foreign)

include hnetwork

/-- Without a newest release there is no list of them, or an empty one. -/
theorem Absent.of_eval_releases {doing : String} {world after : World}
    {releases : List MappingRelease}
    (heval : (chained.releases "yarn" version doing).eval host world = (.ok releases, after))
    (hnone : MappingRelease.newest? releases = none) :
    Absent chained workspace version host world ("No named mapping release for " ++ version) after := by
  have hempty : releases = [] := by
    cases releases with
    | nil => rfl
    | cons first rest => cases hnone
  rcases eval_releases_iff.mp heval with ⟨fault, hlist, hnot, -⟩ | ⟨json, hlist, hof⟩
  · have hfault := (Http.getJson_foreign hnetwork _ _).fault hlist
    exact .unlisted hlist (hfault.missing_iff.mp hnot)
  · subst hempty
    rw [MappingRelease.eq_of_ofList_nil hof] at hlist
    exact .empty hlist

/-- What comes of looking for the layer, if it does not end in a fault. -/
theorem of_eval_fetchNamed {world after : World} (hrooted : ".." ∉ world.files.here)
    {result : Except Fault MappingSet}
    (heval : (chained.fetchNamed workspace version).eval host world = (.ok result, after)) :
    (∃ message, result = .error (.of .mappingUnavailable message) ∧
        Absent chained workspace version host world message after) ∨
      ∃ set release body mode, result = .ok set ∧
        set.path = compressedPath workspace release.version ∧
        Downloaded chained workspace version host world release body after ∧
        after.files.node? (set.path.normal world.files.here) = some (.file body mode) := by
  unfold fetchNamed at heval
  obtain ⟨releases, listed, hreleases, heval⟩ := Action.of_eval_bind_ok heval
  cases hnewest : MappingRelease.newest? releases with
  | none =>
    rw [hnewest] at heval
    obtain ⟨hresult, rfl⟩ := Prod.mk.inj heval
    obtain rfl := Except.ok.inj hresult
    exact .inl ⟨_, rfl, .of_eval_releases hnetwork hreleases hnewest⟩
  | some release =>
    rw [hnewest] at heval
    rw [MappingRelease.newest?_eq_some_iff] at hnewest
    obtain ⟨json, hlist, hof⟩ := (eval_releases_iff.mp hreleases).resolve_left
      fun ⟨_, _, _, hnone⟩ => absurd hnewest.mem (by simp [hnone])
    obtain ⟨url, _, hurl, heval⟩ := Action.of_eval_bind_ok heval
    rw [Action.eval_ofResult, Prod.mk.injEq] at hurl
    obtain ⟨hurl, rfl⟩ := hurl
    obtain ⟨loaded, fetched, hloaded, heval⟩ := Action.of_eval_bind_ok heval
    obtain ⟨hdownload, hanswered⟩ := Action.of_eval_caught_ok hloaded
    cases loaded with
    | error fault =>
      have hfault := (Http.download_foreign hnetwork _ _ _).fault hdownload
      obtain ⟨_, _, hrefuse, hpure⟩ := Action.of_eval_bind_ok heval
      obtain ⟨hnot, rfl⟩ := Action.of_eval_refuse_ok hrefuse
      obtain ⟨hresult, rfl⟩ := Prod.mk.inj hpure
      obtain rfl := Except.ok.inj hresult
      have hmissing := hfault.missing_iff.mp ⟨hanswered fault rfl, by simpa using hnot⟩
      exact .inl ⟨_, rfl, .unpublished hlist hof hnewest hurl hdownload hmissing⟩
    | ok length =>
      obtain ⟨hresult, rfl⟩ := Prod.mk.inj heval
      obtain rfl := Except.ok.inj hresult
      have hhere : listed.files.here = world.files.here := by
        have hkeeps : (chained.releases "yarn" version "Cannot query named mapping releases").Keeps
            (.asking host world.files.here) any :=
          (releases_keeps Discipline.asking.allowsNetwork _ _ _ _).anyway
        exact (congrArg (·.2.files.here) hreleases).symm.trans (hkeeps.here rfl trivial)
      obtain ⟨body, mode, hbrought, hnode⟩ := Http.of_eval_download_ok (hhere ▸ hrooted) hdownload
      exact .inr ⟨_, release, body, mode, rfl, rfl,
        .published hlist hof hnewest hurl hdownload hbrought, hhere ▸ hnode⟩

end

end MappingProvider.Chained

/-! ### What the event log is told -/

namespace MappingProvider

open Pipeline

variable {run : Run} {metaUrl mavenUrl : String} {stripped : Artifact} {host : Host}
  {world found ready : World} {release : MappingRelease} {first : MappingSet}

/-- The event that the layer of readable names does not exist. -/
def missingLayer (run : Run) (message : String) : Event :=
  ⟨"mappings.layer.missing", run.id, .text "mappings",
    [("layer", .text namedNamespace), ("message", .text message)]⟩

/-- The document of a second set: what was just downloaded of the newest release, decompressed. -/
inductive Unpacked (chained : Chained) (run : Run) (host : Host) (world : World) (set : MappingSet)
    (ending : World) : Prop
  | decompressed {release : MappingRelease} {body content : Bytes} {downloaded : World}
    {mode : Nat} :
    Chained.Downloaded chained run.workspace run.version host world release body downloaded →
    Gzip.decompress body = .ok content →
    set.path = Chained.decompressedPath run.workspace release.version →
    ending.files.node? (set.path.normal world.files.here) = some (.file content mode) →
    Unpacked chained run host world set ending

section Provide

variable (hprovider : run.provider = chained metaUrl mavenUrl)
  (hstripped : world.state.stripped = some stripped)
  (hrelease : (Chained.intermediaryRelease ⟨metaUrl, mavenUrl, run.maxAttempts⟩ run.version).eval
    host world = (.ok release, found))
  (hfirst : (Chained.fetchIntermediary ⟨metaUrl, mavenUrl, run.maxAttempts⟩ release run.workspace
    stripped.space).eval host found = (.ok first, ready))

include hprovider hstripped hrelease hfirst

/-- Once there is a first set, it only remains to look for the layer of readable names. -/
theorem eval_provide : (provide run).eval host world =
    (do match ← Chained.fetchNamed ⟨metaUrl, mavenUrl, run.maxAttempts⟩ run.workspace run.version with
        | .error fault =>
          run.events.append (missingLayer run fault.message)
          pure [first]
        | .ok second =>
          let second ← Chained.decompressed run.workspace second
          pure [first, second] : Action (List MappingSet)).eval host ready := by
  have hhanded : (Run.handed).eval host world = (.ok world.state, world) := rfl
  unfold provide
  rw [Action.eval_bind_ok hhanded, hprovider, hstripped]
  unfold provideChained
  simp only
  rw [Action.eval_bind_ok hrelease, Action.eval_bind_ok hfirst]
  rfl

variable (hfits : Fits run) (hkept : Kept run world.files) (hrooted : ".." ∉ world.files.here)

include hfits hrooted

omit hstripped hrelease hfirst in
variable (host) in
theorem silent_producesDocuments (path : Path)
    (hpath : run.provider.Documents run.workspace run.side any path) :
    (silent host world.files.here run).Produces path := by
  rw [hprovider] at hpath
  obtain ⟨version, -, hdocument⟩ := hpath
  exact silent.produces hrooted hfits (hdocument.ne_events hfits _)

omit hstripped hrelease hfirst in
variable (host) in
/-- Looking for the layer of readable names leaves the event log as it is. -/
theorem silent_fetchNamed :
    (Chained.fetchNamed ⟨metaUrl, mavenUrl, run.maxAttempts⟩ run.workspace run.version).Keeps
      (silent host world.files.here run) fun result => ∀ set, result = .ok set →
        ∃ version : String, any version ∧
          Readable set (Chained.compressedPath run.workspace version) :=
  Chained.fetchNamed_keeps
    (silent_producesDocuments host hprovider hfits hrooted) hprovider
    (Chained.gives_any silent.allowsNetwork _) run.version

include hkept

omit hstripped in
/-- Getting the first set does so too. -/
theorem silent_first : (silent host world.files.here run).Ready ready ∧
    (silent host world.files.here run).step world ready := by
  have hready : (silent host world.files.here run).Ready world := ⟨rfl, hkept⟩
  have hgives : Chained.Gives (silent host world.files.here run) any
      ⟨metaUrl, mavenUrl, run.maxAttempts⟩ := Chained.gives_any silent.allowsNetwork _
  obtain ⟨hlisted, hstep⟩ := hready.evaluated
    (Chained.intermediaryRelease_keeps hgives run.version) hrelease
  have hproduces : ∀ path, Chained.DocumentOf run.workspace release.version path →
      (silent host world.files.here run).Produces path := fun path hpath =>
    Chained.produces_document (silent_producesDocuments host hprovider hfits hrooted) hprovider
      trivial hpath
  obtain ⟨hgot, hstep'⟩ := hlisted.evaluated (Chained.fetchIntermediary_keeps _
    (hproduces _ .intermediary) (hproduces _ .archive) stripped.space) hfirst
  exact ⟨hgot, (silent host world.files.here run).trans hstep hstep'⟩

/-- Without the layer of readable names there is one set, and one event of that. -/
theorem provide_of_absent {message : String} {after : World}
    (habsent : Chained.Absent ⟨metaUrl, mavenUrl, run.maxAttempts⟩ run.workspace run.version host
      ready message after) :
    ((provide run).eval host world).1 = .ok [first] ∧ ∃ contents mode,
      world.files.node? (run.events.path.normal world.files.here) = some (.file contents mode) ∧
      ((provide run).eval host world).2.files.node? (run.events.path.normal world.files.here) =
        some (.file (contents ++ line host (missingLayer run message)) mode) := by
  obtain ⟨hready, hstep⟩ := silent_first hprovider hrelease hfirst hfits hkept hrooted
  obtain ⟨hafter, hstep'⟩ := hready.evaluated (silent_fetchNamed host hprovider hfits hrooted)
    habsent.eval_fetchNamed
  have hsame := ((silent host world.files.here run).trans hstep hstep').2
  obtain ⟨contents, mode, hnode, happend⟩ := hafter.inv.eval_append hfits host
    (missingLayer run message)
  rw [hafter.here] at hnode happend
  have hending : (provide run).eval host world = (.ok [first], { after with
      files := after.files.put (run.events.path.normal world.files.here)
        (.file (contents ++ line host (missingLayer run message)) mode) }) := by
    rw [eval_provide hprovider hstripped hrelease hfirst,
      Action.eval_bind_ok habsent.eval_fetchNamed]
    exact Action.eval_bind_ok happend
  rw [hending]
  refine ⟨rfl, contents, mode, hsame.symm.trans hnode, ?_⟩
  rw [FileTree.node?_put, if_neg (by simp [hfits.normal_events]), if_pos rfl]

/-- With the layer of readable names there are two sets or a fault, and no event. -/
theorem provide_of_not_absent (hnetwork : Http.FailsWith host Http.Foreign)
    (hthere : ¬∃ message after, Chained.Absent ⟨metaUrl, mavenUrl, run.maxAttempts⟩ run.workspace
      run.version host ready message after) :
    ((provide run).eval host world).2.files.node? (run.events.path.normal world.files.here) =
      world.files.node? (run.events.path.normal world.files.here) ∧
    ((∃ fault, ((provide run).eval host world).1 = .error fault) ∨
      ∃ second, ((provide run).eval host world).1 = .ok [first, second] ∧
        Unpacked ⟨metaUrl, mavenUrl, run.maxAttempts⟩ run host ready second
          ((provide run).eval host world).2) := by
  obtain ⟨hready, hstep⟩ := silent_first hprovider hrelease hfirst hfits hkept hrooted
  have hkeeps := silent_fetchNamed host hprovider hfits hrooted
  rw [eval_provide hprovider hstripped hrelease hfirst, Action.eval_bind]
  rcases hnamed : (Chained.fetchNamed ⟨metaUrl, mavenUrl, run.maxAttempts⟩ run.workspace
    run.version).eval host ready with ⟨fault | result, downloaded⟩
  · obtain ⟨-, hstep'⟩ := hready.evaluated hkeeps hnamed
    exact ⟨((silent host world.files.here run).trans hstep hstep').2, .inl ⟨fault, rfl⟩⟩
  obtain ⟨hdownloaded, hstep'⟩ := hready.evaluated hkeeps hnamed
  have hhere : ready.files.here = world.files.here := hready.here
  rcases Chained.of_eval_fetchNamed hnetwork (hhere ▸ hrooted) hnamed with
    ⟨message, -, habsent⟩ | ⟨set, release, body, mode, rfl, hpath, hdownload, hbody⟩
  · exact absurd ⟨message, downloaded, habsent⟩ hthere
  obtain ⟨version, -, hset⟩ := hkeeps.value hready.here hready.inv hnamed set rfl
  have hdocuments := silent_producesDocuments host hprovider hfits hrooted
  have hplain := Chained.decompressed_keeps
    (Chained.produces_document hdocuments hprovider trivial .decompressed) hset
  simp only
  rw [Action.eval_bind]
  rcases hunpack : (Chained.decompressed run.workspace set).eval host downloaded
    with ⟨fault | plain, unpacked⟩
  · obtain ⟨-, hstep''⟩ := hdownloaded.evaluated hplain hunpack
    exact ⟨((silent host world.files.here run).trans hstep
      ((silent host world.files.here run).trans hstep' hstep'')).2, .inl ⟨fault, rfl⟩⟩
  obtain ⟨-, hstep''⟩ := hdownloaded.evaluated hplain hunpack
  refine ⟨((silent host world.files.here run).trans hstep
    ((silent host world.files.here run).trans hstep' hstep'')).2, .inr ⟨plain, rfl, ?_⟩⟩
  unfold Chained.decompressed at hunpack
  obtain ⟨path, gunzipped, hgunzip, hpure⟩ := Action.of_eval_bind_ok hunpack
  obtain ⟨hplain, rfl⟩ := Prod.mk.inj hpure
  obtain rfl := Except.ok.inj hplain
  have hhere' : downloaded.files.here = world.files.here := hdownloaded.here
  rw [hhere, ← hhere'] at hbody
  obtain ⟨content, mode', hcontent, hnode⟩ := Mapping.of_eval_gunzip_ok (hhere' ▸ hrooted) hgunzip
    hbody
  refine .decompressed hdownload hcontent ?_ (by rw [hhere, ← hhere']; exact hnode)
  simp only [hpath, Chained.decompressedPath]

end Provide

/-! ### A small service -/

/-- A service with a mapping to intermediary names for one version, and none to readable names. -/
def smallService : Host :=
  { Host.idle with
    network := fun _ address =>
      if address = "http://m/v2/versions/intermediary/1.0" then
        .response 200 none
          (Text.Utf8.encode "[\x7b\"maven\": \"g:a:1\", \"version\": \"1.0\"\x7d]") none
      else if address = "http://r/g/a/1/a-1.tiny" then .response 200 none [] none
      else .response 404 none [] none }

def smallRun : Run :=
  Request.plain.runWith (.chained "http://m" "http://r")

def smallChained : Chained :=
  ⟨"http://m", "http://r", smallRun.maxAttempts⟩

/-- The run has an event log, and a jar to map. -/
def smallWorld : World where
  files := ⟨[(["work"], .directory), (["work", "ws"], .directory),
    (["work", "ws", "runs"], .directory), (["work", "ws", "runs", "run0"], .directory),
    (["work", "ws", "runs", "run0", "events.jsonl"], .file [] 0o644)], ["work"]⟩
  state := { stripped := some ⟨"stripped", ⟨"", ["ws", "server-stripped.jar"]⟩, officialNamespace⟩ }

def smallRelease : MappingRelease :=
  ⟨"g:a:1", "1.0", none, none⟩

def smallSet : MappingSet :=
  ⟨intermediaryNamespace, ⟨"", ["ws", "mappings", "intermediary-1.0.tiny"]⟩, officialNamespace,
    intermediaryNamespace, .tiny, false⟩

theorem smallService_answers : Http.FailsWith smallService Http.Foreign := by
  refine .of_whole fun past address => ?_
  simp only [smallService]
  split
  · exact ⟨_, _, _, rfl⟩
  · split <;> exact ⟨_, _, _, rfl⟩

theorem smallRun_fits : Fits smallRun :=
  ⟨rfl, by decide, by decide, by decide +kernel, by decide +kernel⟩

theorem smallRun_kept : Kept smallRun smallWorld.files := by
  have hparts : (runDirectory smallRun.workspace smallRun.id).parts = ["ws", "runs", "run0"] := by
    decide +kernel
  refine ⟨⟨⟨by decide +kernel, by decide +kernel, ?_⟩, by decide +kernel⟩, [], 0o644,
    by decide +kernel⟩
  rw [hparts]
  exact ⟨by decide +kernel, .inr (by decide), by decide +kernel, .inr (by decide),
    by decide +kernel, .inr (by decide), trivial⟩

theorem smallService_steps : ∃ found ready after,
    (smallChained.intermediaryRelease smallRun.version).eval smallService smallWorld =
      (.ok smallRelease, found) ∧
    (smallChained.fetchIntermediary smallRelease smallRun.workspace officialNamespace).eval
      smallService found = (.ok smallSet, ready) ∧
    (Http.getJson smallChained.maxAttempts (smallChained.releasesUrl "yarn" smallRun.version)).eval
      smallService ready =
      (.error (.badStatus (smallChained.releasesUrl "yarn" smallRun.version) 404 ""), after) :=
  ⟨_, _, _, Action.eq_of_value (by decide +kernel), Action.eq_of_value (by decide +kernel),
    Action.eq_of_fault (by decide +kernel)⟩

end MappingProvider

end JarRefinery
