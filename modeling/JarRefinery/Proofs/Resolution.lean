import JarRefinery.Proofs.Documents
import JarRefinery.Release.Resolve

/-!
# Resolving a version

The manifest is loaded, then the metadata of the entry that the version selects in it. Each way that
this can fail has its own fault, and nothing is asked for but the two documents.
-/

namespace JarRefinery.ReleaseSource

open Http (Delivered Visits asked)

variable {α : Type} {host : Host} {source : ReleaseSource} {version : String} {maxAttempts : Int}

/-! ### Selecting an entry -/

/-- The version is looked up under `id`: that which the manifest declares if it is a word for a latest
version. -/
inductive Wanted (manifest : VersionManifest) : (version id : String) → Prop
  | release {id : String} : manifest.latest.release = some id → id ≠ "" → Wanted manifest "latest" id
  | snapshot {id : String} : manifest.latest.snapshot = some id → id ≠ "" →
    Wanted manifest "snapshot" id
  | itself {version : String} : version ≠ "latest" → version ≠ "snapshot" →
    Wanted manifest version version

/-- The first entry with the id that the version is looked up under. -/
def Selected (manifest : VersionManifest) (version : String) (entry : VersionEntry) : Prop :=
  ∃ id before after, Wanted manifest version id ∧ manifest.versions = before ++ entry :: after ∧
    entry.id = id ∧ ∀ other ∈ before, other.id ≠ id

/-- There is no id to look for, or no entry has it. -/
def Unlisted (manifest : VersionManifest) (version : String) : Prop :=
  ∀ id, Wanted manifest version id → ∀ entry ∈ manifest.versions, entry.id ≠ id

theorem wantedId_of_alias {manifest : VersionManifest} {declared : Option String} {id : String}
    (halias : alias? manifest version = some declared) :
    wantedId manifest version = .ok id ↔ declared = some id ∧ id ≠ "" := by
  unfold wantedId
  rw [halias]
  rcases declared with _ | declared
  · simp
  dsimp only
  rw [Option.getD_some]
  by_cases hempty : declared = ""
  · subst hempty
    rw [if_pos (by decide)]
    simp +contextual [eq_comm]
  · rw [if_neg (by simpa using hempty), Except.ok.injEq, Option.some.injEq]
    exact ⟨by rintro rfl; exact ⟨rfl, hempty⟩, And.left⟩

theorem wantedId_ok_iff {manifest : VersionManifest} {id : String} :
    wantedId manifest version = .ok id ↔ Wanted manifest version id := by
  constructor
  · intro hwanted
    by_cases hlatest : version = "latest"
    · subst hlatest
      obtain ⟨hrelease, hne⟩ := (wantedId_of_alias rfl).mp hwanted
      exact .release hrelease hne
    by_cases hsnapshot : version = "snapshot"
    · subst hsnapshot
      obtain ⟨hsnapshot, hne⟩ := (wantedId_of_alias rfl).mp hwanted
      exact .snapshot hsnapshot hne
    · have hplain : alias? manifest version = none := by simp [alias?, hlatest, hsnapshot]
      unfold wantedId at hwanted
      rw [hplain] at hwanted
      obtain rfl := Except.ok.inj hwanted
      exact .itself hlatest hsnapshot
  · rintro (⟨hrelease, hne⟩ | ⟨hsnapshot, hne⟩ | ⟨hlatest, hsnapshot⟩)
    · exact (wantedId_of_alias rfl).mpr ⟨hrelease, hne⟩
    · exact (wantedId_of_alias rfl).mpr ⟨hsnapshot, hne⟩
    · simp [wantedId, alias?, hlatest, hsnapshot]

theorem wantedId_error {manifest : VersionManifest} {fault : Fault}
    (hwanted : wantedId manifest version = .error fault) : fault.kind = .versionNotFound := by
  unfold wantedId at hwanted
  split at hwanted
  · cases hwanted
  · dsimp only at hwanted
    split at hwanted <;> cases hwanted
    rfl

theorem find?_eq_some_iff {manifest : VersionManifest} {id : String} {entry : VersionEntry} :
    manifest.find? id = some entry ↔ ∃ before after, manifest.versions = before ++ entry :: after ∧
      entry.id = id ∧ ∀ other ∈ before, other.id ≠ id := by
  unfold VersionManifest.find?
  rw [List.find?_eq_some_iff_append]
  simp only [decide_eq_true_eq, Bool.not_eq_true', decide_eq_false_iff_not]
  constructor
  · rintro ⟨hid, before, after, hversions, hbefore⟩
    exact ⟨before, after, hversions, hid, hbefore⟩
  · rintro ⟨before, after, hversions, hid, hbefore⟩
    exact ⟨hid, before, after, hversions, hbefore⟩

theorem not_unlisted {manifest : VersionManifest} {entry : VersionEntry}
    (hselected : Selected manifest version entry) : ¬Unlisted manifest version := by
  obtain ⟨id, before, after, hwanted, hversions, hid, -⟩ := hselected
  exact fun hunlisted => hunlisted id hwanted entry (by simp [hversions]) hid

theorem Wanted.unique {manifest : VersionManifest} {id other : String}
    (hid : Wanted manifest version id) (hother : Wanted manifest version other) : id = other :=
  Except.ok.inj ((wantedId_ok_iff.mpr hid).symm.trans (wantedId_ok_iff.mpr hother))

theorem Selected.unique {manifest : VersionManifest} {entry other : VersionEntry}
    (hentry : Selected manifest version entry) (hother : Selected manifest version other) :
    entry = other := by
  obtain ⟨id, before, after, hwanted, hfirst⟩ := hentry
  obtain ⟨id', before', after', hwanted', hsecond⟩ := hother
  obtain rfl := hwanted.unique hwanted'
  have hfind := find?_eq_some_iff.mpr ⟨before, after, hfirst⟩
  exact Option.some.inj (hfind.symm.trans (find?_eq_some_iff.mpr ⟨before', after', hsecond⟩))

/-! ### Loading a document -/

/-- The document that a body is. -/
def loaded (check : Json → Schema.Checked α) (body : Bytes) : Except Fault α :=
  match Http.readDocument body with
  | .error fault => .error fault
  | .ok json => (check json).mapError .schema

section Loaded

variable {check : Json → Schema.Checked α} {body : Bytes}

theorem loaded_ok_iff {document : α} : loaded check body = .ok document ↔ ∃ chars json,
    Text.decodeDocument body = .ok chars ∧ Json.read chars = .ok json ∧
      check json = .ok document := by
  unfold loaded Http.readDocument
  rcases Text.decodeDocument body with error | chars
  · simp
  rcases hjson : Json.read chars with error | json
  · simp [hjson, Except.mapError]
  rcases hcheck : check json with violations | found
  · simp [hjson, hcheck, Except.mapError]
  · simp only [hjson, hcheck, Except.mapError, Except.ok.injEq]
    constructor
    · rintro rfl
      exact ⟨chars, json, rfl, hjson, hcheck⟩
    · rintro ⟨_, other, rfl, hother, hfound⟩
      obtain rfl := Except.ok.inj (hjson.symm.trans hother)
      exact Except.ok.inj (hcheck.symm.trans hfound)

theorem loaded_error {fault : Fault} (hloaded : loaded check body = .error fault) :
    isUnavailable fault = true ∨ ∃ chars inObject, Text.decodeDocument body = .ok chars ∧
      Json.read chars = .error (.tooDeep inObject) ∧ fault = .json (.tooDeep inObject) := by
  unfold loaded Http.readDocument at hloaded
  rcases hchars : Text.decodeDocument body with error | chars <;> rw [hchars] at hloaded
  · cases hloaded
    exact .inl rfl
  rcases hjson : Json.read chars with error | json <;> simp only [hjson, Except.mapError] at hloaded
  · cases hloaded
    cases error with
    | tooDeep inObject => exact .inr ⟨chars, inObject, rfl, hjson, rfl⟩
    | malformed => exact .inl rfl
    | tooManyDigits => exact .inl rfl
  · rcases hcheck : check json with violations | found <;> simp only [hcheck] at hloaded <;>
      cases hloaded
    exact .inl rfl

end Loaded

/-- After the requests `past` the address brings a whole answer in time, which is `document`. With it,
the requests are `later`. -/
def Loads (host : Host) (maxAttempts : Int) (url : String) (check : Json → Schema.Checked α)
    (past later : List String) (document : α) : Prop :=
  ∃ k ≤ (maxAttempts - 1).toNat, ∃ response chars json, Delivered host url past k response ∧
    later = asked host url past (k + 1) ∧ Text.decodeDocument response.body = .ok chars ∧
    Json.read chars = .ok json ∧ check json = .ok document

theorem Loads.unique {url : String} {check : Json → Schema.Checked α} {past later later' : List String}
    {document other : α} (hloads : Loads host maxAttempts url check past later document)
    (hother : Loads host maxAttempts url check past later' other) :
    later = later' ∧ document = other := by
  obtain ⟨k, -, response, chars, json, hdelivered, rfl, hchars, hjson, hcheck⟩ := hloads
  obtain ⟨l, -, response', chars', json', hdelivered', rfl, hchars', hjson', hcheck'⟩ := hother
  obtain ⟨rfl, rfl⟩ := hdelivered.unique hdelivered'
  obtain rfl := Except.ok.inj (hchars.symm.trans hchars')
  obtain rfl := Except.ok.inj (hjson.symm.trans hjson')
  exact ⟨rfl, Except.ok.inj (hcheck.symm.trans hcheck')⟩

/-- The faults of loading that are thrown as they are: of a document that is nested too deeply, and of
addresses that are none or lead nowhere. -/
inductive Escapes (host : Host) (maxAttempts : Int) (url : String) (past : List String) : Fault → Prop
  | tooDeep {k : Nat} {response : Http.Response} {chars : List Char} {inObject : Bool} :
    k ≤ (maxAttempts - 1).toNat → Delivered host url past k response →
    Text.decodeDocument response.body = .ok chars → Json.read chars = .error (.tooDeep inObject) →
    Escapes host maxAttempts url past (.json (.tooDeep inObject))
  | address (flaw : Url.Flaw) : Escapes host maxAttempts url past (Http.invalidUrl flaw)
  | redirects : Escapes host maxAttempts url past
      (.of .tooManyRedirects "Exceeded maximum allowed redirects.")

theorem Escapes.kind_ne {url : String} {past : List String} {fault : Fault}
    (hescapes : Escapes host maxAttempts url past fault) : fault.kind ≠ .versionNotFound := by
  cases hescapes <;> simp [Fault.kind, Json.ReadError.kind, Http.invalidUrl, Fault.of]

/-- The document did not load: that is told of, or the fault escapes. -/
structure Fails (host : Host) (maxAttempts : Int) (url : String) (check : Json → Schema.Checked α)
    (past : List String) (fault : Fault) : Prop where
  unloaded : ∀ later document, ¬Loads host maxAttempts url check past later document
  sort : fault.kind = .metadataFetchError ∨ Escapes host maxAttempts url past fault

theorem Fails.kind_ne {url : String} {check : Json → Schema.Checked α} {past : List String}
    {fault : Fault} (hfails : Fails host maxAttempts url check past fault) :
    fault.kind ≠ .versionNotFound := by
  rcases hfails.sort with htold | hescapes
  · simp [htold]
  · exact hescapes.kind_ne

section Loading

variable (hnetwork : Http.FailsWith host fun fault => fault.isA .transportError = true)

include hnetwork

theorem document_cases {url : String} {check : Json → Schema.Checked α} {outer : Fault → Fault}
    (houter : ∀ fault, (outer fault).kind = .metadataFetchError) {world after : World}
    {result : Except Fault α}
    (heval : (Action.explain isUnavailable outer (source.document url check)).eval host world =
      (result, after)) :
    Visits host url world.requests after.requests ∧
      ((∃ document, result = .ok document ∧
          Loads host source.maxAttempts url check world.requests after.requests document) ∨
        ∃ fault, result = .error fault ∧
          Fails host source.maxAttempts url check world.requests fault) := by
  have htold : ∀ cause : Fault, isUnavailable cause = true →
      (if isUnavailable cause = true then Fault.because (outer cause) cause else cause).kind =
        .metadataFetchError := by
    intro cause hcause
    rw [if_pos hcause]
    exact houter cause
  unfold document at heval
  rw [Action.eval_explain, Action.eval_bind] at heval
  rcases hget : (Http.getJson source.maxAttempts url).eval host world with ⟨read, got⟩
  rw [hget] at heval
  rcases Http.getJson_cases hnetwork hget with
    ⟨k, hle, response, hdelivered, hasked, hread⟩ | ⟨hnone, ⟨fault, rfl, hunread⟩, n, hasked⟩
  · have hloaded : (result, after) = ((loaded check response.body).mapError fun fault =>
        if isUnavailable fault then .because (outer fault) fault else fault, got) := by
      rw [← heval, loaded, ← hread]
      rcases read with fault | json
      · rfl
      · rcases hcheck : check json with violations | document <;>
          simp [hcheck, Except.mapError]
    obtain ⟨hresult, rfl⟩ := Prod.mk.inj hloaded
    refine ⟨hasked ▸ Http.asked_visits _ _, ?_⟩
    rcases hbody : loaded check response.body with fault | document <;> rw [hbody] at hresult
    · refine .inr ⟨_, hresult, fun later document hloads => ?_, ?_⟩
      · obtain ⟨l, -, other, chars, json, hother, -, hfound⟩ := hloads
        obtain ⟨rfl, rfl⟩ := hdelivered.unique hother
        cases hbody.symm.trans (loaded_ok_iff.mpr ⟨chars, json, hfound⟩)
      · rcases loaded_error hbody with hunavailable | ⟨chars, inObject, hchars, hjson, rfl⟩
        · exact .inl (htold fault hunavailable)
        · exact .inr (.tooDeep hle hdelivered hchars hjson)
    · obtain ⟨chars, json, hfound⟩ := loaded_ok_iff.mp hbody
      exact .inl ⟨document, hresult, k, hle, response, chars, json, hdelivered, hasked, hfound⟩
  · obtain ⟨rfl, rfl⟩ := Prod.mk.inj heval
    refine ⟨hasked ▸ Http.asked_visits _ _, .inr ⟨_, rfl, fun later document hloads => ?_, ?_⟩⟩
    · obtain ⟨k, hle, response, _, _, hdelivered, -⟩ := hloads
      exact hnone k hle response hdelivered
    · cases hunread with
      | told hunavailable => exact .inl (htold fault hunavailable)
      | address flaw => exact .inr (.address flaw)
      | redirects => exact .inr .redirects

theorem entry_cases {world after : World} {result : Except Fault VersionEntry}
    (heval : (source.entry version).eval host world = (result, after)) :
    Visits host source.manifestUrl world.requests after.requests ∧
      ((∃ manifest, Loads host source.maxAttempts source.manifestUrl VersionManifest.ofJson
          world.requests after.requests manifest ∧
        ((∃ entry, result = .ok entry ∧ Selected manifest version entry) ∨
          (∃ fault, result = .error fault ∧ fault.kind = .versionNotFound) ∧
            Unlisted manifest version)) ∨
      ∃ fault, result = .error fault ∧ Fails host source.maxAttempts source.manifestUrl
        VersionManifest.ofJson world.requests fault) := by
  unfold entry at heval
  rw [Action.eval_bind] at heval
  rcases hmanifest : source.manifest.eval host world with ⟨loaded, got⟩
  rw [hmanifest] at heval
  rcases document_cases hnetwork (fun _ => rfl) hmanifest with
    ⟨hvisits, ⟨manifest, rfl, hloads⟩ | ⟨fault, rfl, hfails⟩⟩
  swap
  · obtain ⟨rfl, rfl⟩ := Prod.mk.inj heval
    exact ⟨hvisits, .inr ⟨fault, rfl, hfails⟩⟩
  dsimp only at heval
  rw [Action.eval_bind, Action.eval_ofResult] at heval
  rcases hid : wantedId manifest version with fault | id <;> rw [hid] at heval
  · obtain ⟨rfl, rfl⟩ := Prod.mk.inj heval
    refine ⟨hvisits, .inl ⟨manifest, hloads, .inr ⟨⟨fault, rfl, wantedId_error hid⟩, ?_⟩⟩⟩
    intro id hwanted
    cases hid.symm.trans (wantedId_ok_iff.mpr hwanted)
  have hwanted := wantedId_ok_iff.mp hid
  rcases hfind : manifest.find? id with _ | entry <;> simp only [hfind] at heval <;>
    obtain ⟨rfl, rfl⟩ := Prod.mk.inj heval
  · refine ⟨hvisits, .inl ⟨manifest, hloads, .inr ⟨⟨_, rfl, rfl⟩,
      fun other hother entry hentry => ?_⟩⟩⟩
    obtain rfl := hwanted.unique hother
    simpa using List.find?_eq_none.mp hfind entry hentry
  · obtain ⟨before, behind, hfirst⟩ := find?_eq_some_iff.mp hfind
    exact ⟨hvisits, .inl ⟨manifest, hloads, .inl ⟨entry, rfl, id, before, behind, hwanted, hfirst⟩⟩⟩

end Loading

/-! ### Resolving -/

/-- The fault of a document escapes: of the manifest, or of the metadata that it leads to. -/
def Strays (host : Host) (source : ReleaseSource) (version : String) (past : List String)
    (fault : Fault) : Prop :=
  Escapes host source.maxAttempts source.manifestUrl past fault ∨ ∃ manifest entry middle,
    Loads host source.maxAttempts source.manifestUrl VersionManifest.ofJson past middle manifest ∧
      Selected manifest version entry ∧ Escapes host source.maxAttempts entry.url middle fault

/-- **Exactness.** A version resolves to its metadata exactly if the manifest loads, an entry is selected
in it, and the document at the address of that entry loads. It is not found exactly if the manifest loads
and lists no such version. All other failures are told of as documents that could not be fetched, but
for those that escape. The second document is asked for only after an entry was selected, and nothing
else is. -/
theorem resolve_exact (hnetwork : Http.FailsWith host fun fault => fault.isA .transportError = true)
    {world after : World} {result : Except Fault VersionMetadata}
    (heval : (source.resolve version).eval host world = (result, after)) :
    (∀ metadata, result = .ok metadata ↔ ∃ manifest entry middle later,
      Loads host source.maxAttempts source.manifestUrl VersionManifest.ofJson world.requests middle
          manifest ∧
        Selected manifest version entry ∧
        Loads host source.maxAttempts entry.url VersionMetadata.ofJson middle later metadata) ∧
    ((∃ fault, result = .error fault ∧ fault.kind = .versionNotFound) ↔ ∃ manifest middle,
      Loads host source.maxAttempts source.manifestUrl VersionManifest.ofJson world.requests middle
          manifest ∧
        Unlisted manifest version) ∧
    (∀ fault, result = .error fault → fault.kind = .versionNotFound ∨
      fault.kind = .metadataFetchError ∨ Strays host source version world.requests fault) ∧
    ∃ middle, Visits host source.manifestUrl world.requests middle ∧
      (after.requests = middle ∨ ∃ manifest entry,
        Loads host source.maxAttempts source.manifestUrl VersionManifest.ofJson world.requests middle
            manifest ∧
          Selected manifest version entry ∧ Visits host entry.url middle after.requests) := by
  unfold resolve at heval
  rw [Action.eval_bind] at heval
  rcases hentry : (source.entry version).eval host world with ⟨chosen, got⟩
  rw [hentry] at heval
  rcases entry_cases hnetwork hentry with
    ⟨hvisits, ⟨manifest, hloads, ⟨entry, rfl, hselected⟩ | ⟨⟨fault, rfl, hkind⟩, hunlisted⟩⟩ |
      ⟨fault, rfl, hfails⟩⟩
  · rcases document_cases hnetwork (fun _ => rfl) heval with
      ⟨hvisits', ⟨metadata, rfl, hmetadata⟩ | ⟨fault, rfl, hfails⟩⟩
    · refine ⟨fun other => ⟨?_, ?_⟩, ⟨by rintro ⟨_, ⟨⟩, -⟩, ?_⟩, by rintro _ ⟨⟩, _, hvisits,
        .inr ⟨manifest, entry, hloads, hselected, hvisits'⟩⟩
      · rintro ⟨⟩
        exact ⟨manifest, entry, _, _, hloads, hselected, hmetadata⟩
      · rintro ⟨manifest', entry', middle, later, hloads', hselected', hother⟩
        obtain ⟨rfl, rfl⟩ := hloads.unique hloads'
        obtain rfl := hselected.unique hselected'
        rw [(hmetadata.unique hother).2]
      · rintro ⟨manifest', middle, hloads', hunlisted⟩
        obtain ⟨-, rfl⟩ := hloads.unique hloads'
        exact absurd hunlisted (not_unlisted hselected)
    · refine ⟨fun other => ⟨by rintro ⟨⟩, ?_⟩, ⟨?_, ?_⟩, ?_, _, hvisits,
        .inr ⟨manifest, entry, hloads, hselected, hvisits'⟩⟩
      · rintro ⟨manifest', entry', middle, later, hloads', hselected', hother⟩
        obtain ⟨rfl, rfl⟩ := hloads.unique hloads'
        obtain rfl := hselected.unique hselected'
        exact absurd hother (hfails.unloaded _ _)
      · rintro ⟨_, ⟨⟩, hkind⟩
        exact absurd hkind hfails.kind_ne
      · rintro ⟨manifest', middle, hloads', hunlisted⟩
        obtain ⟨-, rfl⟩ := hloads.unique hloads'
        exact absurd hunlisted (not_unlisted hselected)
      · rintro _ ⟨⟩
        exact .inr (hfails.sort.imp_right fun hescapes =>
          .inr ⟨manifest, entry, _, hloads, hselected, hescapes⟩)
  · obtain ⟨rfl, rfl⟩ := Prod.mk.inj heval
    refine ⟨fun metadata => ⟨by rintro ⟨⟩, ?_⟩, ⟨fun _ => ⟨manifest, _, hloads, hunlisted⟩,
      fun _ => ⟨fault, rfl, hkind⟩⟩, ?_, _, hvisits, .inl rfl⟩
    · rintro ⟨other, entry, middle, later, hother, hselected, -⟩
      obtain ⟨-, rfl⟩ := hloads.unique hother
      exact absurd hunlisted (not_unlisted hselected)
    · rintro _ ⟨⟩
      exact .inl hkind
  · obtain ⟨rfl, rfl⟩ := Prod.mk.inj heval
    refine ⟨fun metadata => ⟨by rintro ⟨⟩, ?_⟩, ⟨?_, ?_⟩, ?_, _, hvisits, .inl rfl⟩
    · rintro ⟨manifest, _, middle, _, hloads, -⟩
      exact absurd hloads (hfails.unloaded _ _)
    · rintro ⟨_, ⟨⟩, hkind⟩
      exact absurd hkind hfails.kind_ne
    · rintro ⟨manifest, middle, hloads, -⟩
      exact absurd hloads (hfails.unloaded _ _)
    · rintro _ ⟨⟩
      exact .inr (hfails.sort.imp_right .inl)

/-- A manifest with one version, which it declares to be the latest. -/
def oneVersion : VersionManifest :=
  ⟨⟨some "1.0", none⟩, [⟨"1.0", none, "http://v/", none⟩]⟩

/-- The manifest and the metadata of its version. -/
def twoDocuments : Host :=
  { Host.idle with
    network := fun _ address =>
      if address = "http://m/" then .response 200 none (Text.Utf8.encode oneVersion.toJson.print) none
      else .response 200 none
        (Text.Utf8.encode (VersionMetadata.toJson ⟨"1.0", none, [], []⟩).print) none }

theorem resolve_exact_twoDocuments :
    (∃ after manifest entry middle later,
      (resolve ⟨"http://m/", 1⟩ "latest").eval twoDocuments { files := .bare } =
          (.ok ⟨"1.0", none, [], []⟩, after) ∧
        Loads twoDocuments 1 "http://m/" VersionManifest.ofJson [] middle manifest ∧
        Selected manifest "latest" entry ∧
        Loads twoDocuments 1 entry.url VersionMetadata.ofJson middle later ⟨"1.0", none, [], []⟩) ∧
    ∃ fault after manifest middle,
      (resolve ⟨"http://m/", 1⟩ "snapshot").eval twoDocuments { files := .bare } =
          (.error fault, after) ∧
        Loads twoDocuments 1 "http://m/" VersionManifest.ofJson [] middle manifest ∧
        Unlisted manifest "snapshot" := by
  have hnetwork : Http.FailsWith twoDocuments fun fault => fault.isA .transportError = true := by
    refine ⟨fun past address fault hreply => ?_,
      fun past address status location body fault hreply => ?_⟩
    · by_cases hmanifest : address = "http://m/" <;> simp [twoDocuments, hmanifest] at hreply
    · by_cases hmanifest : address = "http://m/" <;> simp [twoDocuments, hmanifest] at hreply
  constructor
  · have hresolved : (resolve ⟨"http://m/", 1⟩ "latest").eval twoDocuments { files := .bare } =
        (.ok ⟨"1.0", none, [], []⟩,
          ((resolve ⟨"http://m/", 1⟩ "latest").eval twoDocuments { files := .bare }).2) :=
      Action.eq_of_value (by decide +kernel)
    obtain ⟨hok, -⟩ := resolve_exact hnetwork hresolved
    obtain ⟨manifest, entry, middle, later, hloads, hselected, hmetadata⟩ := (hok _).mp rfl
    exact ⟨_, manifest, entry, middle, later, hresolved, hloads, hselected, hmetadata⟩
  · have hmissing : (resolve ⟨"http://m/", 1⟩ "snapshot").eval twoDocuments { files := .bare } =
        (.error (.of .versionNotFound "Manifest does not declare a snapshot version"),
          ((resolve ⟨"http://m/", 1⟩ "snapshot").eval twoDocuments { files := .bare }).2) :=
      Action.eq_of_fault (by decide +kernel)
    obtain ⟨-, hnotFound, -⟩ := resolve_exact hnetwork hmissing
    obtain ⟨manifest, middle, hloads, hunlisted⟩ := hnotFound.mp ⟨_, rfl, rfl⟩
    exact ⟨_, _, manifest, middle, hmissing, hloads, hunlisted⟩

end JarRefinery.ReleaseSource
