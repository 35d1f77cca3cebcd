import JarRefinery.Proofs.Fetching
import JarRefinery.Proofs.Handover
import JarRefinery.Proofs.Recording

/-!
# Guards that are never needed

Stages refuse to work without what earlier stages make, on sets that are no chain, or onto the file
that they read. What they do besides fails, if at all, with other faults.
-/

namespace JarRefinery

open Action (any)

/-! ### Guards -/

namespace Stage

/-- The guards of the stages: of which kind their faults are, and how their texts begin. -/
def guards : List (ErrorKind × String) :=
  [(.valueError, "stage_fetch requires "), (.valueError, "stage_unpack requires "),
    (.valueError, "stage_sanitize requires "), (.valueError, "stage_mappings requires "),
    (.valueError, "stage_remap requires "), (.valueError, "stage_decompile requires "),
    (.valueError, "direct mappings need "), (.valueError, "chained mappings need "),
    (.mappingUnavailable, "direct provider returned a bad chain: "),
    (.mappingUnavailable, "chained provider returned a bad chain: "), (.remapFailure, "Pass "),
    (.sanitizeError, "Refusing to strip "), (.valueError, "Refusing to normalize ")]

/-- The fault is that of a guard. -/
def IsGuard (fault : Fault) : Prop :=
  ∃ guard ∈ guards, fault.kind = guard.1 ∧ Text.beginsWith guard.2 fault.message = true

instance (fault : Fault) : Decidable (IsGuard fault) :=
  inferInstanceAs (Decidable (∃ guard ∈ guards, _))

theorem isGuard_of_text {kind : ErrorKind} {beginning : String} (hmem : (kind, beginning) ∈ guards)
    (rest : String) : IsGuard (.of kind (beginning ++ rest)) := by
  have hkeys : ∀ guard ∈ guards, guard.1.isA .keyError = false := by decide
  refine ⟨_, hmem, rfl, List.isPrefixOf_iff_prefix.mpr ⟨rest.toList, ?_⟩⟩
  simp [Fault.of, Fault.message, hkeys _ hmem]

/-- Some guard of this kind begins with this letter. -/
def IsGuardLetter (kind : ErrorKind) (letter : Char) : Prop :=
  ∃ guard ∈ guards, guard.1 = kind ∧ guard.2.toList.head? = some letter

instance (kind : ErrorKind) (letter : Char) : Decidable (IsGuardLetter kind letter) :=
  inferInstanceAs (Decidable (∃ guard ∈ guards, _))

theorem not_isGuard_of_kind {fault : Fault} (kind : ErrorKind) (hkind : fault.kind = kind)
    (hother : kind ∉ guards.map (·.1)) : ¬IsGuard fault := by
  rintro ⟨guard, hmem, hsame, -⟩
  exact hother (hkind ▸ hsame ▸ List.mem_map_of_mem hmem)

/-- The first letter tells a fault of the same kind apart. -/
theorem not_isGuard_of_letter {fault : Fault} (kind : ErrorKind) (letter : Char)
    (hkind : fault.kind = kind) (hletter : fault.message.toList.head? = some letter)
    (hother : ¬IsGuardLetter kind letter) : ¬IsGuard fault := by
  rintro ⟨guard, hmem, hsame, hbegins⟩
  obtain ⟨rest, hrest⟩ := List.isPrefixOf_iff_prefix.mp hbegins
  have hwords : ∀ guard ∈ guards, guard.2.toList ≠ [] := by decide
  rw [← hrest, List.head?_append_of_ne_nil _ (hwords guard hmem)] at hletter
  exact hother ⟨guard, hmem, hsame.symm.trans hkind, hletter⟩

theorem not_isGuard_of_text {kind : ErrorKind} {text : String} (letter : Char)
    (hletter : text.toList.head? = some letter) (hkey : kind.isA .keyError = false)
    (hother : ¬IsGuardLetter kind letter) : ¬IsGuard (.of kind text) :=
  not_isGuard_of_letter kind letter rfl (by simpa [Fault.of, Fault.message, hkey] using hletter)
    hother

theorem not_isGuard_because {outer : Fault} (houter : ¬IsGuard outer) (cause : Fault) :
    ¬IsGuard (.because outer cause) :=
  houter

theorem not_isGuard_ofFile (error : FileError) : ¬IsGuard (.ofFile error) := by
  obtain error | _ := error
  · refine not_isGuard_of_kind error.code.kind rfl ?_
    cases error.code <;> decide
  · exact not_isGuard_of_letter .valueError 'e' rfl rfl (by decide)

theorem not_isGuard_archive (flaw : Archive.Flaw) : ¬IsGuard (.archive flaw) :=
  not_isGuard_of_kind flaw.kind rfl (by cases flaw <;> simp [Archive.Flaw.kind, guards])

theorem not_isGuard_gzip (flaw : Gzip.Flaw) : ¬IsGuard (.gzip flaw) :=
  not_isGuard_of_kind flaw.kind rfl (by cases flaw <;> simp [Gzip.Flaw.kind, guards])

theorem not_isGuard_json (error : Json.ReadError) : ¬IsGuard (.json error) := by
  cases error with
  | malformed => exact not_isGuard_of_kind .jsonDecodeError rfl (by decide)
  | tooManyDigits count =>
    refine not_isGuard_of_letter .valueError 'E' rfl ?_ (by decide)
    change (_ ++ toString count ++ _ : String).toList.head? = _
    simp
  | tooDeep => exact not_isGuard_of_kind .recursionError rfl (by decide)

end Stage

open Stage (IsGuard not_isGuard_of_kind not_isGuard_of_letter not_isGuard_of_text not_isGuard_ofFile)

/-! ### Requests -/

section Requests

variable {host : Host}

theorem Http.Astray.not_isGuard {fault : Fault} (hfault : Http.Astray fault) : ¬IsGuard fault := by
  cases hfault with
  | address flaw => exact not_isGuard_of_kind .invalidUrl rfl (by decide)
  | location flaw => exact not_isGuard_of_kind .remoteProtocolError rfl (by decide)
  | scheme url => exact not_isGuard_of_text 'u' (by simp) rfl (by decide)
  | redirects => exact not_isGuard_of_kind .tooManyRedirects rfl (by decide)

theorem Http.FetchFault.not_isGuard {url : String} {fault : Fault}
    (hfault : Http.FetchFault url (¬IsGuard ·) fault) : ¬IsGuard fault := by
  cases hfault with
  | status code body => exact not_isGuard_of_kind .httpStatusError rfl (by decide)
  | retries attempts last => exact not_isGuard_of_kind .httpRetriesExceeded rfl (by decide)
  | other hother _ => exact hother

variable (hnetwork : Http.FailsWith host (¬IsGuard ·))

include hnetwork

theorem Http.getJson_unguarded (maxAttempts : Int) (url : String) :
    (Http.getJson maxAttempts url).Yields host any (¬IsGuard ·) := by
  refine (Http.fetch_yields hnetwork (fun _ => Astray.not_isGuard) (fun response hbreaks => ?_) _
    _).weaken (fun _ hvalue => hvalue) fun _ => FetchFault.not_isGuard
  refine hbreaks.read_yields.andThen fun body => ?_
  refine .andThen (.ofExcept (fun _ _ => trivial) fun error _ =>
    not_isGuard_of_kind .unicodeDecodeError rfl (by decide)) fun chars => ?_
  exact .ofExcept (fun _ _ => trivial) fun error _ => Stage.not_isGuard_json error

theorem Http.download_unguarded (maxAttempts : Int) (url : String) (target : Path) :
    (Http.download maxAttempts url target).Yields host any (¬IsGuard ·) :=
  (Http.download_yields hnetwork (fun _ => Astray.not_isGuard) not_isGuard_ofFile _ _ _).weaken
    (fun _ hvalue => hvalue) fun _ => FetchFault.not_isGuard

namespace ReleaseSource

theorem document_unguarded {α : Type} (source : ReleaseSource) (url : String)
    (check : Json → Schema.Checked α) :
    (source.document url check).Yields host any (¬IsGuard ·) :=
  (Http.getJson_unguarded hnetwork _ _).andThen fun json =>
    .ofExcept (fun _ _ => trivial) fun _ _ => not_isGuard_of_kind .validationError rfl (by decide)

theorem entry_unguarded (source : ReleaseSource) (version : String) :
    (source.entry version).Yields host any (¬IsGuard ·) := by
  unfold entry manifest
  refine .andThen (.explain (document_unguarded hnetwork _ _ _) fun _ =>
    not_isGuard_of_kind .metadataFetchError rfl (by decide)) fun manifest => ?_
  refine .andThen (.ofExcept (fun _ _ => trivial) fun fault hfault => ?_) fun id => ?_
  · unfold wantedId at hfault
    split at hfault
    · cases hfault
    · dsimp only at hfault
      split at hfault <;> cases hfault
      exact not_isGuard_of_kind .versionNotFound rfl (by decide)
  · split
    · exact .pure trivial
    · exact .throw (not_isGuard_of_kind .versionNotFound rfl (by decide))

theorem metadata_unguarded (source : ReleaseSource) (entry : VersionEntry) :
    (source.metadata entry).Yields host any (¬IsGuard ·) :=
  .explain (document_unguarded hnetwork _ _ _) fun _ =>
    not_isGuard_of_kind .metadataFetchError rfl (by decide)

end ReleaseSource

end Requests

/-! ### Files and events -/

section Records

variable {host : Host} (run : Run)

theorem Run.emit_unguarded (stage kind : String) (data : Json.Fields) :
    (run.emit stage kind data).Yields host any (¬IsGuard ·) :=
  .andThen (fun _ => trivial) fun _ => .onFiles _ not_isGuard_ofFile

theorem FileDigest.ofFile_unguarded (path : Path) :
    (FileDigest.ofFile path).Yields host any (¬IsGuard ·) := by
  unfold ofFile ofFileBy
  refine .andThen (.onFiles _ not_isGuard_ofFile) fun contents => ?_
  refine .andThen (.ofExcept (fun _ _ => trivial) fun fault hfault => ?_) fun pieces => .pure trivial
  simp [piecesOf, defaultPiece] at hfault

theorem Run.recordArtifact_unguarded (stage : String) (contentType : Option String) (path : Path) :
    (run.recordArtifact stage contentType path).Yields host any (¬IsGuard ·) := by
  unfold Run.recordArtifact
  refine (FileDigest.ofFile_unguarded path).andThen fun digest => ?_
  exact (run.emit_unguarded _ _ _).andThen fun _ => .pure trivial

end Records

namespace Release

variable {host : Host}

section

variable (hnetwork : Http.FailsWith host (¬IsGuard ·))

include hnetwork

theorem fetchPrimary_unguarded (maxAttempts : Int) (metadata : VersionMetadata) (side : String)
    (workspace : Workspace) : (fetchPrimary maxAttempts metadata side workspace).Yields host
      (fun fetched => ∀ fault, fetched = .error fault → ¬IsGuard fault) (¬IsGuard ·) := by
  have hlost : ∀ text, ¬IsGuard (.of .artifactFetchError text) := fun _ =>
    not_isGuard_of_kind .artifactFetchError rfl (by decide)
  unfold fetchPrimary
  split
  · exact .pure fun fault hfault => Except.error.inj hfault ▸ hlost _
  rename_i download _
  refine .andThen (.handle (.map (Http.download_unguarded hnetwork _ _ _)) (fun _ _ => .pure trivial)
    fun _ _ hfault => hfault) fun loaded => ?_
  cases loaded with
  | error fault => exact .pure fun fault hfault => Except.error.inj hfault ▸ hlost _
  | ok length =>
    dsimp only
    unfold checkPrimary
    dsimp only
    split
    · exact .pure (by simp)
    refine (FileDigest.ofFile_unguarded _).andThen fun digest => ?_
    split
    · exact .pure (by simp)
    · exact .pure fun fault hfault => Except.error.inj hfault ▸ hlost _

theorem fetchLibrary_unguarded (maxAttempts : Int) (workspace : Workspace) (dependency : Dependency) :
    (fetchLibrary maxAttempts workspace dependency).Yields host any (¬IsGuard ·) := by
  have hfiles : ∀ {α : Type} (operation : FileTree.Action α),
      (Action.onFiles operation).Yields host any (¬IsGuard ·) := fun _ => .onFiles _ not_isGuard_ofFile
  have hplace : (workspace.library dependency.path).Yields host any (¬IsGuard ·) := by
    unfold Workspace.library
    refine (hfiles _).andThen fun place => (hfiles _).andThen fun base => ?_
    split
    · exact .pure trivial
    · exact .throw (not_isGuard_of_text 'L' (by simp) rfl (by decide))
  unfold fetchLibrary
  refine .andThen (.handle (.map hplace) (fun _ _ => .pure trivial) fun _ _ hfault => hfault)
    fun found => ?_
  cases found with
  | error fault => exact .pure trivial
  | ok target =>
    dsimp only
    unfold fetchLibraryTo
    refine (hfiles _).andThen fun exists_ => ?_
    split
    · exact .pure trivial
    · exact .handle ((Http.download_unguarded hnetwork _ _ _).andThen fun _ => .pure trivial)
        (fun _ _ => .pure trivial) fun _ _ hfault => hfault

end

end Release

namespace Package

variable {host : Host}

theorem inspect_unguarded (java : String) (timeout : Option Seconds) (workspace : Workspace)
    (package : Artifact) : (inspect java timeout workspace package).Yields host any (¬IsGuard ·) := by
  have hfiles : ∀ {α : Type} (operation : FileTree.Action α),
      (Action.onFiles operation).Yields host any (¬IsGuard ·) := fun _ => .onFiles _ not_isGuard_ofFile
  have hlost : ∀ text, ¬IsGuard (.of .unpackError text) := fun _ =>
    not_isGuard_of_kind .unpackError rfl (by decide)
  have hfind : ∀ directory, (findPayload directory).Yields host any (¬IsGuard ·) := by
    intro directory
    unfold findPayload
    refine (hfiles _).andThen fun found => ?_
    split
    · exact (hfiles _).andThen fun location => .andThen (fun _ => trivial) fun _ => .pure trivial
    · exact .pure trivial
  unfold inspect
  refine .andThen (.explain ((hfiles _).andThen fun archive => ?_) fun _ => hlost _) fun bundled => ?_
  · exact .andThen (.ofExcept (fun _ _ => trivial) fun flaw _ => Stage.not_isGuard_archive flaw)
      fun entries => .pure trivial
  split
  · refine Action.Yields.andThen ?_ fun _ => .pure trivial
    unfold unpack
    refine (hfiles _).andThen fun _ => (hfiles _).andThen fun jar => ?_
    refine .andThen (fun _ => trivial) fun result => ?_
    refine .andThen (.refuse fun _ => hlost _) fun _ => (hfind _).andThen fun found => ?_
    split
    · exact .pure trivial
    · exact .throw (hlost _)
  · exact .pure trivial

end Package

/-! ### Two places -/

/-- Wherever the program stands, the paths lead to different places. -/
def Path.Apart (path other : Path) : Prop :=
  ∀ here, path.normal here ≠ other.normal here

theorem Path.Apart.symm {path other : Path} (hapart : path.Apart other) : other.Apart path :=
  fun here heq => hapart here heq.symm

theorem Path.EndsIn.apart {path other : Path} {name last : String} (hname : path.EndsIn name)
    (hlast : other.EndsIn last) (hne : name ≠ last) : path.Apart other := by
  intro here heq
  have hsame : some name = some last := (hname here).symm.trans (heq ▸ hlast here)
  exact hne (Option.some.inj hsame)

theorem Path.Apart.ofLocation_ne {path other : Path} (hapart : path.Apart other) (here : Location) :
    Path.ofLocation (path.normal here) ≠ .ofLocation (other.normal here) :=
  fun heq => hapart here (congrArg Path.parts heq)

/-- Both paths are resolved from the same directory. -/
theorem Action.Yields.resolving {α : Type} {host : Host} {path other : Path}
    {next : Path → Path → Action α} {post : α → Prop} {sort : Fault → Prop}
    (hfiles : ∀ error, sort (.ofFile error))
    (hnext : ∀ here, (next (.ofLocation (path.normal here)) (.ofLocation (other.normal here))).Yields
      host post sort) :
    Action.Yields host (do
      let first ← Action.onFiles (FileTree.resolve path)
      let second ← Action.onFiles (FileTree.resolve other)
      next first second) post sort := by
  have hresolve : ∀ (path : Path) (world : World),
      (Action.onFiles (FileTree.resolve path)).eval host world =
          (.ok (.ofLocation (path.normal world.files.here)), world) ∨
        ∃ error, (Action.onFiles (FileTree.resolve path)).eval host world =
          (.error (.ofFile error), world) := by
    intro path world
    rw [Action.eval_onFiles, FileTree.eval_resolve_snd]
    rcases hvalue : ((FileTree.resolve path).eval world.files).1 with error | found
    · exact .inr ⟨error, rfl⟩
    · obtain rfl := FileTree.resolve_ok world.files path (Prod.ext hvalue rfl)
      exact .inl rfl
  intro world
  rcases hresolve path world with hfirst | ⟨error, hfirst⟩
  · rw [Action.eval_bind_ok hfirst]
    rcases hresolve other world with hsecond | ⟨error, hsecond⟩
    · rw [Action.eval_bind_ok hsecond]
      exact hnext world.files.here world
    · rw [Action.eval_bind_error hsecond]
      exact hfiles error
  · rw [Action.eval_bind_error hfirst]
    exact hfiles error

section Producing

variable {host : Host} {source target : Path}

/-- A file that is made of another one fails as filling it does. -/
theorem Action.Yields.derived {α : Type} {answers : Fault → Bool} {outer : Fault → Fault}
    {fill : Path → Action α} {post : α → Prop} (houter : ∀ fault, ¬IsGuard (outer fault))
    (hfill : ∀ sibling, (fill sibling).Yields host post (¬IsGuard ·)) :
    (Action.withSibling target fun sibling => Action.explain answers outer
      (Action.moving sibling target (fill sibling))).Yields host post (¬IsGuard ·) :=
  Action.withSibling_yields not_isGuard_ofFile fun sibling =>
    .explain (Action.moving_yields not_isGuard_ofFile (hfill sibling)) fun fault =>
      Stage.not_isGuard_because (houter fault) fault

theorem Strip.strip_unguarded (hapart : source.Apart target) :
    (Strip.strip source target).Yields host any (¬IsGuard ·) := by
  unfold strip
  refine .resolving not_isGuard_ofFile fun here => ?_
  refine .andThen (.refuse fun hso => ?_) fun _ => ?_
  · exact absurd (of_decide_eq_true hso) (hapart.ofLocation_ne here)
  refine .derived (fun _ => not_isGuard_of_text 'F' (by simp) rfl (by decide)) fun sibling => ?_
  refine .andThen (.onFiles _ not_isGuard_ofFile) fun archive => ?_
  refine .andThen (.ofExcept (fun _ _ => trivial) fun flaw _ => Stage.not_isGuard_archive flaw)
    fun stripped => ?_
  exact .andThen (.onFiles _ not_isGuard_ofFile) fun _ => .pure trivial

theorem TextFile.encode_unguarded {style : TextFile.Style} {text : String} {fault : Fault}
    (hencode : TextFile.encode style text = .error fault) : ¬IsGuard fault := by
  unfold TextFile.encode at hencode
  dsimp only at hencode
  split at hencode
  · obtain rfl := Except.error.inj hencode
    exact not_isGuard_of_text 'i' (by simp) rfl (by decide)
  split at hencode
  · obtain rfl := Except.error.inj hencode
    exact not_isGuard_of_kind .lookupError rfl (by decide)
  · rename_i encoding _
    obtain ⟨error, rfl⟩ : ∃ error, fault = .unencodable error := by
      generalize encoding.encode _ = result at hencode
      cases result with
      | error error => exact ⟨error, (Except.error.inj hencode).symm⟩
      | ok bytes => cases hencode
    exact not_isGuard_of_kind .unicodeEncodeError rfl (by decide)

namespace Mapping

theorem extractEntry_unguarded (container : Path) (name : String) :
    (extractEntry container name target).Yields host any (¬IsGuard ·) := by
  refine .derived (fun _ => not_isGuard_of_kind .mappingExtractionError rfl (by decide))
    fun sibling => Action.Yields.andThen ?_ fun _ => .pure trivial
  refine .andThen (.onFiles _ not_isGuard_ofFile) fun archive => ?_
  refine .andThen (.ofExcept (fun _ _ => trivial) fun fault hcontent => ?_) fun content =>
    .onFiles _ not_isGuard_ofFile
  unfold entryContent at hcontent
  rcases hread : Archive.readDirectory archive with flaw | entries <;> rw [hread] at hcontent
  · obtain rfl := Except.error.inj hcontent
    exact Stage.not_isGuard_archive flaw
  · simp only [Except.mapError, bind, Except.bind] at hcontent
    split at hcontent
    · split at hcontent <;> cases hcontent
      exact Stage.not_isGuard_archive _
    · obtain rfl := Except.error.inj hcontent
      exact not_isGuard_of_kind .mappingExtractionError rfl (by decide)

theorem gunzip_unguarded : (gunzip source target).Yields host any (¬IsGuard ·) := by
  refine .derived (fun _ => not_isGuard_of_kind .mappingExtractionError rfl (by decide))
    fun sibling => Action.Yields.andThen ?_ fun _ => .pure trivial
  refine .andThen (.onFiles _ not_isGuard_ofFile) fun compressed => ?_
  exact .andThen (.ofExcept (fun _ _ => trivial) fun flaw _ => Stage.not_isGuard_gzip flaw)
    fun content => .onFiles _ not_isGuard_ofFile

theorem normalizeFile_unguarded (hapart : source.Apart target) (from_ to_ : String) :
    (normalizeFile from_ to_ source target).Yields host any (¬IsGuard ·) := by
  have hfiles : ∀ {α : Type} (operation : FileTree.Action α),
      (Action.onFiles operation).Yields host any (¬IsGuard ·) := fun _ => .onFiles _ not_isGuard_ofFile
  unfold normalizeFile
  refine .resolving not_isGuard_ofFile fun here => ?_
  refine .andThen (.refuse fun hso => ?_) fun _ => ?_
  · exact absurd (of_decide_eq_true hso) (hapart.ofLocation_ne here)
  refine Action.Yields.andThen ?_ fun text => Action.Yields.andThen ?_ fun _ => .pure trivial
  · refine (hfiles _).andThen fun bytes => ?_
    exact .andThen (.ofExcept (fun _ _ => trivial) fun error _ =>
      not_isGuard_of_kind .unicodeDecodeError rfl (by decide)) fun chars => .pure trivial
  · refine Action.withSibling_yields not_isGuard_ofFile fun sibling =>
      Action.moving_yields not_isGuard_ofFile ?_
    refine .andThen (.ofExcept (fun _ _ => trivial) fun fault hfault => ?_) fun bytes => ?_
    · exact TextFile.encode_unguarded hfault
    · refine (hfiles _).andThen fun _ => ?_
      unfold TextFile.setMode
      split
      · exact .pure trivial
      · exact hfiles _

end Mapping

end Producing

/-! ### Guards at work -/

/-- A pass must begin where the artifact is. -/
theorem Remapper.checkSource_guarded {artifact : Artifact} {set : MappingSet}
    (hother : set.source ≠ artifact.space) :
    ∃ fault, checkSource artifact set = .error fault ∧ IsGuard fault := by
  have hguard : ∀ rest, IsGuard (.of .remapFailure ("Pass " ++ rest)) :=
    Stage.isGuard_of_text (by decide)
  rw [checkSource, if_neg hother]
  exact ⟨_, rfl, by simpa only [String.append_assoc] using hguard _⟩

section InPlace

variable {host : Host} {world : World} {path place : Path}
  (hresolve : (FileTree.resolve path).eval world.files = (.ok place, world.files))

include hresolve

theorem Action.eval_inPlace {α : Type} {fault : Fault} {next : Path → Path → Action α} :
    Action.eval (do
      let first ← Action.onFiles (FileTree.resolve path)
      let second ← Action.onFiles (FileTree.resolve path)
      Action.refuse (first = second) fault
      next first second) host world = (.error fault, world) := by
  have hresolved : (Action.onFiles (FileTree.resolve path)).eval host world = (.ok place, world) := by
    rw [Action.eval_onFiles, hresolve]
    rfl
  rw [Action.eval_bind_ok hresolved, Action.eval_bind_ok hresolved]
  simp only [decide_true]
  rfl

theorem Strip.strip_guarded : ∃ fault,
    (Strip.strip path path).eval host world = (.error fault, world) ∧ IsGuard fault := by
  have hguard : ∀ rest, IsGuard (.of .sanitizeError ("Refusing to strip " ++ rest)) :=
    Stage.isGuard_of_text (by decide)
  exact ⟨_, Action.eval_inPlace hresolve, by simpa only [String.append_assoc] using hguard _⟩

theorem Mapping.normalizeFile_guarded (from_ to_ : String) : ∃ fault,
    (normalizeFile from_ to_ path path).eval host world = (.error fault, world) ∧ IsGuard fault := by
  have hguard : ∀ rest, IsGuard (.value ("Refusing to normalize " ++ rest)) :=
    Stage.isGuard_of_text (by decide)
  exact ⟨_, Action.eval_inPlace hresolve, by simpa only [String.append_assoc] using hguard _⟩

theorem Remapper.clearOutput_guarded {artifact : Artifact} (hpath : artifact.path = path)
    (set : MappingSet) : ∃ fault,
      (clearOutput artifact set path).eval host world = (.error fault, world) ∧ IsGuard fault := by
  have hguard : ∀ rest, IsGuard (.of .remapFailure ("Pass " ++ rest)) :=
    Stage.isGuard_of_text (by decide)
  unfold clearOutput
  rw [hpath]
  exact ⟨_, Action.eval_inPlace hresolve, by simpa only [String.append_assoc] using hguard _⟩

end InPlace

end JarRefinery
