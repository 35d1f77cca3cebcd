import JarRefinery.Proofs.Intermediary

/-!
# What providers of mappings fail with

Most failures to get mappings are told of as such. Some are thrown as they are: requests that were led
astray, lists that are nested too deeply, coordinates that are none, containers and compressed
documents with flaws that nobody answers, and names that no file can have.
-/

namespace JarRefinery

open Action (any)

/-! ### Writing where a file can be written -/

namespace FileTree

open FileTree.Action (eval eval_bind eval_bind_ok eval_bind_error)

variable {tree filled : FileTree} {path target sibling : Path} {ready : FileTree} {place : Location}

/-- A path without a zero character is refused by the system if at all. -/
theorem of_eval_readFile_error (hnull : hasNull path = false) {error : FileError} {after : FileTree}
    (hread : eval (readFile path) tree = (.error error, after)) : ∃ failure, error = .system failure := by
  have hlocating := eval_locating_eq tree path
  rw [if_neg (by simp [hnull])] at hlocating
  unfold readFile stat at hread
  rcases hlocate : tree.locate path with code | location <;> rw [hlocate] at hlocating
  · rw [eval_bind_error (eval_bind_error hlocating)] at hread
    cases hread
    exact ⟨_, rfl⟩
  · rw [eval_bind, eval_bind_ok hlocating, eval_bind_ok (Action.eval_get tree)] at hread
    rcases hnode : tree.node? location with _ | ⟨_ | ⟨contents, mode⟩⟩ <;>
      simp only [hnode] at hread <;> cases hread <;> exact ⟨_, rfl⟩

/-- A temporary file that only was written to can be written again. -/
theorem Beside.eval_writeFile (hbeside : Beside target tree ready sibling place)
    (hfilled : Change { written := {place} } (ready.put place (.file [] 0o600)) filled)
    (contents : Bytes) : ∃ after, eval (writeFile sibling contents) filled = (.ok (), after) ∧
      Change { written := {place} } (ready.put place (.file [] 0o600)) after := by
  rcases writeFile_cases filled sibling contents with ⟨-, hwrite, mode', heval⟩ | ⟨hnot, -⟩
  · rw [hbeside.normal] at heval hwrite
    exact ⟨_, heval, hfilled.trans (.putFile hwrite.1)⟩
  · exact absurd (hbeside.writable hfilled) hnot

end FileTree

namespace Action

variable {α : Type} {host : Host} {world start : World} {post : α → Prop} {sort : Fault → Prop}

/-- An action ended with a value of which `post` holds or with a fault of which `sort` holds. -/
inductive Ends (post : α → Prop) (sort : Fault → Prop) : Except Fault α → Prop
  | ok {value : α} : post value → Ends post sort (.ok value)
  | error {fault : Fault} : sort fault → Ends post sort (.error fault)

namespace Ends

variable {result : Except Fault α}

theorem iff_match : Ends post sort result ↔
    match result with
    | .ok value => post value
    | .error fault => sort fault := by
  cases result with
  | ok value => exact ⟨fun hends => by cases hends; assumption, fun hpost => .ok hpost⟩
  | error fault => exact ⟨fun hends => by cases hends; assumption, fun hsort => .error hsort⟩

theorem weaken {wider : Fault → Prop} (hends : Ends post sort result)
    (hsort : ∀ fault, sort fault → wider fault) : Ends post wider result := by
  cases hends with
  | ok hpost => exact .ok hpost
  | error hfault => exact .error (hsort _ hfault)

end Ends

theorem Yields.ends {action : Action α} (hyields : action.Yields host post sort) :
    Ends post sort (action.eval host world).1 :=
  Ends.iff_match.mpr (hyields world)

theorem Settles.ends {inv : FileTree → Prop} {action : Action α}
    (hsettles : action.Settles host inv post sort) (hstart : inv start.files) :
    Ends post sort (action.eval host start).1 :=
  Ends.iff_match.mpr (hsettles start hstart).2

theorem Settles.bind_ends {β : Type} {inv : FileTree → Prop} {action : Action α}
    {next : α → Action β} {last : β → Prop} (hsettles : action.Settles host inv post sort)
    (hstart : inv start.files)
    (hnext : ∀ value, post value → ∀ world : World, inv world.files →
      Ends last sort ((next value).eval host world).1) :
    Ends last sort ((action >>= next).eval host start).1 := by
  have hafter := (hsettles start hstart).1
  have hends := hsettles.ends hstart
  rw [eval_bind]
  rcases heval : action.eval host start with ⟨fault | value, after⟩ <;> rw [heval] at hafter hends
  · cases hends with | error hfault => exact .error hfault
  · cases hends with | ok hpost => exact hnext value hpost after hafter

/-- Whatever is answered becomes the cause of another fault. -/
theorem explain_ends {action : Action α} {answers : Fault → Bool} {outer : Fault → Fault}
    (haction : Ends post (fun fault => answers fault = false → sort fault)
      (action.eval host start).1)
    (houter : ∀ fault, sort (.because (outer fault) fault)) :
    Ends post sort ((action.explain answers outer).eval host start).1 := by
  rw [eval_explain]
  rcases heval : action.eval host start with ⟨fault | value, after⟩ <;> rw [heval] at haction
  · cases haction with | error hfault =>
    cases hanswers : answers fault with
    | true => simpa only [hanswers, if_true] using .error (houter fault)
    | false => simpa only [hanswers] using .error (hfault hanswers)
  · cases haction with | ok hpost => exact .ok hpost

section Receiving

variable {target : Path} {ready : FileTree} {sibling : Path} {place : Location}

theorem writeFile_settles (hbeside : FileTree.Beside target world.files ready sibling place)
    (contents : Bytes) :
    Settles host (Change { written := {place} } (ready.put place (.file [] 0o600)))
      (onFiles (FileTree.writeFile sibling contents)) any sort := by
  intro world hfilled
  obtain ⟨after, heval, hafter⟩ := hbeside.eval_writeFile hfilled contents
  rw [eval_onFiles, heval]
  exact ⟨hafter, trivial⟩

theorem readFile_settles {inv : FileTree → Prop} {path : Path}
    (hnull : FileTree.hasNull path = false)
    (hsort : ∀ failure, sort (.system failure)) :
    Settles host inv (onFiles (FileTree.readFile path)) any sort := by
  intro world hinv
  rw [eval_onFiles]
  refine ⟨(FileTree.eval_readFile_snd world.files path).symm ▸ hinv, ?_⟩
  rcases hread : (FileTree.readFile path).eval world.files with ⟨error | contents, after⟩
  · obtain ⟨failure, rfl⟩ := FileTree.of_eval_readFile_error hnull hread
    exact hsort failure
  · trivial

/-- Where the target can be written, only filling the temporary file may fail. -/
theorem withSibling_ends {use : Path → Action α} (hrooted : ".." ∉ world.files.here)
    (hreceives : world.files.Receives target)
    (huse : ∀ ready sibling place, FileTree.Beside target world.files ready sibling place →
      (∀ filled, Change { written := {place} } (ready.put place (.file [] 0o600)) filled →
        ∃ after, (FileTree.rename sibling target).eval filled = (.ok (), after)) →
      Ends post sort ((use sibling).eval host
        { world with files := ready.put place (.file [] 0o600) }).1) :
    Ends post sort ((withSibling target use).eval host world).1 := by
  obtain ⟨ready, sibling, place, hbeside, hnew, -, hrename⟩ := hreceives.rename hrooted
  rw [eval_withSibling, hnew]
  dsimp only
  rw [eval_discarding]
  exact huse ready sibling place hbeside hrename

theorem moving_ends {inv : FileTree → Prop} {fill : Action α}
    (hfill : Settles host inv fill post sort) (hstart : inv start.files)
    (hrename : ∀ filled, inv filled →
      ∃ after, (FileTree.rename sibling target).eval filled = (.ok (), after)) :
    Ends post sort ((moving sibling target fill).eval host start).1 := by
  unfold moving
  refine hfill.bind_ends hstart fun value hpost filled hfilled => ?_
  obtain ⟨after, hmoved⟩ := hrename filled.files hfilled
  rw [eval_bind, eval_onFiles, hmoved]
  exact .ok hpost

end Receiving

end Action

/-- A body that is written to a temporary file may break off, and that is all. -/
theorem Http.writeBody_settles {host : Host} {tree : FileTree} {target : Path} {sort : Fault → Prop}
    {ready : FileTree} {sibling : Path} {place : Location}
    (hbeside : FileTree.Beside target tree ready sibling place) {piece : Int} (hpiece : 0 < piece)
    {response : Http.Response} (hbreaks : response.BreaksWith sort) :
    (writeBody piece sibling response).Settles host
      (Change { written := {place} } (ready.put place (.file [] 0o600))) any sort := by
  intro world hfilled
  obtain ⟨hreach, hwrite⟩ := hbeside.writable hfilled
  obtain ⟨mode, heval⟩ := eval_writeBody hreach hwrite host
    (fun hle => absurd hle (not_le.mpr hpiece))
  rw [heval world rfl]
  rw [hbeside.normal] at hwrite ⊢
  refine ⟨hfilled.trans (.putFile hwrite.1), ?_⟩
  unfold measured
  rcases hfault : response.fault with _ | fault
  · trivial
  · exact hbreaks fault hfault

/-! ### Producing documents -/

section Producing

variable {host : Host} {world : World} {source target : Path} {sort : Fault → Prop} {blocked : Prop}
  (hrooted : ".." ∉ world.files.here) (hreceives : ¬blocked → world.files.Receives target)

include hrooted hreceives

/-- A download to where a file can be written fails for want of an answer. -/
theorem Http.download_ends (hnetwork : FailsWith host sort)
    (hown : ∀ fault, Astray fault → sort fault)
    (hfiles : blocked → ∀ error, sort (.ofFile error)) (maxAttempts : Int) (url : String) :
    Action.Ends any (FetchFault url sort) ((download maxAttempts url target).eval host world).1 := by
  by_cases hblocked : blocked
  · exact (download_yields hnetwork hown (hfiles hblocked) maxAttempts url target).ends
  exact Action.withSibling_ends hrooted (hreceives hblocked) fun ready sibling place hbeside hrename =>
    Action.moving_ends (fetch_settles hnetwork hown
      (fun response hbreaks => writeBody_settles hbeside (by decide) hbreaks) maxAttempts url)
      (.refl _ _) hrename

namespace Mapping

/-- A document that is made of another fails as the making does. -/
theorem derived_ends {fill : Path → Action Unit} {answers : Fault → Bool} {outer : Fault → Fault}
    (hnull : ¬blocked → FileTree.hasNull source = false)
    (hsystem : ∀ failure, answers (.system failure) = true)
    (houter : ∀ fault, sort (.because (outer fault) fault))
    (hfiles : blocked → ∀ error, sort (.ofFile error))
    (hfill : ∀ {inv file},
      (Action.onFiles (FileTree.readFile source)).Settles host inv any
        (fun fault => answers fault = false → sort fault) →
      (∀ content, (Action.onFiles (FileTree.writeFile file content)).Settles host inv any
        fun fault => answers fault = false → sort fault) →
      (fill file).Settles host inv any fun fault => answers fault = false → sort fault) :
    Action.Ends any sort ((Action.withSibling target fun sibling => Action.explain answers outer
      (Action.moving sibling target do
        fill sibling
        pure target)).eval host world).1 := by
  by_cases hblocked : blocked
  · have hlost : ∀ error : FileError, answers (.ofFile error) = false → sort (.ofFile error) :=
      fun error _ => hfiles hblocked error
    have hfilled : ∀ sibling, (fill sibling).Yields host any
        fun fault => answers fault = false → sort fault := fun sibling =>
      Action.yields_iff_settles.mpr (hfill (Action.yields_iff_settles.mp (.onFiles _ hlost))
        fun content => Action.yields_iff_settles.mp (.onFiles _ hlost))
    refine (Action.withSibling_yields (hfiles hblocked) fun sibling => .handle
      (Action.moving_yields hlost ((hfilled sibling).andThen fun _ => .pure trivial))
      (fun fault _ => .throw (houter fault)) fun fault hanswers hfault => hfault hanswers).ends
  · refine Action.withSibling_ends hrooted (hreceives hblocked) fun ready sibling place hbeside hrename =>
      Action.explain_ends (Action.moving_ends (.andThen ?_ fun _ => .pure trivial) (.refl _ _) hrename)
        houter
    exact hfill (Action.readFile_settles (hnull hblocked) fun failure hanswers =>
      absurd (hsystem failure) (by simp [hanswers])) fun content => Action.writeFile_settles hbeside _

end Mapping

end Producing

namespace Mapping

/-- Flaws of containers and of compressed documents that nobody answers. -/
inductive Unanswered : Fault → Prop
  | archive {flaw : Archive.Flaw} :
    (Fault.archive flaw).isAny [.badArchive, .osError] = false → Unanswered (.archive flaw)
  | gzip : Unanswered (.gzip .corruptStream)

/-- How a document fails to be made of another: it is told of as that, for a flaw that nobody answers,
or because it is blocked that files are written. -/
inductive Fails (blocked : Prop) : Fault → Prop
  | told {fault : Fault} : fault.isA .mappingExtractionError = true → Fails blocked fault
  | unanswered {fault : Fault} : Unanswered fault → Fails blocked fault
  | file {error : FileError} : blocked → Fails blocked (.ofFile error)

theorem isA_system (failure : SystemError) : (Fault.system failure).isA .osError = true := by
  obtain ⟨code, _⟩ := failure
  cases code <;> rfl

theorem entryContent_error {container : Path} {name : String} {archive : Bytes} {fault : Fault}
    (hcontent : entryContent container name archive = .error fault) :
    (∃ flaw, fault = .archive flaw) ∨ fault.isA .mappingExtractionError = true := by
  unfold entryContent at hcontent
  rcases hread : Archive.readDirectory archive with flaw | entries
  · rw [hread] at hcontent
    exact .inl ⟨flaw, (Except.error.inj hcontent).symm⟩
  · rw [hread] at hcontent
    simp only [Except.mapError, bind, Except.bind] at hcontent
    split at hcontent
    · split at hcontent
      · cases hcontent
        exact .inl ⟨_, rfl⟩
      · cases hcontent
    · cases hcontent
      exact .inr rfl

variable {host : Host} {world : World} {source target : Path} {blocked : Prop}
  (hrooted : ".." ∉ world.files.here) (hreceives : ¬blocked → world.files.Receives target)
  (hnull : ¬blocked → FileTree.hasNull source = false)

include hrooted hreceives hnull

theorem extractEntry_ends (name : String) :
    Action.Ends any (Fails blocked) ((extractEntry source name target).eval host world).1 := by
  refine derived_ends hrooted hreceives hnull (fun failure => by simp [Fault.isAny, isA_system])
    (fun _ => .told rfl) (fun hblocked error => .file hblocked) fun hread hwrite => ?_
  unfold fillFromEntry
  refine hread.andThen fun archive => ?_
  refine .andThen (.ofExcept (fun _ _ => trivial) fun fault hcontent hanswers => ?_)
    fun content => hwrite content
  rcases entryContent_error hcontent with ⟨flaw, rfl⟩ | hfault
  · exact .unanswered (.archive hanswers)
  · exact .told hfault

theorem gunzip_ends : Action.Ends any (Fails blocked) ((gunzip source target).eval host world).1 := by
  refine derived_ends hrooted hreceives hnull (fun failure => by simp [Fault.isAny, isA_system])
    (fun _ => .told rfl) (fun hblocked error => .file hblocked) fun hread hwrite => ?_
  unfold fillFromCompressed
  refine hread.andThen fun compressed => ?_
  refine .andThen (.ofExcept (fun _ _ => trivial) fun flaw _ hanswers => .unanswered ?_)
    fun content => hwrite content
  cases flaw with
  | corruptStream => exact .gzip
  | _ => cases hanswers

end Mapping

/-! ### What escapes -/

namespace MappingProvider

open Chained Pipeline

section Escapes

variable (host : Host) (run : Run) (stripped : Artifact) (files : FileTree)

/-- The service may list the release for the version of the run. -/
def Listed (layer : String) (release : MappingRelease) : Prop :=
  ∃ (metaUrl mavenUrl doing : String) (world : World) (releases : List MappingRelease) (after : World),
    run.provider = .chained metaUrl mavenUrl ∧
    (Chained.releases ⟨metaUrl, mavenUrl, run.maxAttempts⟩ layer run.version doing).eval host world =
      (.ok releases, after) ∧ release ∈ releases

/-- The files that a provider makes. -/
inductive Target : Path → Prop
  | table : run.provider = .direct → Target
    (run.workspace.mapping (run.side ++ "-" ++ stripped.space ++ "-" ++ namedNamespace ++ ".txt"))
  | document {release : MappingRelease} : Listed host run "intermediary" release →
    Target (documentPath run.workspace release.version)
  | container {release : MappingRelease} : Listed host run "intermediary" release →
    Target (containerPath run.workspace release.version)
  | compressed {release : MappingRelease} : Listed host run "yarn" release →
    Target (compressedPath run.workspace release.version)
  | decompressed {release : MappingRelease} : Listed host run "yarn" release →
    Target (decompressedPath run.workspace release.version)

/-- The path leads out of the directory of mappings, or the name or its temporary name is none that a
file can have there. -/
def Misnamed (path : Path) : Prop :=
  path.parent ≠ run.workspace.mappingsDirectory ∨ ¬files.Reachable path ∨ ¬files.Prepares path

/-- The faults that providing mappings is not spared: of requests that were led astray, of lists that
are nested too deeply, of coordinates that are none, of documents with flaws that nobody answers, and
of files that have no place. -/
inductive Escapes : Fault → Prop
  | request {fault : Fault} : Http.Misdirected fault → Http.isRetried fault = false → Escapes fault
  | tooDeep {inObject : Bool} : Escapes (.json (.tooDeep inObject))
  | coordinate {layer : String} {release : MappingRelease} {fault : Fault} :
    Listed host run layer release → Coordinate.parse release.coordinate = .error fault →
    Escapes fault
  | document {fault : Fault} : Mapping.Unanswered fault → Escapes fault
  | file {path : Path} {error : FileError} : Target host run stripped path →
    Misnamed run files path → Escapes (.ofFile error)

/-- The fault is told of as one of mappings, or it escapes. -/
def Expected (fault : Fault) : Prop :=
  fault.isA .mappingUnavailable = true ∨ fault.isA .mappingExtractionError = true ∨
    Escapes host run stripped files fault

end Escapes

variable {host : Host} {run : Run} {stripped : Artifact} {files : FileTree} {path : Path}

theorem Target.exists_parts (htarget : Target host run stripped path) :
    ∃ front rest ending c, path.parts = front ++ [rest ++ ending] ∧
      ending.toList.getLast? = some c ∧ c ≠ 'p' ∧ c ≠ '.' := by
  cases htarget with
  | table =>
    obtain ⟨front, rest, -, hparts⟩ :=
      parts_mapping run.workspace _ ".txt" 't' (by decide) (by decide) (by decide)
    exact ⟨front, rest, ".txt", 't', hparts, by decide, by decide, by decide⟩
  | document =>
    obtain ⟨front, rest, -, hparts⟩ :=
      parts_mapping run.workspace _ ".tiny" 'y' (by decide) (by decide) (by decide)
    exact ⟨front, rest, ".tiny", 'y', hparts, by decide, by decide, by decide⟩
  | container =>
    obtain ⟨front, rest, -, hparts⟩ :=
      parts_mapping run.workspace _ "-v2.jar" 'r' (by decide) (by decide) (by decide)
    exact ⟨front, rest, "-v2.jar", 'r', hparts, by decide, by decide, by decide⟩
  | compressed =>
    obtain ⟨front, rest, -, hparts⟩ := parts_compressedPath run.workspace _
    exact ⟨front, rest, ".tiny.gz", 'z', hparts, by decide, by decide, by decide⟩
  | decompressed =>
    obtain ⟨front, rest, hparts⟩ := parts_decompressedPath run.workspace _
    exact ⟨front, rest, ".tiny", 'y', hparts, by decide, by decide, by decide⟩

theorem Target.named (htarget : Target host run stripped path) :
    FileTree.endsInDots path = false := by
  obtain ⟨front, rest, ending, c, hparts, hlast, -, hdot⟩ := htarget.exists_parts
  have hmem : c ∈ (rest ++ ending).toList := by
    rw [String.toList_append]
    exact List.mem_append_right _ (List.mem_of_getLast? hlast)
  have hname := (Path.named_of_mem hmem hdot).2
  simp [FileTree.endsInDots, hparts, hname]

/-- No file that a provider makes has a temporary name. -/
theorem Target.ne_sibling (htarget : Target host run stripped path) (here directory : Location)
    (name : String) (n : Nat) : directory ++ [FileTree.siblingName name n] ≠ path.normal here := by
  obtain ⟨front, rest, ending, c, hparts, hlast, hother, -⟩ := htarget.exists_parts
  rw [Path.normal_eq_append htarget.named, Path.name_of_parts hparts]
  intro heq
  have hname := List.append_inj_right' heq rfl
  exact FileTree.siblingName_ne_append hlast hother name rest n (List.singleton_inj.mp hname)

/-! ### While mappings are provided -/

/-- Some file that the provider makes has no place. -/
def Blocked (host : Host) (run : Run) (stripped : Artifact) (start : FileTree) : Prop :=
  ∃ path, Target host run stripped path ∧ Misnamed run start path

/-- The run and its directory of mappings are kept, and all files that are to be made can be unless
some have no place. -/
structure Clear (host : Host) (run : Run) (stripped : Artifact) (start files : FileTree) : Prop where
  here : files.here = start.here
  kept : Kept run files
  directory : files.HasDirectory run.workspace.mappingsDirectory
  receives : ¬Blocked host run stripped start → ∀ path, Target host run stripped path →
    files.Receives path

variable {start before after : FileTree}

theorem parent_of_not_blocked (hplaces : ¬Blocked host run stripped start)
    (htarget : Target host run stripped path) :
    path.parent = run.workspace.mappingsDirectory := by
  by_contra hparent
  exact hplaces ⟨path, htarget, .inl hparent⟩

theorem escapes_of_blocked (hblocked : Blocked host run stripped start) (error : FileError) :
    Escapes host run stripped start (.ofFile error) := by
  obtain ⟨path, htarget, hmisnamed⟩ := hblocked
  exact .file htarget hmisnamed

theorem expected_of_fails {fault : Fault}
    (hfault : Mapping.Fails (Blocked host run stripped start) fault) :
    Expected host run stripped start fault := by
  cases hfault with
  | told hextraction => exact .inr (.inl hextraction)
  | unanswered hflaw => exact .inr (.inr (.document hflaw))
  | file hblocked => exact .inr (.inr (escapes_of_blocked hblocked _))

section Clear

variable (hrooted : ".." ∉ start.here)

include hrooted

/-- In a directory of mappings without directories only names stand in the way. -/
theorem Clear.initial (hkept : Kept run start)
    (hdirectory : start.HasDirectory run.workspace.mappingsDirectory)
    (hfree : ∀ name, start.node? (run.workspace.mappingsDirectory.normal start.here ++ [name]) ≠
      some .directory) : Clear host run stripped start start := by
  refine ⟨rfl, hkept, hdirectory, fun hplaces path htarget => ?_⟩
  have hparent := parent_of_not_blocked hplaces htarget
  have hplace : ¬Misnamed run start path := fun hmisnamed => hplaces ⟨path, htarget, hmisnamed⟩
  simp only [Misnamed, not_or, not_not] at hplace
  refine ((hparent ▸ hdirectory : start.HasDirectory path.parent).receives_iff hrooted).mpr
    ⟨hplace.2.2, hplace.2.1, htarget.named, ?_⟩
  rw [Path.normal_eq_append htarget.named, hparent]
  exact hfree _

/-- Another file may have been made. -/
theorem Clear.replaced (hclear : Clear host run stripped start before)
    (htarget : Target host run stripped path)
    (hchange : Change
      { made := path.parent.trail before.here, written := {path.normal before.here} } before after) :
    Clear host run stripped start after where
  here := hchange.here.trans hclear.here
  kept := hclear.kept.mono hchange (Set.notMem_empty _)
  directory := hclear.directory.mono hchange
  receives := by
    intro hplaces other hother
    have hdirectory : ∀ {path}, Target host run stripped path → before.HasDirectory path.parent :=
      fun htarget => parent_of_not_blocked hplaces htarget ▸ hclear.directory
    exact (hclear.receives hplaces other hother).replaced (hdirectory hother)
      (hclear.here ▸ hrooted) (hdirectory htarget) hchange fun n => htarget.ne_sibling _ _ _ n

theorem Clear.settles {α : Type} {action : Action α} {sort : Fault → Prop}
    (htarget : Target host run stripped path)
    (hreplaces : Replaces host start.here path action)
    (hends : ∀ world, ".." ∉ world.files.here →
      (¬Blocked host run stripped start → ∀ path, Target host run stripped path →
        world.files.Receives path) → Action.Ends any sort (action.eval host world).1) :
    action.Settles host (Clear host run stripped start) any sort := by
  intro world hclear
  have hreplaced : Replaces host world.files.here path action := hclear.here ▸ hreplaces
  exact ⟨hclear.replaced hrooted htarget hreplaced.change,
    Action.Ends.iff_match.mp (hends world (hclear.here ▸ hrooted) hclear.receives)⟩

theorem download_settles (hnetwork : Http.FailsWith host fun fault => fault.isA .transportError = true)
    (htarget : Target host run stripped path) (maxAttempts : Int) (url : String) :
    (Http.download maxAttempts url path).Settles host (Clear host run stripped start) any
      fun fault => fault.isA .httpFetchError = true ∨ Escapes host run stripped start fault := by
  have hretried : ∀ fault : Fault, fault.isA .transportError = true → Http.isRetried fault = false →
      Escapes host run stripped start fault := by
    intro fault htransport hretried
    simp [Http.isRetried, Fault.isAny, htransport] at hretried
  refine Clear.settles hrooted htarget (.downloadBy hrooted _ _ _) fun world hhere hreceives => ?_
  have hends := Http.download_ends hhere (fun hplaces => hreceives hplaces path htarget)
    (hnetwork.mono hretried) (fun fault hastray => .request hastray.misdirected)
    (fun hblocked error _ => escapes_of_blocked hblocked error) maxAttempts url
  refine hends.weaken fun fault hfault => ?_
  cases hfault with
  | status code body => exact .inl rfl
  | retries attempts last => exact .inl rfl
  | other hescapes hretried => exact .inr (hescapes hretried)

theorem extractEntry_settles {source : Path} (hsource : Target host run stripped source)
    (htarget : Target host run stripped path) (name : String) :
    (Mapping.extractEntry source name path).Settles host (Clear host run stripped start) any
      (Expected host run stripped start) := by
  refine Clear.settles hrooted htarget (.extractEntry hrooted _ _) fun world hhere hreceives => ?_
  exact (Mapping.extractEntry_ends hhere (fun hplaces => hreceives hplaces path htarget)
    (fun hplaces => (hreceives hplaces source hsource).noNull hhere) name).weaken
      fun fault => expected_of_fails

theorem gunzip_settles {source : Path} (hsource : Target host run stripped source)
    (htarget : Target host run stripped path) :
    (Mapping.gunzip source path).Settles host (Clear host run stripped start) any
      (Expected host run stripped start) := by
  refine Clear.settles hrooted htarget (.gunzip hrooted _) fun world hhere hreceives => ?_
  exact (Mapping.gunzip_ends hhere (fun hplaces => hreceives hplaces path htarget)
    fun hplaces => (hreceives hplaces source hsource).noNull hhere).weaken
      fun fault => expected_of_fails

end Clear

/-! ### Lists of releases -/

section Releases

theorem mapM_error {α β ε : Type} {items : List α} {action : α → Except ε β} {error : ε}
    (hmap : items.mapM action = .error error) : ∃ item ∈ items, action item = .error error := by
  induction items with
  | nil => cases hmap
  | cons item rest ih =>
    rw [List.mapM_cons] at hmap
    rcases hitem : action item with failure | value
    · rw [hitem] at hmap
      obtain rfl : failure = error := Except.error.inj hmap
      exact ⟨item, List.mem_cons_self, hitem⟩
    rcases hrest : rest.mapM action with failure | values
    · rw [hitem, hrest] at hmap
      obtain rfl : failure = error := Except.error.inj hmap
      obtain ⟨other, hmem, hother⟩ := ih hrest
      exact ⟨other, List.mem_cons_of_mem _ hmem, hother⟩
    · rw [hitem, hrest] at hmap
      cases hmap

/-- A list of releases has a wrong release, or it is no list. -/
theorem ofList_error {url : String} {json : Json} {fault : Fault}
    (hlist : MappingRelease.ofList url json = .error fault) :
    (∃ violations, fault = .schema violations) ∨
      fault = .value ("Expected a JSON list from " ++ url) := by
  unfold MappingRelease.ofList at hlist
  split at hlist
  · obtain ⟨item, -, hitem⟩ := mapM_error hlist
    rcases hchecked : MappingRelease.ofJson item with violations | release
    · rw [hchecked] at hitem
      exact .inl ⟨violations, (Except.error.inj hitem).symm⟩
    · rw [hchecked] at hitem
      cases hitem
  · exact .inr (Except.error.inj hlist).symm

variable (hnetwork : Http.FailsWith host fun fault => fault.isA .transportError = true)

include hnetwork

theorem getJson_faults (maxAttempts : Int) (url : String) :
    (Http.getJson maxAttempts url).Yields host any fun fault =>
      fault.isAny [.httpFetchError, .valueError] = false →
        Escapes host run stripped start fault := by
  have hretried : ∀ fault : Fault, fault.isA .transportError = true → Http.isRetried fault = false →
      fault.isAny [.httpFetchError, .valueError] = false → Escapes host run stripped start fault := by
    intro fault htransport hretried
    simp [Http.isRetried, Fault.isAny, htransport] at hretried
  have hown : ∀ fault, Http.Astray fault → Http.isRetried fault = false →
      fault.isAny [.httpFetchError, .valueError] = false → Escapes host run stripped start fault :=
    fun fault hastray hretried _ => .request hastray.misdirected hretried
  refine (Http.fetch_yields (hnetwork.mono hretried) hown (fun response hbreaks => ?_) maxAttempts
    url).weaken (fun _ hvalue => hvalue) fun fault hfault hanswers => ?_
  · refine hbreaks.read_yields.andThen fun body => ?_
    refine .andThen (.ofExcept (fun _ _ => trivial) fun error _ _ hanswers => ?_) fun chars => ?_
    · cases hanswers
    · refine .ofExcept (fun _ _ => trivial) fun error _ _ hanswers => ?_
      cases error with
      | tooDeep inObject => exact .tooDeep
      | _ => cases hanswers
  · cases hfault with
    | status code body => cases hanswers
    | retries attempts last => cases hanswers
    | other hescapes hretried => exact hescapes hretried hanswers

variable {metaUrl mavenUrl : String}

theorem releases_settles (hprovider : run.provider = .chained metaUrl mavenUrl)
    (layer doing : String) :
    (releases ⟨metaUrl, mavenUrl, run.maxAttempts⟩ layer run.version doing).Settles host
      (Clear host run stripped start)
      (fun releases => ∀ release ∈ releases, Listed host run layer release)
      (Expected host run stripped start) := by
  intro world hclear
  have hstill : ((releases ⟨metaUrl, mavenUrl, run.maxAttempts⟩ layer run.version doing).eval host
      world).2.files = world.files :=
    Action.files_eq_of_still (fun _ =>
      (releases_keeps Discipline.still.allowsNetwork _ layer run.version doing).anyway) world
  have hends : Action.Ends any (Expected host run stripped start)
      ((Chained.releases ⟨metaUrl, mavenUrl, run.maxAttempts⟩ layer run.version doing).eval host
        world).1 := by
    unfold Chained.releases MappingRelease.fetchAll
    refine Action.explain_ends (Action.Yields.ends ?_) fun _ => .inl rfl
    refine Action.Yields.andThen (.handle (getJson_faults hnetwork _ _) (fun _ _ => .pure trivial)
      fun fault _ hescapes hanswers => .inr (.inr (hescapes hanswers))) fun json =>
        .ofExcept (fun _ _ => trivial) fun fault hlist hanswers => ?_
    rcases ofList_error hlist with ⟨violations, rfl⟩ | rfl <;> cases hanswers
  refine ⟨hstill ▸ hclear, ?_⟩
  rcases heval : (releases ⟨metaUrl, mavenUrl, run.maxAttempts⟩ layer run.version doing).eval
    host world with ⟨fault | releases, after⟩ <;> rw [heval] at hends
  · exact Action.Ends.iff_match.mp hends
  · exact fun release hmem =>
      ⟨metaUrl, mavenUrl, doing, world, releases, after, hprovider, heval, hmem⟩

end Releases

/-! ### Layers -/

section Layers

theorem fileUrl_error {chained : Chained} {coordinate classifier extension : String} {fault : Fault}
    (hurl : chained.fileUrl coordinate classifier extension = .error fault) :
    Coordinate.parse coordinate = .error fault := by
  unfold fileUrl at hurl
  rcases hparse : Coordinate.parse coordinate with error | parsed <;> rw [hparse] at hurl
  · exact congrArg _ (Except.error.inj hurl)
  · cases hurl

theorem fileUrl_settles {inv : FileTree → Prop} {layer : String} {release : MappingRelease}
    (hlisted : Listed host run layer release) (chained : Chained) (classifier extension : String) :
    (Action.ofResult (chained.fileUrl release.coordinate classifier extension)).Settles host inv any
      (Expected host run stripped start) :=
  .ofExcept (fun _ _ => trivial) fun _ hurl => .inr (.inr (.coordinate hlisted (fileUrl_error hurl)))

variable (hrooted : ".." ∉ start.here)
  (hnetwork : Http.FailsWith host fun fault => fault.isA .transportError = true)

include hrooted hnetwork

/-- A download whose failure is told of as one of mappings. -/
theorem explained_settles (htarget : Target host run stripped path) {outer : Fault → Fault}
    (houter : ∀ fault cause, (Fault.because (outer fault) cause).isA .mappingUnavailable = true)
    (maxAttempts : Int) (url : String) :
    (Action.explain (·.isA .httpFetchError) outer (Http.download maxAttempts url path)).Settles host
      (Clear host run stripped start) any (Expected host run stripped start) := by
  refine (download_settles hrooted hnetwork htarget maxAttempts url).explain
    (fun fault _ _ => .inl (houter fault fault)) fun fault hanswers hfault => ?_
  rcases hfault with hclient | hescapes
  · simp [hclient] at hanswers
  · exact .inr (.inr hescapes)

/-- A download whose failure is looked at afterwards. -/
theorem loaded_settles (htarget : Target host run stripped path) (maxAttempts : Int) (url : String) :
    (Action.handle (·.isA .httpFetchError) (fun fault => pure (.error fault))
      (Except.ok <$> Http.download maxAttempts url path)).Settles host
      (Clear host run stripped start) any (Expected host run stripped start) := by
  refine .handle (.map (download_settles hrooted hnetwork htarget maxAttempts url))
    (fun fault _ _ => .pure trivial) fun fault hanswers hfault => ?_
  rcases hfault with hclient | hescapes
  · simp [hclient] at hanswers
  · exact .inr (.inr hescapes)

section Intermediary

variable {release : MappingRelease} (hlisted : Listed host run "intermediary" release)
  (chained : Chained)

include hlisted

theorem fetchFromArchive_settles :
    (chained.fetchFromArchive release run.workspace
      (documentPath run.workspace release.version)).Settles host (Clear host run stripped start) any
      (Expected host run stripped start) := by
  have hcontainer : Target host run stripped (containerPath run.workspace release.version) :=
    .container hlisted
  refine (fileUrl_settles hlisted chained _ _).andThen fun url => ?_
  refine (explained_settles hrooted hnetwork hcontainer (fun _ _ => rfl) _ _).andThen fun length => ?_
  exact (extractEntry_settles hrooted hcontainer (.document hlisted) _).andThen fun _ => .pure trivial

theorem fetchIntermediary_settles (space : String) :
    (chained.fetchIntermediary release run.workspace space).Settles host
      (Clear host run stripped start)
      (fun set => set.source = space ∧ set.target = intermediaryNamespace)
      (Expected host run stripped start) := by
  refine (fileUrl_settles hlisted chained _ _).andThen fun url => ?_
  refine (loaded_settles hrooted hnetwork (.document hlisted) _ _).andThen fun loaded => ?_
  cases loaded with
  | ok length => exact .pure ⟨rfl, rfl⟩
  | error fault =>
    refine .andThen (.refuse fun _ => .inl rfl) fun _ => ?_
    exact (fetchFromArchive_settles hrooted hnetwork hlisted chained).andThen fun _ =>
      .pure ⟨rfl, rfl⟩

end Intermediary

variable {metaUrl mavenUrl : String} (hprovider : run.provider = .chained metaUrl mavenUrl)

include hprovider

omit hrooted in
theorem intermediaryRelease_settles :
    (intermediaryRelease ⟨metaUrl, mavenUrl, run.maxAttempts⟩ run.version).Settles host
      (Clear host run stripped start) (Listed host run "intermediary")
      (Expected host run stripped start) := by
  refine (releases_settles hnetwork hprovider _ _).bind fun releases hreleases => ?_
  cases releases with
  | nil => exact .throw (.inl rfl)
  | cons release rest => exact .pure (hreleases release List.mem_cons_self)

/-- What the second layer comes to: no layer, or the compressed document of a listed release. -/
def Named (host : Host) (run : Run) (result : Except Fault MappingSet) : Prop :=
  ∀ set, result = .ok set → set.source = intermediaryNamespace ∧ ∃ release,
    Listed host run "yarn" release ∧ set.path = compressedPath run.workspace release.version

theorem fetchNamed_settles :
    (fetchNamed ⟨metaUrl, mavenUrl, run.maxAttempts⟩ run.workspace run.version).Settles host
      (Clear host run stripped start) (Named host run) (Expected host run stripped start) := by
  refine (releases_settles hnetwork hprovider _ _).bind fun releases hreleases => ?_
  rcases hnewest : MappingRelease.newest? releases with _ | release
  · exact .pure fun set hset => by cases hset
  have hlisted := hreleases release (MappingRelease.newest?_eq_some hnewest).mem
  refine (fileUrl_settles hlisted _ _ _).andThen fun url => ?_
  refine (loaded_settles hrooted hnetwork (.compressed hlisted) _ _).andThen fun loaded => ?_
  cases loaded with
  | ok length =>
    refine .pure fun set hset => ?_
    obtain rfl := Except.ok.inj hset
    exact ⟨rfl, release, hlisted, rfl⟩
  | error fault =>
    exact .andThen (.refuse fun _ => .inl rfl) fun _ => .pure fun set hset => by cases hset

omit hnetwork hprovider in
theorem decompressed_settles {set : MappingSet} (hnamed : Named host run (.ok set)) :
    (decompressed run.workspace set).Settles host (Clear host run stripped start)
      (fun plain => plain.source = intermediaryNamespace) (Expected host run stripped start) := by
  obtain ⟨hsource, release, hlisted, hpath⟩ := hnamed set rfl
  unfold decompressed
  rw [hpath]
  exact (gunzip_settles hrooted (.compressed hlisted) (.decompressed hlisted)).andThen fun _ =>
    .pure hsource

end Layers

/-! ### Providing -/

section Providing

/-- What the provider reads of the state is there. -/
def Supplied (run : Run) (state : RunState) (stripped : Artifact) : Prop :=
  state.stripped = some stripped ∧
    match run.provider with
    | .direct => ∃ metadata, state.metadata = some metadata
    | .chained _ _ => True
    | .fixed _ _ => False

theorem checkChain_single {set : MappingSet} {space : String} (hsource : set.source = space) :
    MappingSet.checkChain [set] space = .ok () := by
  simp [MappingSet.checkChain, MappingSet.checkLinks, hsource]

theorem checkChain_pair {first second : MappingSet} {space : String} (hsource : first.source = space)
    (hlink : second.source = first.target) : MappingSet.checkChain [first, second] space = .ok () := by
  simp [MappingSet.checkChain, MappingSet.checkLinks, hsource, hlink]

/-- While the run is kept telling of something does not fail. -/
theorem emitting_ends {α : Type} {value : α} {post : α → Prop} {sort : Fault → Prop} {world : World}
    (hkept : Kept run world.files) (hfits : Fits run) (stage kind : String) (data : Json.Fields)
    (hpost : post value) :
    Action.Ends post sort ((run.emit stage kind data >>= fun _ => pure value).eval host world).1 := by
  obtain ⟨contents, mode, -, happend⟩ := hkept.eval_append hfits host 
    ⟨kind, run.id, .text stage, data⟩
  unfold Run.emit
  rw [Action.eval_bind_ok happend]
  exact .ok hpost

variable {world : World} (hrooted : ".." ∉ start.here)
  (hnetwork : Http.FailsWith host fun fault => fault.isA .transportError = true)
  (hclear : Clear host run stripped start world.files)

section

include hrooted hnetwork hclear

theorem provideDirect_ends (hprovider : run.provider = .direct) (metadata : VersionMetadata) :
    Action.Ends (fun sets => MappingSet.checkChain sets stripped.space = .ok ())
      (Expected host run stripped start) ((provideDirect run metadata stripped).eval host world).1 := by
  refine Action.Settles.ends (?_ : Action.Settles host (Clear host run stripped start) _ _ _) hclear
  unfold provideDirect
  split
  · exact .throw (.inl rfl)
  · exact (explained_settles hrooted hnetwork (.table hprovider) (fun _ _ => rfl) _ _).andThen
      fun length => .pure (checkChain_single rfl)

theorem provideChained_ends {metaUrl mavenUrl : String}
    (hprovider : run.provider = .chained metaUrl mavenUrl) (hfits : Fits run) :
    Action.Ends (fun sets => MappingSet.checkChain sets stripped.space = .ok ())
      (Expected host run stripped start)
      ((provideChained ⟨metaUrl, mavenUrl, run.maxAttempts⟩ run stripped).eval host world).1 := by
  unfold provideChained
  refine (intermediaryRelease_settles hnetwork hprovider).bind_ends hclear
    fun release hlisted world hclear => ?_
  refine (fetchIntermediary_settles hrooted hnetwork hlisted _ _).bind_ends hclear
    fun first hfirst world hclear => ?_
  refine (fetchNamed_settles hrooted hnetwork hprovider).bind_ends hclear
    fun result hnamed world hclear => ?_
  cases result with
  | error fault =>
    exact emitting_ends hclear.kept hfits _ _ _ (checkChain_single hfirst.1)
  | ok second =>
    dsimp only
    refine (decompressed_settles hrooted hnamed).bind_ends hclear fun plain hplain world _ => ?_
    exact .ok (checkChain_pair hfirst.1 (hplain.trans hfirst.2.symm))

end

end Providing

/-! ### A list with a coordinate that is none -/

/-- A service that lists one release, whose coordinate has a single part. -/
def flawedService : Host :=
  { Host.idle with
    network := fun _ address =>
      if address = "http://m/v2/versions/intermediary/1.0" then
        .response 200 none
          (Text.Utf8.encode "[\x7b\"maven\": \"g\", \"version\": \"1.0\"\x7d]") none
      else .response 404 none [] none }

theorem flawedService_answers :
    Http.FailsWith flawedService fun fault => fault.isA .transportError = true := by
  refine .of_whole fun past address => ?_
  simp only [flawedService]
  split <;> exact ⟨_, _, _, rfl⟩

theorem openedWorld_kept : Kept smallRun openedWorld.files := by
  have hput : Change { made := {["work", "ws", "mappings"]} } smallWorld.files openedWorld.files :=
    .putDirectory (by decide +kernel)
  exact smallRun_kept.mono hput (Set.notMem_empty _)

theorem openedWorld_free (name : String) : openedWorld.files.node?
    (smallRun.workspace.mappingsDirectory.normal openedWorld.files.here ++ [name]) ≠
      some .directory := by
  have hplace : smallRun.workspace.mappingsDirectory.normal openedWorld.files.here =
      ["work", "ws", "mappings"] := by decide +kernel
  rw [hplace, openedWorld, FileTree.node?_put, if_neg (by simp), if_neg (by simp)]
  simp [smallWorld, FileTree.node?, List.lookup_cons]

end MappingProvider

end JarRefinery
