import JarRefinery.Decompile
import JarRefinery.Package
import JarRefinery.Pipeline
import JarRefinery.Proofs.Producers

/-!
# The operations of the stages

What the operations that the stages are made of ask of a discipline: the network for what they
fetch, the footprint of each file that they produce, a directory that they make, a call of a tool.
-/

namespace JarRefinery

open Action (any)

variable {d : Discipline}

/-! ### Events and records -/

theorem EventLog.append_keeps {log : EventLog}
    (hevents : d.AllowsFiles { written := {log.path.normal d.here} }) (event : Event) :
    (log.append event).Keeps d any := by
  unfold EventLog.append
  refine .andThen (.read trivial) fun host => ?_
  exact .change hevents fun tree hhere => hhere ▸ FileTree.appendFile_change tree log.path _

theorem FileDigest.ofFile_keeps (path : Path) : (FileDigest.ofFile path).Keeps d any := by
  unfold FileDigest.ofFile FileDigest.ofFileBy
  refine (readFile_keeps path).andThen fun contents => ?_
  exact .andThen (.pure trivial) fun pieces => .pure trivial

namespace Run

variable {run : Run} (hevents : d.AllowsFiles { written := {run.events.path.normal d.here} })

include hevents

theorem emit_keeps (stage kind : String) (data : Json.Fields) :
    (run.emit stage kind data).Keeps d any :=
  EventLog.append_keeps hevents _

theorem recordArtifact_keeps (stage : String) (contentType : Option String) (path : Path) :
    (run.recordArtifact stage contentType path).Keeps d any := by
  unfold Run.recordArtifact
  refine (FileDigest.ofFile_keeps path).andThen fun digest => ?_
  exact (emit_keeps hevents _ _ _).andThen fun _ => .pure trivial

omit hevents

theorem log_keeps (hlog : d.AllowsLog) (level : LogLevel) (event : String)
    (fields : Json.Fields) : (Run.log level event fields).Keeps d any :=
  .modify fun world hhere _ => ⟨hlog world _, hhere⟩

/-- What has been handed on is what some world of the discipline holds. -/
theorem handed_keeps :
    Run.handed.Keeps d fun state => ∃ world, d.inv world ∧ world.state = state := by
  unfold Run.handed
  refine .bind (.get fun world _ hinv => hinv) fun world hinv => .pure ⟨world, hinv, rfl⟩

theorem hand_keeps {change : RunState → RunState} (hhand : d.AllowsHand change) :
    (Run.hand change).Keeps d any :=
  .modify fun world hhere hinv => ⟨hhand world hinv, hhere⟩

end Run

/-! ### Releases -/

namespace ReleaseSource

variable (hnetwork : d.AllowsNetwork) (source : ReleaseSource)

include hnetwork

theorem document_keeps {α : Type} (url : String) (check : Json → Schema.Checked α) :
    (source.document url check).Keeps d any := by
  unfold ReleaseSource.document
  refine (Http.getJson_keeps hnetwork _ _).andThen fun json => ?_
  exact .ofExcept (fun _ _ => rfl) fun _ _ => trivial

theorem metadata_keeps (entry : VersionEntry) : (source.metadata entry).Keeps d any :=
  (document_keeps hnetwork source _ _).explain fun _ => rfl

omit hnetwork in
theorem wantedId_ordinary (manifest : VersionManifest) (version : String) :
    Ordinary (wantedId manifest version) := by
  unfold wantedId
  split
  · exact .ok version
  dsimp only
  split
  · exact .error rfl
  · exact .ok _

theorem entry_keeps (version : String) : (source.entry version).Keeps d any := by
  unfold ReleaseSource.entry
  refine .andThen ((document_keeps hnetwork source _ _).explain fun _ => rfl) fun manifest => ?_
  refine .andThen (.ofOrdinary (wantedId_ordinary manifest version)) fun id => ?_
  split
  · exact .pure trivial
  · exact .throw (d.ordinary _ rfl)

end ReleaseSource

/-- The names lead from the directory of the libraries to the place of one. -/
structure Workspace.LeadsToLibrary (workspace : Workspace) (here : Location) (rest : List String) :
    Prop where
  some : rest ≠ []
  place : ∃ relative : String, Path.normal here (workspace.librariesDirectory / relative) =
    workspace.librariesDirectory.normal here ++ rest

theorem Workspace.LeadsToLibrary.noDots {workspace : Workspace} {here : Location}
    {rest : List String} (hrest : workspace.LeadsToLibrary here rest) (hrooted : ".." ∉ here) :
    ".." ∉ rest := by
  obtain ⟨relative, hplace⟩ := hrest.place
  exact fun hdots => Path.dots_notMem_normal hrooted (workspace.librariesDirectory / relative)
    (hplace ▸ List.mem_append_right _ hdots)

namespace Release

variable (maxAttempts : Int) (workspace : Workspace)

theorem checkPrimary_keeps (side : String) (download : Download) (target : Path) :
    (checkPrimary side download target).Keeps d fun result =>
      Ordinary result ∧ ∀ artifact, result = .ok artifact →
        artifact = ⟨"raw", target, officialNamespace⟩ := by
  unfold checkPrimary
  dsimp only
  split
  · exact .pure ⟨.ok _, by rintro _ ⟨⟩; rfl⟩
  refine (FileDigest.ofFile_keeps target).andThen fun digest => ?_
  split
  · exact .pure ⟨.ok _, by rintro _ ⟨⟩; rfl⟩
  · exact .pure ⟨.error rfl, by simp⟩

theorem fetchPrimary_keeps (metadata : VersionMetadata) (side : String)
    (hprimary : d.Produces (workspace.primary side)) :
    (fetchPrimary maxAttempts metadata side workspace).Keeps d fun result =>
      Ordinary result ∧ ∀ artifact, result = .ok artifact →
        artifact = ⟨"raw", workspace.primary side, officialNamespace⟩ := by
  unfold fetchPrimary
  split
  · exact .pure ⟨.error rfl, by simp⟩
  refine .andThen (.handle (.map ?_) fun fault _ _ => .pure trivial) fun loaded => ?_
  · exact (hprimary.download _ _).anyway
  split
  · exact checkPrimary_keeps side _ _
  · exact .pure ⟨.error rfl, by simp⟩

/-- The place of a library lies below the directory of the libraries. -/
theorem library_keeps (relative : String) :
    (workspace.library relative).Keeps d fun place => ∃ rest, workspace.LeadsToLibrary d.here rest ∧
      place = .ofLocation (workspace.librariesDirectory.normal d.here ++ rest) := by
  unfold Workspace.library
  refine (resolve_value _).bind fun place hplace => (resolve_value _).bind fun base hbase => ?_
  subst hplace hbase
  split
  · rename_i hbelow
    obtain ⟨hbegins, hne⟩ := hbelow
    obtain ⟨rest, hrest⟩ := List.isPrefixOf_iff_prefix.mp hbegins
    refine .pure ⟨rest, ⟨?_, relative, hrest.symm⟩, congrArg Path.ofLocation hrest.symm⟩
    rintro rfl
    exact hne (by simpa using hrest)
  · exact .throw (d.ordinary _ rfl)

theorem doesExist_keeps (path : Path) : (Action.onFiles (FileTree.doesExist path)).Keeps d any :=
  .look (fun tree => FileTree.eval_doesExist_snd tree path) fun _ _ _ _ => trivial

theorem fetchLibraryTo_keeps (dependency : Dependency) {target : Path}
    (htarget : d.Produces target) : (fetchLibraryTo maxAttempts dependency target).Keeps d any := by
  unfold fetchLibraryTo
  refine (doesExist_keeps target).andThen fun found => ?_
  cases found with
  | true => exact .pure trivial
  | false =>
    refine .handle ?_ fun fault _ _ => .pure trivial
    exact (htarget.download _ _).andThen fun _ => .pure trivial

variable (hlibraries : ∀ rest, workspace.LeadsToLibrary d.here rest → ∀ dependency,
  (fetchLibraryTo maxAttempts dependency
    (.ofLocation (workspace.librariesDirectory.normal d.here ++ rest))).Keeps d any)

include hlibraries

theorem fetchLibrary_keeps (dependency : Dependency) :
    (fetchLibrary maxAttempts workspace dependency).Keeps d any := by
  unfold fetchLibrary
  have hplace : (Action.handle (·.isA .valueError) (fun fault => pure (.error fault))
      (Except.ok <$> workspace.library dependency.path)).Keeps d fun place =>
        ∀ target, place = .ok target →
          (fetchLibraryTo maxAttempts dependency target).Keeps d any := by
    refine .handle (.map ((library_keeps workspace _).weaken ?_)) fun _ _ _ => .pure (by simp)
    rintro _ ⟨rest, hrest, rfl⟩ _ ⟨⟩
    exact hlibraries rest hrest dependency
  refine hplace.bind fun place hfetch => ?_
  cases place with
  | ok target => exact hfetch target rfl
  | error fault => exact .pure trivial

theorem fetchLibraries_keeps (dependencies : List Dependency) :
    (fetchLibraries maxAttempts workspace dependencies).Keeps d any :=
  (Action.Keeps.mapM fun dependency _ =>
    (fetchLibrary_keeps maxAttempts workspace hlibraries dependency)).anyway

end Release

/-! ### Packages and tools -/

theorem isDirectory_keeps (path : Path) :
    (Action.onFiles (FileTree.isDirectory path)).Keeps d any :=
  .look (fun tree => FileTree.eval_isDirectory_snd tree path) fun _ _ _ _ => trivial

theorem isFile_keeps (path : Path) : (Action.onFiles (FileTree.isFile path)).Keeps d any :=
  .look (fun tree => FileTree.eval_isFile_snd tree path) fun _ _ _ _ => trivial

theorem locating_keeps (path : Path) : (Action.onFiles (FileTree.locating path)).Keeps d any :=
  .look (fun tree => FileTree.eval_locating_snd tree path) fun _ _ _ _ => trivial

theorem ensureDirectories_keeps {path : Path}
    (hallows : d.AllowsFiles { made := path.trail d.here }) :
    (Action.onFiles (FileTree.ensureDirectories path)).Keeps d any :=
  .change hallows fun tree hhere => hhere ▸ (FileTree.ensureDirectories_spec tree path).1

theorem Tool.call_keeps {call : ToolCall} (hcall : d.AllowsCall call) :
    (Tool.call call).Keeps d any :=
  fun world hhere hinv => ⟨hcall world hhere hinv, hhere, trivial⟩

namespace Package

theorem isBundled_keeps (path : Path) : (isBundled path).Keeps d any := by
  unfold isBundled
  refine .explain ((readFile_keeps path).andThen fun archive => ?_) fun _ => rfl
  exact .andThen (.ofExcept (fun flaw _ => flaw.isA_exception) fun _ _ => trivial)
    fun entries => .pure trivial

/-- A jar is a file with the name of a jar. -/
theorem of_mem_jarsBelow {files : FileTree} {location : Location} {names : List String}
    (hnames : names ∈ jarsBelow files location) :
    (∃ contents mode, (names, .file contents mode) ∈ files.below location) ∧
      ∃ front last, names = front ++ [last] ∧ Text.endsWith ".jar" last = true := by
  unfold jarsBelow at hnames
  obtain ⟨⟨found, _ | ⟨contents, mode⟩⟩, hmem, hjar⟩ := List.mem_filterMap.mp hnames
  · cases hjar
  dsimp only at hjar
  split at hjar
  · rename_i hends
    obtain rfl := Option.some.inj hjar
    refine ⟨⟨contents, mode, hmem⟩, ?_⟩
    rcases List.eq_nil_or_concat found with rfl | ⟨front, last, rfl⟩
    · exact absurd hends (by decide)
    · exact ⟨front, last, List.concat_eq_append, by simpa using hends⟩
  · cases hjar

theorem foldl_least_mem (start : List String) (rest : List (List String)) :
    rest.foldl (fun least names => if names < least then names else least) start ∈ start :: rest := by
  induction rest generalizing start with
  | nil => exact List.mem_singleton_self _
  | cons other others ih =>
    rw [List.foldl_cons]
    split
    · exact List.mem_cons_of_mem _ (ih other)
    · rcases List.mem_cons.mp (ih start) with heq | hmem
      · rw [heq]
        exact List.mem_cons_self
      · exact List.mem_cons_of_mem _ (List.mem_cons_of_mem _ hmem)

theorem least?_mem {lists : List (List String)} {names : List String}
    (hleast : least? lists = some names) : names ∈ lists := by
  cases lists with
  | nil => cases hleast
  | cons first rest =>
    obtain rfl := Option.some.inj hleast
    exact foldl_least_mem first rest

theorem findPayload_keeps (directory : Path) : (findPayload directory).Keeps d any := by
  unfold findPayload
  refine (isDirectory_keeps _).andThen fun found => ?_
  cases found with
  | false => exact .pure trivial
  | true =>
    refine (locating_keeps _).andThen fun location => ?_
    exact .andThen (.get fun _ _ _ => trivial) fun world => .pure trivial

end Package

theorem Remapper.checkSource_ordinary (artifact : Artifact) (set : MappingSet) :
    Ordinary (Remapper.checkSource artifact set) := by
  unfold Remapper.checkSource
  split
  · exact .ok _
  · exact .error rfl

theorem Remapper.clearOutput_keeps (artifact : Artifact) (set : MappingSet) {output : Path}
    (hmade : d.AllowsFiles { made := output.parent.trail d.here })
    (hremoved : d.AllowsFiles { removed := {output.normal d.here} }) :
    (Remapper.clearOutput artifact set output).Keeps d any := by
  unfold Remapper.clearOutput
  refine (resolve_keeps _).andThen fun to_ => (resolve_keeps _).andThen fun from_ => ?_
  refine .bind (.refuse fun _ => d.ordinary _ rfl) fun _ _ => ?_
  refine (ensureDirectories_keeps hmade).andThen fun _ => ?_
  exact .change hremoved fun tree hhere => hhere ▸ FileTree.discard_change tree output

end JarRefinery
