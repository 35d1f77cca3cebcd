import JarRefinery.Proofs.Accounts
import JarRefinery.Proofs.Files.Unseen
import JarRefinery.Proofs.LikeStages

/-!
# What fetching libraries leaves

Where the directory of the libraries is there, fetching libraries changes nothing but what is below
it. What is told of them afterwards changes nothing but the event log. So where neither is seen, the
stage that fetches leaves what it left when it turned to the libraries.
-/

namespace JarRefinery

open Action (any)
open FileTree (Unseen Covered View)

variable {workspace : Workspace} {files later : FileTree} {view : View}

/-! ### The ground of libraries -/

namespace Workspace

/-- The directory of the libraries is there, below directories. -/
def Founded (workspace : Workspace) (files : FileTree) : Prop :=
  ∀ passed ∈ workspace.librariesDirectory.trail files.here, ∀ location, location <+: passed →
    files.node? location = some .directory

theorem Founded.of_directories (hdirectory : files.HasDirectory workspace.librariesDirectory)
    (hplaced : ∀ location, location <+: files.here → files.node? location = some .directory) :
    workspace.Founded files := by
  rintro _ ⟨front, back, hparts, rfl⟩ location hlocation
  rcases Path.prefix_walk hlocation with ⟨first, rest, rfl, rfl⟩ | hstart
  · exact hdirectory.node_of_mem_trail ⟨first, rest ++ back, by rw [hparts, List.append_assoc], rfl⟩
  · unfold Path.start at hstart
    split at hstart
    · rw [List.prefix_nil.mp hstart, FileTree.node?_root]
    · exact hplaced location hstart

namespace Founded

variable (hfounded : workspace.Founded files)

include hfounded

theorem kept (hhere : later.here = files.here)
    (hkept : ∀ location, files.node? location = some .directory →
      later.node? location = some .directory) : workspace.Founded later := by
  intro passed hpassed location hlocation
  rw [hhere] at hpassed
  exact hkept _ (hfounded passed hpassed location hlocation)

/-- Everything below the directory is a place of libraries, unless it is a directory that leads to the
workspace. -/
theorem below {rest : List String} (hrest : rest ≠ []) :
    workspace.librariesDirectory.normal files.here ++ rest ∈ workspace.libraryPlaces files.here ∨
      files.node? (workspace.librariesDirectory.normal files.here ++ rest) = some .directory := by
  by_cases hpassed : ∃ passed ∈ workspace.root.trail files.here,
      workspace.librariesDirectory.normal files.here ++ rest <+: passed
  · obtain ⟨passed, htrail, hlocation⟩ := hpassed
    have hroot : workspace.librariesDirectory.parent = workspace.root := isName_libraries.parent_div
    exact .inr (hfounded passed (Path.trail_parent_subset _ _ (hroot ▸ htrail)) _ hlocation)
  · simp only [not_exists, not_and] at hpassed
    exact .inl ⟨List.prefix_append _ _, by simpa using hrest, hpassed⟩

theorem covered (hgone : view.gone = workspace.libraryPlaces view.here) (hhere : files.here = view.here)
    {rest : List String} (hdots : ".." ∉ workspace.librariesDirectory.normal view.here ++ rest) :
    Covered view files (.ofLocation (workspace.librariesDirectory.normal view.here ++ rest)) := by
  rintro _ ⟨front, back, hparts, rfl⟩
  change workspace.librariesDirectory.normal view.here ++ rest = front ++ back at hparts
  have hfront : ".." ∉ front := fun hmem => hdots (hparts ▸ List.mem_append_left _ hmem)
  rw [Path.walk_eq_append hfront, hgone]
  change front ∈ _ ∨ files.node? front = _
  rw [← hhere] at hparts ⊢
  rcases List.append_eq_append_iff.mp hparts with ⟨more, rfl, -⟩ | ⟨more, hlibraries, -⟩
  · rcases eq_or_ne more [] with rfl | hmore
    · rw [List.append_nil]
      exact .inr (hfounded _ (Path.normal_mem_trail _ _) _ List.prefix_rfl)
    · exact hfounded.below hmore
  · exact .inr (hfounded _ (Path.normal_mem_trail _ _) _ ⟨more, hlibraries.symm⟩)

end Founded

end Workspace

/-! ### Libraries -/

/-- Nothing changes that is seen, and no tool is called. -/
def Discipline.unnoticed (host : Host) (view : View) (workspace : Workspace) : Discipline where
  host := host
  here := view.here
  inv := fun world => workspace.Founded world.files
  step := fun before after => Unseen view before.files after.files ∧
    after.calls = before.calls ∧ after.state = before.state
  faults := fun _ => True
  refl := fun world => ⟨.refl world.files, rfl, rfl⟩
  trans := fun hfirst hsecond => ⟨hfirst.1.trans hsecond.1, hsecond.2.1.trans hfirst.2.1,
    hsecond.2.2.trans hfirst.2.2⟩
  keep := fun hstep hfounded => hfounded.kept hstep.1.here hstep.1.directory
  ordinary := fun _ _ => trivial

namespace Discipline.unnoticed

variable (host : Host)

theorem allowsNetwork : (unnoticed host view workspace).AllowsNetwork where
  ask := fun world _ => ⟨.refl world.files, rfl, rfl⟩
  wait := fun world _ => ⟨.refl world.files, rfl, rfl⟩
  failure := fun _ _ _ _ => trivial
  broken := fun _ _ _ _ _ _ _ => trivial

theorem files_keeps {α : Type} {operation : FileTree.Action α} {post : α → Prop}
    (hunseen : ∀ tree, tree.here = view.here → workspace.Founded tree →
      Unseen view tree (operation.eval tree).2)
    (hpost : ∀ tree value, tree.here = view.here → (operation.eval tree).1 = .ok value → post value) :
    (Action.onFiles operation).Keeps (unnoticed host view workspace) post := by
  intro world hhere hfounded
  have hafter := hunseen world.files hhere hfounded
  rw [Action.eval_onFiles]
  refine ⟨⟨hafter, rfl, rfl⟩, hafter.here.trans hhere, ?_⟩
  rcases heval : (operation.eval world.files).1 with error | value
  · trivial
  · exact hpost world.files value hhere heval

theorem files_anyway {α : Type} {operation : FileTree.Action α}
    (hunseen : ∀ tree, tree.here = view.here → workspace.Founded tree →
      Unseen view tree (operation.eval tree).2) :
    (Action.onFiles operation).Keeps (unnoticed host view workspace) any :=
  files_keeps host hunseen fun _ _ _ _ => trivial

end Discipline.unnoticed

section Libraries

variable {host : Host} (hgone : view.gone = workspace.libraryPlaces view.here)
  {rest : List String} (hdots : ".." ∉ workspace.librariesDirectory.normal view.here ++ rest)

include hgone hdots

theorem writeBody_unnoticed (piece : Int) (response : Http.Response) :
    (Http.writeBody piece (.ofLocation (workspace.librariesDirectory.normal view.here ++ rest))
      response).Keeps (.unnoticed host view workspace) any := by
  have hcovered : ∀ tree, tree.here = view.here → workspace.Founded tree →
      Covered view tree (.ofLocation (workspace.librariesDirectory.normal view.here ++ rest)) :=
    fun tree hhere hfounded => hfounded.covered hgone hhere hdots
  generalize Path.ofLocation (workspace.librariesDirectory.normal view.here ++ rest) = file
    at hcovered ⊢
  have hpieces : ∀ pieces, (Http.writePieces file pieces).Keeps (.unnoticed host view workspace) any := by
    intro pieces
    induction pieces with
    | nil => exact .pure trivial
    | cons piece pieces ih =>
      have happend := Discipline.unnoticed.files_anyway host fun tree hhere hfounded =>
        FileTree.appendFile_unseen hhere (hcovered tree hhere hfounded) piece
      exact happend.andThen fun _ => ih.andThen fun _ => .pure trivial
  have hread : response.read.Keeps (.unnoticed host view workspace) any := by
    unfold Http.Response.read
    split
    · exact .pure trivial
    · exact .throw trivial
  unfold Http.writeBody
  refine .andThen (Discipline.unnoticed.files_anyway host fun tree hhere hfounded =>
    FileTree.writeFile_unseen hhere (hcovered tree hhere hfounded) []) fun _ => ?_
  refine .bind (.refuse fun _ => trivial) fun _ _ => ?_
  exact (hpieces _).andThen fun _ => hread.andThen fun _ => (hpieces _).andThen fun _ => .pure trivial

variable (hrest : rest ≠ [])

include hrest

/-- A temporary file for a library is made below the directory of the libraries too. -/
theorem newSibling_unnoticed :
    (Action.onFiles (FileTree.newSibling
      (.ofLocation (workspace.librariesDirectory.normal view.here ++ rest)))).Keeps
        (.unnoticed host view workspace) fun sibling => ∃ beside,
          ".." ∉ workspace.librariesDirectory.normal view.here ++ beside ∧
            sibling = .ofLocation (workspace.librariesDirectory.normal view.here ++ beside) := by
  have hparent : (Path.ofLocation (workspace.librariesDirectory.normal view.here ++ rest)).parent =
      .ofLocation (workspace.librariesDirectory.normal view.here ++ rest.dropLast) := by
    simp [Path.parent, Path.ofLocation, List.dropLast_append_of_ne_nil hrest]
  have hshort : ".." ∉ workspace.librariesDirectory.normal view.here ++ rest.dropLast := by
    rw [← List.dropLast_append_of_ne_nil hrest]
    exact fun hmem => hdots (List.dropLast_subset _ hmem)
  generalize Path.ofLocation (workspace.librariesDirectory.normal view.here ++ rest) = target
    at hparent ⊢
  refine Discipline.unnoticed.files_keeps host (fun tree hhere hfounded => ?_)
    fun tree sibling hhere hmade => ?_
  · refine FileTree.newSibling_unseen hhere
      (hparent ▸ hfounded.covered hgone hhere hshort) fun n => ?_
    rw [hparent, Path.normal_ofLocation hshort, List.append_assoc, hgone, ← hhere]
    exact hfounded.below (by simp)
  · obtain ⟨n, rfl⟩ := FileTree.newSibling_ok hmade
    rw [hhere, hparent, Path.normal_ofLocation hshort, List.append_assoc]
    refine ⟨_, ?_, rfl⟩
    rw [← List.append_assoc, List.mem_append, List.mem_singleton, not_or]
    exact ⟨hshort, (FileTree.siblingName_ne_dots _ _).symm⟩

/-- The download of a library leaves nothing that is seen. -/
theorem download_unnoticed (maxAttempts : Int) (url : String) :
    (Http.download maxAttempts url
      (.ofLocation (workspace.librariesDirectory.normal view.here ++ rest))).Keeps
        (.unnoticed host view workspace) any := by
  unfold Http.download Http.downloadBy Action.withSibling
  refine (newSibling_unnoticed hgone hdots hrest).bind ?_
  rintro _ ⟨beside, hplain, rfl⟩
  have hnetwork : (Discipline.unnoticed host view workspace).AllowsNetwork :=
    Discipline.unnoticed.allowsNetwork host
  have hfetch := Http.fetch_keeps hnetwork (fun response _ =>
    writeBody_unnoticed hgone hplain Http.defaultPiece response) maxAttempts url
  have hlength : ∀ length : Nat,
      (pure length : Action Nat).Keeps (.unnoticed host view workspace) any := fun _ => .pure trivial
  have hmove := Discipline.unnoticed.files_anyway host fun tree hhere hfounded =>
    FileTree.rename_unseen hhere (hfounded.covered hgone hhere hplain)
      (hfounded.covered hgone hhere hdots)
  have hdiscard := Discipline.unnoticed.files_anyway host fun tree hhere hfounded =>
    FileTree.discard_unseen hhere (hfounded.covered hgone hhere hplain)
  unfold Action.discarding Action.moving
  refine (hfetch.andThen fun length => hmove.andThen fun _ =>
    hlength length).outcome.anyway.andThen fun result => hdiscard.andThen fun _ => ?_
  cases result with
  | ok value => exact .pure trivial
  | error fault => exact .throw trivial

end Libraries

/-- Fetching libraries leaves nothing that is seen. -/
theorem fetchLibraries_unnoticed (host : Host)
    (hgone : view.gone = workspace.libraryPlaces view.here) (hrooted : ".." ∉ view.here)
    (maxAttempts : Int) (dependencies : List Dependency) :
    (Release.fetchLibraries maxAttempts workspace dependencies).Keeps
      (.unnoticed host view workspace) any := by
  refine Release.fetchLibraries_keeps _ _ (fun rest hrest dependency => ?_) dependencies
  have hdots : ".." ∉ workspace.librariesDirectory.normal view.here ++ rest := by
    rw [List.mem_append, not_or]
    exact ⟨Path.dots_notMem_normal hrooted _, hrest.noDots hrooted⟩
  unfold Release.fetchLibraryTo
  refine (Release.doesExist_keeps _).andThen fun found => ?_
  cases found with
  | true => exact .pure trivial
  | false =>
    refine .handle ?_ fun _ _ _ => .pure trivial
    exact (download_unnoticed hgone hdots hrest.some _ _).andThen fun _ => .pure trivial

/-! ### Telling of libraries -/

/-- Nothing happens but that the event log, which stays a file, holds more. -/
def Discipline.telling (host : Host) (view : View) (log : Path) : Discipline where
  host := host
  here := view.here
  inv := fun world => world.files.Stands log
  step := fun before after => Unseen view before.files after.files ∧
    (before.files.Stands log → after.files.Stands log) ∧ after.requests = before.requests ∧
    after.calls = before.calls ∧ after.state = before.state
  faults := fun _ => True
  refl := fun world => ⟨.refl world.files, id, rfl, rfl, rfl⟩
  trans := fun hfirst hsecond =>
    ⟨hfirst.1.trans hsecond.1, fun hstands => hsecond.2.1 (hfirst.2.1 hstands),
      hsecond.2.2.1.trans hfirst.2.2.1, hsecond.2.2.2.1.trans hfirst.2.2.2.1,
      hsecond.2.2.2.2.trans hfirst.2.2.2.2⟩
  keep := fun hstep hstands => hstep.2.1 hstands
  ordinary := fun _ _ => trivial

namespace Discipline.telling

variable (host : Host) {run : Run}

theorem allowsLog : (telling host view run.events.path).AllowsLog :=
  fun world _ => ⟨.refl world.files, id, rfl, rfl, rfl⟩

variable (hclear : view.Clear run.events.path)
  (hhidden : run.events.path.normal view.here ∈ view.hidden)

include hclear hhidden

theorem append_succeeds (event : Event) :
    (run.events.append event).Succeeds (telling host view run.events.path) any := by
  have happend : ∀ world, (telling host view run.events.path).Ready world →
      ∃ after, (run.events.append event).eval host world = (.ok (), after) ∧
        (telling host view run.events.path).step world after ∧ after.files.here = view.here := by
    rintro world ⟨hhere, hstands⟩
    change world.files.here = view.here at hhere
    obtain ⟨contents, mode, hnode⟩ := hstands.node
    have heval : (run.events.append event).eval host world = (.ok (), { world with
        files := world.files.put (run.events.path.normal world.files.here)
          (.file (contents ++ Pipeline.line host event) mode) }) := by
      unfold EventLog.append
      rw [Action.eval_bind_ok (Action.eval_read host world), Action.eval_onFiles,
        hstands.reachable.eval_appendFile hnode]
      rfl
    rw [hhere] at heval hnode
    exact ⟨_, heval, ⟨.put_hidden hclear.normal hhidden hnode _, fun _ => Pipeline.stands_of_append heval,
      rfl, rfl, rfl⟩, hhere⟩
  refine ⟨fun world hhere hstands => ?_, fun world hready => ?_⟩
  · obtain ⟨after, heval, hstep, hafter⟩ := happend world ⟨hhere, hstands⟩
    rw [show (telling host view run.events.path).host = host from rfl, heval]
    exact ⟨hstep, hafter, trivial⟩
  · obtain ⟨after, heval, -, -⟩ := happend world hready
    exact ⟨(), congrArg Prod.fst heval⟩

theorem tellLibraries_succeeds (ref : ArtifactRef) (libraries : List LibraryFetch) :
    (Stage.tellLibraries run ref libraries).Succeeds (telling host view run.events.path) any := by
  have htells := append_succeeds host hclear hhidden
  unfold Stage.tellLibraries
  refine .andThen (.forM fun library _ => ?_) fun _ => .pure trivial
  have hmissing : (Stage.announceMissing run library).Succeeds
      (telling host view run.events.path) any := by
    unfold Stage.announceMissing
    split
    · exact .pure trivial
    · exact Run.emit_succeeds htells _ _ _
  rw [Stage.announceLibrary_eq]
  split
  · exact (Run.emit_succeeds htells _ _ _).andThen fun _ => hmissing
  · exact hmissing

end Discipline.telling

/-! ### The stage that fetches -/

/-- No directory is taken away while the jar is fetched. -/
theorem Pipeline.rising.fetchJar_keeps {host : Host} {here : Location} (hrooted : ".." ∉ here)
    (run : Run) (metadata : VersionMetadata) :
    (Stage.fetchJar run metadata).Keeps (rising host here) any := by
  have hprimary : (rising host here).Produces (run.workspace.primary run.side) :=
    allowsNetwork.produces (allowsFiles hrooted _)
  unfold Stage.fetchJar
  refine (Release.fetchPrimary_keeps _ _ _ _ hprimary).anyway.andThen fun fetched => ?_
  refine .andThen (.ofResult (fun _ _ => trivial) fun _ _ => trivial) fun primary => ?_
  refine (Run.hand_keeps (allowsHand _)).andThen fun _ => ?_
  exact Run.recordArtifact_keeps (allowsFiles hrooted _) _ _ _

namespace Stage

variable {host : Host} {run : Run} {metadata : VersionMetadata} {ref : ArtifactRef}
  {reached started before after : World} {libraries : List LibraryFetch} {position : Option String}

/-- The jar was told of in the event log. -/
theorem stands_of_fetchJar (hjar : (fetchJar run metadata).eval host started = (.ok ref, before)) :
    before.files.Stands run.events.path := by
  unfold fetchJar Run.recordArtifact at hjar
  obtain ⟨_, _, -, hjar⟩ := Action.of_eval_bind_ok hjar
  obtain ⟨_, _, -, hjar⟩ := Action.of_eval_bind_ok hjar
  obtain ⟨_, _, -, hjar⟩ := Action.of_eval_bind_ok hjar
  obtain ⟨_, _, -, hjar⟩ := Action.of_eval_bind_ok hjar
  obtain ⟨_, told, htold, hpure⟩ := Action.of_eval_bind_ok hjar
  obtain ⟨-, rfl⟩ := Prod.mk.inj hpure
  exact Pipeline.stands_of_append htold

/-- Once libraries have been fetched, whatever has become of them, the stage succeeds. It leaves
nothing else that is seen. -/
theorem execute_fetch_of_libraries {view : View} (hgone : view.gone = run.workspace.libraryPlaces view.here)
    (hrooted : ".." ∉ view.here) (hclear : view.Clear run.events.path)
    (hhidden : run.events.path.normal view.here ∈ view.hidden)
    (hbegin : (Stage.begin run ⟨"fetch", fetch⟩ (.ofOption position)).eval host reached =
      (.ok (), started))
    (hmetadata : started.state.metadata = some metadata)
    (hjar : (fetchJar run metadata).eval host started = (.ok ref, before))
    (hlibraries : (Release.fetchLibraries run.maxAttempts run.workspace metadata.dependencies).eval
      host before = (.ok libraries, after))
    (hhere : before.files.here = view.here) (hfounded : run.workspace.Founded before.files) :
    ∃ result ended, (Stage.execute run position ⟨"fetch", fetch⟩).eval host reached = (.ok result, ended) ∧
      result.stage = "fetch" ∧ result.status = .success ∧ Unseen view before.files ended.files ∧
      ended.requests = after.requests ∧ ended.calls = before.calls ∧ ended.state = before.state := by
  have hquiet : (Release.fetchLibraries run.maxAttempts run.workspace metadata.dependencies).Keeps
      (.unnoticed host view run.workspace) any := fetchLibraries_unnoticed host hgone hrooted _ _
  obtain ⟨hunseen, hcalls, hstate⟩ := hquiet.step hhere hfounded
  rw [show (Discipline.unnoticed host view run.workspace).host = host from rfl, hlibraries]
    at hunseen hcalls hstate
  have hrow := (Release.row_of_eval_fetchLibraries_ok (hhere ▸ hrooted) hlibraries).2
  have hready : (Discipline.telling host view run.events.path).Ready after :=
    ⟨hunseen.here.trans hhere, hrow.stands (hhere ▸ hrooted) (stands_of_fetchJar hjar)⟩
  have htells := Discipline.telling.append_succeeds host hclear hhidden
  obtain ⟨output, told, htell, -, htold, hstep⟩ :=
    (Discipline.telling.tellLibraries_succeeds host hclear hhidden ref libraries).value hready
  obtain ⟨result, ended, hfinish, ⟨hname, hstatus⟩, -, hstep'⟩ := (finish_succeeds htells
    (Discipline.telling.allowsLog host) ⟨"fetch", fetch⟩ (.ofOption position) output).value htold
  have hperform : (Stage.perform ⟨"fetch", fetch⟩ run).eval host started = (.ok output, told) := by
    change (fetch run).eval host started = _
    rw [fetch_eq, Action.eval_bind_ok (Run.eval_handed host started)]
    simp only [hmetadata]
    rw [Action.eval_bind_ok hjar, Action.eval_bind_ok hlibraries]
    exact htell
  obtain ⟨hended, -, hrequests, hcalls', hstate'⟩ :=
    (Discipline.telling host view run.events.path).trans hstep hstep'
  refine ⟨result, ended, ?_, hname, hstatus, hunseen.trans hended, hrequests, hcalls'.trans hcalls,
    hstate'.trans hstate⟩
  rw [eval_execute, hbegin]
  simp only [hperform]
  exact hfinish

end Stage

end JarRefinery
