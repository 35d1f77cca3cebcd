import JarRefinery.Mapping.Container
import JarRefinery.Mapping.Header
import JarRefinery.Proofs.Files.Sibling
import JarRefinery.Proofs.Requests
import JarRefinery.Strip

/-!
# Producers of files

Every operation that produces a file fills a temporary file beside its target and moves it there at
the end. It touches nothing but the target, temporary files beside it and directories above it.
-/

namespace JarRefinery

open Action (any)

namespace Action

variable {host : Host} {world : World} {path : Path}

theorem eval_resolve (hnull : FileTree.hasNull path = false) :
    (onFiles (FileTree.resolve path)).eval host world =
      (.ok (.ofLocation (path.normal world.files.here)), world) := by
  rw [eval_onFiles, FileTree.eval_resolve _ hnull]
  rfl

theorem eval_resolve_null (hnull : FileTree.hasNull path = true) :
    (onFiles (FileTree.resolve path)).eval host world = (.error (.ofFile .nullByte), world) := by
  rw [eval_onFiles, FileTree.eval_resolve_null _ hnull]
  rfl

theorem eval_readFile {contents : Bytes} (hholds : world.files.Holds path contents) :
    (onFiles (FileTree.readFile path)).eval host world = (.ok contents, world) := by
  rw [eval_onFiles, hholds.eval_readFile]
  rfl

end Action

/-! ### What a temporary file is filled with -/

section Fill

variable {d : Discipline} {file : Path}
  (hallows : d.AllowsFiles { written := {file.normal d.here} })

include hallows

theorem writeFile_keeps (contents : Bytes) :
    (Action.onFiles (FileTree.writeFile file contents)).Keeps d any :=
  .change hallows fun tree hhere => hhere ▸ FileTree.writeFile_change tree file contents

theorem appendFile_keeps (contents : Bytes) :
    (Action.onFiles (FileTree.appendFile file contents)).Keeps d any :=
  .change hallows fun tree hhere => hhere ▸ FileTree.appendFile_change tree file contents

omit hallows in
theorem readFile_keeps (source : Path) : (Action.onFiles (FileTree.readFile source)).Keeps d any :=
  .look (fun tree => FileTree.eval_readFile_snd tree source) fun _ _ _ _ => trivial

omit hallows in
theorem resolve_keeps (path : Path) : (Action.onFiles (FileTree.resolve path)).Keeps d any :=
  .look (fun tree => FileTree.eval_resolve_snd tree path) fun _ _ _ _ => trivial

omit hallows in
theorem resolve_value (path : Path) :
    (Action.onFiles (FileTree.resolve path)).Keeps d fun found =>
      found = .ofLocation (path.normal d.here) := by
  refine .look (fun tree => FileTree.eval_resolve_snd tree path) fun tree value hhere heval => ?_
  rw [← hhere]
  exact FileTree.resolve_ok tree path (Prod.ext heval rfl)

omit hallows in
theorem TextFile.read_keeps (path : Path) : (TextFile.read path).Keeps d any := by
  unfold TextFile.read
  refine (readFile_keeps path).andThen fun bytes => ?_
  exact .andThen (.ofExcept (fun _ _ => rfl) fun _ _ => trivial) fun chars => .pure trivial

theorem Http.writePieces_keeps (pieces : List Bytes) :
    (Http.writePieces file pieces).Keeps d any := by
  induction pieces with
  | nil => exact .pure trivial
  | cons piece rest ih =>
    exact (appendFile_keeps hallows piece).andThen fun _ => ih.andThen fun _ => .pure trivial

theorem Http.writeBody_keeps (piece : Int) {response : Http.Response} (hsound : response.Sound d) :
    (Http.writeBody piece file response).Keeps d any := by
  unfold Http.writeBody
  refine (writeFile_keeps hallows _).andThen fun _ => ?_
  refine .bind (.refuse fun _ => d.ordinary _ (by split <;> rfl)) fun _ _ => ?_
  refine (writePieces_keeps hallows _).andThen fun _ => ?_
  refine hsound.read_keeps.andThen fun body => ?_
  exact (writePieces_keeps hallows _).andThen fun _ => .pure trivial

omit hallows in
theorem Mapping.entryContent_ordinary (container : Path) (name : String) (archive : Bytes) :
    Ordinary (Mapping.entryContent container name archive) := by
  unfold Mapping.entryContent
  refine .bind (.mapError Archive.Flaw.isA_exception) fun entries => ?_
  split
  · exact .mapError Archive.Flaw.isA_exception
  · exact .error rfl

theorem Mapping.fillFromEntry_keeps (container : Path) (name : String) :
    (Mapping.fillFromEntry container name file).Keeps d any := by
  unfold Mapping.fillFromEntry
  refine (readFile_keeps container).andThen fun archive => ?_
  refine .andThen (.ofOrdinary (Mapping.entryContent_ordinary _ _ _)) fun content => ?_
  exact writeFile_keeps hallows content

theorem Mapping.fillFromCompressed_keeps (source : Path) :
    (Mapping.fillFromCompressed source file).Keeps d any := by
  unfold Mapping.fillFromCompressed
  refine (readFile_keeps source).andThen fun compressed => ?_
  refine .andThen (.ofExcept (fun flaw _ => flaw.isA_exception) fun _ _ => trivial)
    fun content => ?_
  exact writeFile_keeps hallows content

theorem Strip.fill_keeps (source : Path) : (Strip.fill source file).Keeps d any := by
  unfold Strip.fill
  refine (readFile_keeps source).andThen fun archive => ?_
  refine .andThen (.ofExcept (fun flaw _ => flaw.isA_exception) fun _ _ => trivial)
    fun stripped => ?_
  exact (writeFile_keeps hallows _).andThen fun _ => .pure trivial

omit hallows in
theorem TextFile.encode_ordinary (style : TextFile.Style) (text : String) :
    Ordinary (TextFile.encode style text) := by
  unfold TextFile.encode
  dsimp only
  split
  · exact .error rfl
  split
  · exact .error rfl
  · exact .mapError fun _ => rfl

theorem TextFile.fill_keeps (style : TextFile.Style) (text : String) :
    (TextFile.fill style text file).Keeps d any := by
  unfold TextFile.fill
  refine .andThen (.ofOrdinary (TextFile.encode_ordinary style text)) fun bytes => ?_
  refine (writeFile_keeps hallows bytes).andThen fun _ => ?_
  unfold TextFile.setMode
  split
  · exact .pure trivial
  · exact .change hallows fun tree hhere => hhere ▸ FileTree.setMode_change tree file _

end Fill

/-! ### Producers under a discipline -/

/-- The places of temporary files of a target. -/
def siblings (here : Location) (target : Path) : Set Location :=
  fun location => ∃ n, location =
    target.parent.normal here ++ [FileTree.siblingName target.name n]

/-- What producing a file may touch: the directories above it, the file, and temporary files beside
it. -/
def Footprint.around (here : Location) (target : Path) : Footprint where
  made := target.parent.trail here
  written := siblings here target ∪ {target.normal here}
  removed := siblings here target

theorem FileTree.newSibling_change {tree : FileTree} (hrooted : ".." ∉ tree.here)
    (target : Path) :
    Change (.around tree.here target) tree ((FileTree.newSibling target).eval tree).2 ∧
      ∀ sibling, ((FileTree.newSibling target).eval tree).1 = .ok sibling →
        sibling.normal tree.here ∈ siblings tree.here target := by
  rcases FileTree.newSibling_cases hrooted target with
    ⟨ready, sibling, place, hbeside, heval⟩ | ⟨error, after, hmade, heval⟩
  · have hput := hbeside.put [] 0o600
    have hplace : place ∈ siblings tree.here target := hbeside.eq_place
    rw [heval]
    refine ⟨(hbeside.made.mono ?_).trans (hput.mono ?_), ?_⟩
    · exact ⟨subset_rfl, Set.empty_subset _, Set.empty_subset _⟩
    · exact ⟨Set.empty_subset _, Set.singleton_subset_iff.mpr (.inl hplace), Set.empty_subset _⟩
    · rintro _ ⟨⟩
      rwa [hbeside.normal]
  · rw [heval]
    refine ⟨hmade.mono ?_, by simp⟩
    exact ⟨subset_rfl, Set.empty_subset _, Set.empty_subset _⟩

section Around

variable {α : Type} {d : Discipline} {target : Path}

theorem discarding_keeps {action : Action α} {post : α → Prop} {path : Path}
    (hallows : d.AllowsFiles { removed := {path.normal d.here} })
    (haction : action.Keeps d post) : (action.discarding path).Keeps d post := by
  unfold Action.discarding
  refine haction.outcome.bind fun result hresult => ?_
  refine .andThen (.change hallows fun tree hhere => hhere ▸ FileTree.discard_change tree path)
    fun _ => ?_
  cases result with
  | ok value => exact .pure hresult
  | error fault => exact .throw hresult

variable (hallows : d.AllowsFiles (.around d.here target))

include hallows

theorem withSibling_keeps {use : Path → Action α} {post : α → Prop}
    (huse : ∀ sibling, (".." ∉ d.here → sibling.normal d.here ∈ siblings d.here target) →
      (use sibling).Keeps d post) :
    (Action.withSibling target use).Keeps d post := by
  unfold Action.withSibling
  refine .bind (.onFiles hallows (fun tree hhere => ⟨?_, fun hrooted => ?_⟩) ?_)
    fun sibling hsibling => discarding_keeps (hallows.mono fun hrooted => ?_) (huse sibling hsibling)
  · exact (FileTree.eval_newSibling_here tree target).trans hhere
  · rw [← hhere] at hrooted ⊢
    exact (FileTree.newSibling_change hrooted target).1
  · intro tree sibling after hhere heval hrooted
    rw [← hhere] at hrooted ⊢
    exact (FileTree.newSibling_change hrooted target).2 sibling (by rw [heval])
  · exact ⟨Set.empty_subset _, Set.empty_subset _,
      Set.singleton_subset_iff.mpr (hsibling hrooted)⟩

theorem moving_keeps {sibling : Path} {fill : Action α} {post : α → Prop}
    (hsibling : ".." ∉ d.here → sibling.normal d.here ∈ siblings d.here target)
    (hfill : d.AllowsFiles { written := {sibling.normal d.here} } → fill.Keeps d post) :
    (Action.moving sibling target fill).Keeps d post := by
  unfold Action.moving
  refine .bind (hfill (hallows.mono fun hrooted => ?_)) fun value hvalue => ?_
  · exact ⟨Set.empty_subset _, Set.singleton_subset_iff.mpr (.inl (hsibling hrooted)),
      Set.empty_subset _⟩
  refine .andThen (.change (hallows.mono fun hrooted => ?_) fun tree hhere =>
    hhere ▸ FileTree.rename_change tree sibling target) fun _ => .pure hvalue
  exact ⟨Set.empty_subset _, Set.singleton_subset_iff.mpr (.inr rfl),
    Set.singleton_subset_iff.mpr (hsibling hrooted)⟩

theorem Http.downloadBy_keeps (hnetwork : d.AllowsNetwork) (piece maxAttempts : Int)
    (url : String) : (Http.downloadBy piece maxAttempts url target).Keeps d any := by
  refine withSibling_keeps hallows fun sibling hsibling =>
    moving_keeps hallows hsibling fun hwrite => ?_
  exact Http.fetch_keeps hnetwork
    (fun response hsound => Http.writeBody_keeps hwrite piece hsound) maxAttempts url

theorem Http.download_keeps (hnetwork : d.AllowsNetwork) (maxAttempts : Int) (url : String) :
    (Http.download maxAttempts url target).Keeps d any :=
  Http.downloadBy_keeps hallows hnetwork _ maxAttempts url

theorem Mapping.extractEntry_keeps (container : Path) (name : String) :
    (Mapping.extractEntry container name target).Keeps d any := by
  refine withSibling_keeps hallows fun sibling hsibling =>
    .explain (moving_keeps hallows hsibling fun hwrite => ?_) fun _ => rfl
  exact (Mapping.fillFromEntry_keeps hwrite container name).andThen fun _ => .pure trivial

theorem Mapping.gunzip_keeps (source : Path) : (Mapping.gunzip source target).Keeps d any := by
  refine withSibling_keeps hallows fun sibling hsibling =>
    .explain (moving_keeps hallows hsibling fun hwrite => ?_) fun _ => rfl
  exact (Mapping.fillFromCompressed_keeps hwrite source).andThen fun _ => .pure trivial

theorem TextFile.write_keeps (style : TextFile.Style) (text : String) :
    (TextFile.write style target text).Keeps d any :=
  withSibling_keeps hallows fun _ hsibling =>
    moving_keeps hallows hsibling fun hwrite => TextFile.fill_keeps hwrite style text

theorem Strip.strip_keeps (source : Path) : (Strip.strip source target).Keeps d any := by
  unfold Strip.strip
  refine (resolve_keeps source).andThen fun from_ => (resolve_keeps target).andThen fun to_ => ?_
  refine .bind (.refuse fun _ => d.ordinary _ rfl) fun _ _ => ?_
  exact withSibling_keeps hallows fun sibling hsibling =>
    .explain (moving_keeps hallows hsibling fun hwrite => Strip.fill_keeps hwrite source)
      fun _ => rfl

theorem Mapping.normalizeFile_keeps (source space : String) (document : Path) :
    (Mapping.normalizeFile source space document target).Keeps d any := by
  unfold Mapping.normalizeFile
  refine (resolve_keeps document).andThen fun from_ => (resolve_keeps target).andThen fun to_ => ?_
  refine .bind (.refuse fun _ => d.ordinary _ rfl) fun _ _ => ?_
  refine (TextFile.read_keeps document).andThen fun text => ?_
  exact (TextFile.write_keeps hallows _ _).andThen fun _ => .pure trivial

end Around

/-- Producing a file at the target keeps to the discipline, whatever it is made from. -/
structure Discipline.Produces (d : Discipline) (target : Path) : Prop where
  download : ∀ maxAttempts url, (Http.download maxAttempts url target).Keeps d any
  extract : ∀ container name, (Mapping.extractEntry container name target).Keeps d any
  gunzip : ∀ source, (Mapping.gunzip source target).Keeps d any
  strip : ∀ source, (Strip.strip source target).Keeps d any
  normalize : ∀ source space document,
    (Mapping.normalizeFile source space document target).Keeps d any

theorem Discipline.AllowsNetwork.produces {d : Discipline} (hnetwork : d.AllowsNetwork)
    {target : Path} (hallows : d.AllowsFiles (.around d.here target)) : d.Produces target where
  download := Http.download_keeps hallows hnetwork
  extract := Mapping.extractEntry_keeps hallows
  gunzip := Mapping.gunzip_keeps hallows
  strip := Strip.strip_keeps hallows
  normalize := Mapping.normalizeFile_keeps hallows

end JarRefinery
