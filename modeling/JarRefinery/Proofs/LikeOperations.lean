import JarRefinery.Proofs.Containment
import JarRefinery.Proofs.Likeness
import JarRefinery.Proofs.Manifest

/-!
# What operations do not see

Requests, downloads, tools and the telling of events do not see the hidden files, and they do not come
upon what is gone if their paths do not lead there. A file that is read must be seen.
-/

namespace JarRefinery

open Action (any)

variable {α : Type} {l : Likeness}

/-! ### Directories that are seen -/

namespace FileTree.View

/-- Nothing on the way to the directory is gone, and nothing in it. -/
structure Exposes (view : View) (directory : Path) : Prop where
  clear : view.Clear directory
  below : ∀ rest, directory.normal view.here ++ rest ∉ view.gone

namespace Exposes

variable {view : View} {directory path : Path} (hexposes : view.Exposes directory)

include hexposes

theorem within (hwithin : directory.Within path) : view.Clear path := by
  intro location hlocation
  rcases hwithin.mem_trail hlocation with htrail | ⟨rest, rfl⟩
  · exact hexposes.clear location htrail
  · exact hexposes.below rest

theorem inside (hwithin : directory.Within path) : view.Exposes path where
  clear := hexposes.within hwithin
  below := fun rest => by
    obtain ⟨front, hfront⟩ := hwithin.normal_prefix view.here
    rw [← hfront, List.append_assoc]
    exact hexposes.below _

theorem takes (hbelow : directory.Below path) : view.Takes path where
  clear := hexposes.within hbelow.within
  beside := fun name => by
    obtain ⟨rest, hrest⟩ := hbelow.parent.normal_prefix view.here
    rw [← hrest, List.append_assoc]
    exact hexposes.below _

end Exposes

end FileTree.View

/-! ### Requests -/

namespace Http

theorem parseUrl_blind (text : String) : (parseUrl text).Blind l any :=
  .ofExcept fun _ _ => trivial

theorem redirectUrl_blind (url : Url) (location : String) : (redirectUrl url location).Blind l any := by
  unfold redirectUrl
  refine .andThen (.ofExcept fun _ _ => trivial) fun parsed => ?_
  refine .andThen (.ofExcept fun _ _ => trivial) fun hosted => ?_
  exact .andThen (.ofExcept fun _ _ => trivial) fun absolute => .pure trivial

theorem read_blind (response : Response) : response.read.Blind l any := by
  unfold Response.read
  split
  · exact .pure trivial
  · exact .throw

/-- Where the networks need not agree the first operation strays. -/
theorem ask_blind (address : String) : (ask address).Blind l any where
  keeps := fun _ hhere hsound =>
    ⟨⟨List.prefix_append _ _, fun _ => ⟨hsound.legible, hsound.dotless⟩⟩, hhere, trivial⟩
  agrees := by
    intro world other halike
    obtain ⟨past, hworld, hother⟩ := halike.requests
    have hafter : ∀ (requests begun : List String), requests = begun ++ past →
        requests ++ [address] = begun ++ (past ++ [address]) := by
      rintro _ begun rfl
      exact List.append_assoc ..
    by_cases hshared : address ∈ l.shared
    · refine .inr ⟨congrArg Except.ok ?_, halike.files, ⟨past ++ [address], hafter _ _ hworld,
        hafter _ _ hother⟩, halike.calls, halike.state, halike.legible⟩
      change l.host.network world.requests address = l.network other.requests address
      rw [hworld, hother]
      exact l.agree past address hshared
    · exact .inl ⟨past ++ [address], hafter _ _ hworld, address, by simp, hshared⟩

theorem answered_blind (url : Url) (reply : Reply) : (answered url reply).Blind l any := by
  cases reply with
  | failure fault => exact .throw
  | response status location body fault =>
    refine .bind .refuse fun _ _ => ?_
    dsimp only
    split
    · exact (redirectUrl_blind _ _).andThen fun target =>
        (read_blind _).andThen fun _ => .pure trivial
    · exact .pure trivial

theorem exchange_blind (url : Url) : (exchange url).Blind l any :=
  (ask_blind _).andThen fun reply => answered_blind url reply

theorem send_blind (left : Nat) (url : Url) : (send left url).Blind l any := by
  induction left generalizing url with
  | zero =>
    unfold send
    refine (exchange_blind url).andThen fun answer => ?_
    obtain ⟨response, _ | target⟩ := answer
    · exact .pure trivial
    · exact .throw
  | succ left ih =>
    unfold send
    refine (exchange_blind url).andThen fun answer => ?_
    obtain ⟨response, _ | target⟩ := answer
    · exact .pure trivial
    · exact ih target

theorem open_blind (url : String) : (open_ url).Blind l any :=
  (parseUrl_blind url).andThen fun _ => send_blind _ _

theorem checkStatus_blind (url : String) (response : Response) :
    (checkStatus url response).Blind l any := by
  unfold checkStatus
  split
  · exact .pure trivial
  split
  · exact .throw
  · exact (read_blind response).andThen fun _ => .throw

variable {use : Response → Action α} {post : α → Prop} (huse : ∀ response, (use response).Blind l post)

include huse

theorem attempt_blind (url : String) : (attempt url use).Blind l post := by
  refine (open_blind url).andThen fun response => ?_
  exact (checkStatus_blind url response).andThen fun _ => huse response

theorem attemptsFrom_blind (url : String) (left n : Nat) :
    (attemptsFrom url use left n).Blind l post := by
  induction left generalizing n with
  | zero => exact (attempt_blind huse url).handle fun _ _ => .throw
  | succ left ih =>
    refine (attempt_blind huse url).handle fun _ _ => ?_
    refine .andThen (.changing (fun world hsound hhere => ?_) fun world other halike => ?_)
      fun _ => ih (n + 1)
    · exact ⟨List.prefix_rfl, ⟨hsound.legible, hsound.dotless⟩, hhere⟩
    · exact ⟨halike.files, halike.requests, halike.calls, halike.state, halike.legible⟩

theorem fetch_blind (maxAttempts : Int) (url : String) : (fetch maxAttempts url use).Blind l post :=
  attemptsFrom_blind huse url _ 1

omit huse

theorem getJson_blind (maxAttempts : Int) (url : String) : (getJson maxAttempts url).Blind l any := by
  refine fetch_blind (fun response => ?_) maxAttempts url
  refine (read_blind response).andThen fun body => ?_
  exact .andThen (.ofExcept fun _ _ => trivial) fun chars => .ofExcept fun _ _ => trivial

section Writing

variable {file : Path} (hclear : l.Clear file)

include hclear

theorem writePieces_blind (pieces : List Bytes) : (writePieces file pieces).Blind l any := by
  induction pieces with
  | nil => exact .pure trivial
  | cons piece rest ih =>
    refine .andThen (.files (FileTree.appendFile_blind hclear piece)) fun _ => ?_
    exact ih.andThen fun _ => .pure trivial

theorem writeBody_blind (piece : Int) (response : Response) :
    (writeBody piece file response).Blind l any := by
  unfold writeBody
  refine .andThen (.files (FileTree.writeFile_blind hclear _)) fun _ => ?_
  refine .bind .refuse fun _ _ => ?_
  refine (writePieces_blind hclear _).andThen fun _ => ?_
  refine (read_blind response).andThen fun body => ?_
  exact (writePieces_blind hclear _).andThen fun _ => .pure trivial

end Writing

theorem download_blind (maxAttempts : Int) (url : String) {target : Path} (htarget : l.Takes target) :
    (download maxAttempts url target).Blind l any :=
  .withSibling htarget fun _ hsees hclear => .moving hsees hclear htarget.clear
    (fetch_blind (fun response => writeBody_blind hclear _ response) maxAttempts url)

end Http

/-! ### Versions and their files -/

namespace ReleaseSource

theorem document_blind {α : Type} (source : ReleaseSource) (url : String)
    (check : Json → Schema.Checked α) :
    (source.document url check).Blind l fun value => ∃ json, check json = .ok value :=
  (Http.getJson_blind _ url).andThen fun json => .ofExcept fun _ hvalue => ⟨json, hvalue⟩

theorem metadata_blind (source : ReleaseSource) (entry : VersionEntry) :
    (source.metadata entry).Blind l any :=
  (document_blind source _ _).explain.anyway

theorem entry_blind (source : ReleaseSource) (version : String) :
    (source.entry version).Blind l any := by
  refine .andThen (Action.Matches.anyway (.explain (document_blind source _ _))) fun manifest => ?_
  refine .andThen (.ofResult fun _ _ => trivial) fun id => ?_
  split
  · exact .pure trivial
  · exact .throw

/-- A word and the version that it stands for have the same entry. -/
theorem entry_matches {source : ReleaseSource} {word id : String}
    (hdeclares : ∀ world manifest, (source.manifest.eval l.host world).1 = .ok manifest →
      manifest.Declares word id) :
    (source.entry word).Matches l (source.entry id) any := by
  have hmanifest : source.manifest.Blind l fun manifest =>
      ∀ entry ∈ manifest.versions, entry.id ≠ "" :=
    (document_blind source _ _).explain.weaken fun _ ⟨_, hjson⟩ =>
      VersionManifest.id_ne_empty hjson
  refine hmanifest.evaluated.bind fun manifest ⟨hids, world, hloaded⟩ => ?_
  obtain ⟨hword, hid⟩ := (hdeclares world manifest hloaded).wantedId_eq hids
  obtain ⟨entry, hentry⟩ := Option.isSome_iff_exists.mp (hdeclares world manifest hloaded).listed
  rw [hword, hid]
  refine .bind (.ofResult fun wanted hwanted => (Except.ok.inj hwanted).symm) ?_
  rintro _ rfl
  simp only [hentry]
  exact .pure trivial

end ReleaseSource

theorem FileDigest.ofFile_blind {path : Path} (hsees : l.Sees path) (hclear : l.Clear path) :
    (FileDigest.ofFile path).Blind l any := by
  unfold FileDigest.ofFile FileDigest.ofFileBy
  refine .andThen (.files (FileTree.readFile_blind hclear hsees)) fun contents => ?_
  exact .andThen (.ofResult fun _ _ => trivial) fun pieces => .pure trivial

namespace Release

theorem checkPrimary_blind (side : String) (download : Download) {target : Path}
    (hsees : l.Sees target) (hclear : l.Clear target) :
    (checkPrimary side download target).Blind l fun checked =>
      ∀ artifact, checked = .ok artifact → l.Shows artifact := by
  unfold checkPrimary
  dsimp only
  split
  · exact .pure (by rintro _ ⟨⟩; exact ⟨hsees, hclear, rfl⟩)
  refine (FileDigest.ofFile_blind hsees hclear).andThen fun digest => ?_
  split
  · exact .pure (by rintro _ ⟨⟩; exact ⟨hsees, hclear, rfl⟩)
  · exact .pure (by simp)

theorem fetchPrimary_blind (maxAttempts : Int) (metadata : VersionMetadata) (side : String)
    {workspace : Workspace} (hsees : l.Sees (workspace.primary side))
    (htakes : l.Takes (workspace.primary side)) :
    (fetchPrimary maxAttempts metadata side workspace).Blind l fun fetched =>
      ∀ artifact, fetched = .ok artifact → l.Shows artifact := by
  unfold fetchPrimary
  split
  · exact .pure (by simp)
  refine .andThen (.handle (.map (Http.download_blind _ _ htakes)) fun _ _ => .pure trivial)
    fun loaded => ?_
  split
  · exact checkPrimary_blind side _ hsees htakes.clear
  · exact .pure (by simp)

theorem library_blind (workspace : Workspace) (relative : String) :
    (workspace.library relative).Blind l any := by
  unfold Workspace.library
  refine .andThen (.files (FileTree.resolve_blind _)) fun place => ?_
  refine .andThen (.files (FileTree.resolve_blind _)) fun base => ?_
  split
  · exact .pure trivial
  · exact .throw

/-- Where nothing is gone, the libraries are not either. -/
theorem fetchLibrary_blind (hnone : l.gone = ∅) (maxAttempts : Int) (workspace : Workspace)
    (dependency : Dependency) : (fetchLibrary maxAttempts workspace dependency).Blind l any := by
  unfold fetchLibrary
  refine .andThen (.handle (.map (library_blind workspace _)) fun _ _ => .pure trivial)
    fun place => ?_
  cases place with
  | error fault => exact .pure trivial
  | ok target =>
    have htakes : l.Takes target := by constructor <;> simp [FileTree.View.Clear, hnone]
    unfold fetchLibraryTo
    refine .andThen (.files (FileTree.doesExist_blind htakes.clear)) fun found => ?_
    cases found with
    | true => exact .pure trivial
    | false =>
      refine .handle ?_ fun _ _ => .pure trivial
      exact (Http.download_blind _ _ htakes).andThen fun _ => .pure trivial

end Release

/-! ### What a run tells and hands on -/

theorem EventLog.append_blind {log : EventLog} (hclear : l.Clear log.path) (event : Event) :
    (log.append event).Blind l any := by
  unfold EventLog.append
  exact .reading rfl (.files (FileTree.appendFile_blind hclear _))

namespace Run

theorem log_matches (level other : LogLevel) (event event' : String) (fields fields' : Json.Fields) :
    (log level event fields).Matches l (log other event' fields') any where
  keeps := fun _ hhere hsound =>
    ⟨⟨List.prefix_rfl, fun _ => ⟨hsound.legible, hsound.dotless⟩⟩, hhere, trivial⟩
  agrees := fun _ _ halike =>
    .inr ⟨rfl, halike.files, halike.requests, halike.calls, halike.state, halike.legible⟩

theorem log_blind (level : LogLevel) (event : String) (fields : Json.Fields) :
    (log level event fields).Blind l any :=
  log_matches level level event event fields fields

theorem handed_blind : handed.Blind l l.Legible where
  keeps := fun _ hhere hsound => ⟨l.growing.refl _, hhere, hsound.legible⟩
  agrees := fun _ _ halike => .inr ⟨congrArg Except.ok halike.state, halike⟩

theorem hand_blind {change : RunState → RunState}
    (hchange : ∀ state, l.Legible state → l.Legible (change state)) : (hand change).Blind l any where
  keeps := fun _ hhere hsound =>
    ⟨⟨List.prefix_rfl, fun _ => ⟨hchange _ hsound.legible, hsound.dotless⟩⟩, hhere, trivial⟩
  agrees := fun _ _ halike => .inr ⟨rfl, halike.files, halike.requests, halike.calls,
    congrArg change halike.state, hchange _ halike.legible⟩

variable {run : Run} (hevents : l.Clear run.events.path)

include hevents

theorem emit_blind (stage kind : String) (data : Json.Fields) :
    (run.emit stage kind data).Blind l any :=
  EventLog.append_blind hevents _

theorem recordArtifact_blind (stage : String) (contentType : Option String) {path : Path}
    (hsees : l.Sees path) (hclear : l.Clear path) :
    (run.recordArtifact stage contentType path).Blind l any := by
  unfold recordArtifact
  refine (FileDigest.ofFile_blind hsees hclear).andThen fun digest => ?_
  exact (emit_blind hevents _ _ _).andThen fun _ => .pure trivial

end Run

/-! ### Packages and tools -/

/-- A tool is called on the same terms and does the same. -/
theorem Tool.call_blind (call : ToolCall) : (Tool.call call).Blind l any where
  keeps := fun world hhere hsound => ⟨⟨List.prefix_rfl, fun _ => ⟨hsound.legible, fun hgone =>
    l.dotless hgone world.calls call world.files (hsound.dotless hgone)⟩⟩, hhere, trivial⟩
  agrees := by
    intro world other halike
    obtain ⟨hresult, hafter⟩ := l.tools world.calls call world.files other.files halike.files.shown
    have hcalls : l.host.tools other.calls call other.files =
        l.host.tools world.calls call other.files := by rw [halike.calls]
    refine .inr ⟨?_, ⟨?_, halike.files.here, fun hgone => ?_⟩, halike.requests, ?_, halike.state,
      halike.legible⟩
    · change Except.ok (l.host.tools world.calls call world.files).1 =
        Except.ok (l.host.tools other.calls call other.files).1
      rw [hcalls, hresult]
    · change l.shown { (l.host.tools world.calls call world.files).2 with here := world.files.here } =
        l.shown { (l.host.tools other.calls call other.files).2 with here := other.files.here }
      rw [hcalls, halike.files.here_eq]
      exact congrArg (fun tree : FileTree => { tree with here := other.files.here }) hafter
    · exact l.dotless hgone world.calls call world.files (halike.files.dotless hgone)
    · exact congrArg (· ++ [call]) halike.calls

namespace Package

theorem isBundled_blind {path : Path} (hsees : l.Sees path) (hclear : l.Clear path) :
    (isBundled path).Blind l any := by
  unfold isBundled
  refine .explain (.andThen (.files (FileTree.readFile_blind hclear hsees)) fun archive => ?_)
  exact .andThen (.ofExcept fun _ _ => trivial) fun entries => .pure trivial

/-- The path of a file that is named as a jar is. -/
def jarOf? : List String × Node → Option (List String)
  | (names, .file _ _) => if Text.endsWith ".jar" (names.getLastD "") then some names else none
  | (_, .directory) => none

theorem jarsBelow_eq (files : FileTree) (location : Location) :
    jarsBelow files location = (files.below location).filterMap jarOf? := by
  refine List.filterMap_congr fun entry _ => ?_
  obtain ⟨names, _ | ⟨contents, mode⟩⟩ := entry <;> rfl

theorem jarsBelow_alike {view : FileTree.View} {files others : FileTree}
    (halike : FileTree.Alike view files others) {location : Location}
    (hseen : ∀ rest, location ++ rest ∉ view.gone) :
    jarsBelow files location = jarsBelow others location := by
  have hblank : ∀ tree : FileTree, jarsBelow tree location =
      ((tree.below location).map fun entry => (entry.1, entry.2.blank)).filterMap jarOf? := by
    intro tree
    rw [jarsBelow_eq, List.filterMap_map]
    refine List.filterMap_congr fun entry _ => ?_
    obtain ⟨names, _ | ⟨contents, mode⟩⟩ := entry <;> rfl
  rw [hblank, hblank, halike.below hseen]

/-- A jar below a directory that is seen is seen. -/
theorem jarsBelow_seen {directory : Path} (hexposes : l.Exposes directory) {files : FileTree}
    (hdotless : l.gone.Nonempty → files.Dotless) {location : Location} {names : List String}
    (hnames : names ∈ jarsBelow files location) :
    l.Sees ⟨directory.root, directory.parts ++ names⟩ ∧
      l.Clear ⟨directory.root, directory.parts ++ names⟩ := by
  obtain ⟨⟨contents, mode, hbelow⟩, front, last, rfl, hends⟩ := of_mem_jarsBelow hnames
  have hothers : last ∉ ".." :: recordNames := by
    have hnone : ∀ name ∈ ".." :: recordNames, Text.endsWith ".jar" name = false := by decide
    exact fun hmem => by simp [hnone last hmem] at hends
  have hdots : last ≠ ".." := fun heq => hothers (heq ▸ List.mem_cons_self)
  refine ⟨Likeness.sees_of_endsIn (fun here => ?_) fun hmem =>
    hothers (List.mem_cons_of_mem _ hmem), fun passed hpassed hgone => ?_⟩
  · rw [Path.normal_eq, ← List.append_assoc, Path.walk_append]
    simp [Path.walk, hdots]
  · exact hexposes.within ⟨_, (hdotless ⟨_, hgone⟩).of_mem_below hbelow, rfl⟩ passed hpassed hgone

theorem findPayload_blind {directory : Path} (hexposes : l.Exposes (directory / payloadsDirectory)) :
    (findPayload directory).Blind l fun found =>
      ∀ payload, found = some payload → l.Sees payload ∧ l.Clear payload := by
  unfold findPayload
  refine .andThen (.files (FileTree.isDirectory_blind hexposes.clear)) fun found => ?_
  cases found with
  | false => exact .pure (by simp)
  | true =>
    refine .bind (.locating hexposes.clear) ?_
    rintro _ rfl
    refine .getting (fun world hsound => .pure fun payload hpayload => ?_)
      fun world other halike => .inr ⟨?_, halike⟩
    · obtain ⟨names, hleast, rfl⟩ := Option.map_eq_some_iff.mp hpayload
      exact jarsBelow_seen hexposes hsound.dotless (least?_mem hleast)
    · simp only [jarsBelow_alike halike.files hexposes.below, Action.eval_pure]

end Package

end JarRefinery
