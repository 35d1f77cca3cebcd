import JarRefinery.Proofs.Asking
import JarRefinery.Proofs.Framing
import JarRefinery.Proofs.Layers

/-!
# Getting the layer that is required

The layer of intermediary names is a document of its own or an entry of a container. The container is
turned to exactly if the document does not exist. What was there before stays unless the layer was
got, and then its document comes from what was just downloaded.
-/

namespace JarRefinery

open Action (any)

variable {α : Type} {host : Host} {world : World}

/-! ### Targets that were not replaced -/

/-- A target whose production failed after it had begun can be produced still. -/
theorem Action.prepares_of_withSibling_error {target : Path} {use : Path → Action α} {fault : Fault}
    {after : World} (hrooted : ".." ∉ world.files.here) (hprepares : world.files.Prepares target)
    (hfills : ∀ sibling, Fills host world.files.here sibling target (use sibling))
    (heval : (Action.withSibling target use).eval host world = (.error fault, after)) :
    after.files.HasDirectory target.parent ∧ after.files.Prepares target := by
  obtain ⟨sibling, made, hnew⟩ := hprepares
  have hmadeHere : made.here = world.files.here := by
    rw [← FileTree.eval_newSibling_here world.files target, hnew]
  rw [eval_withSibling, hnew] at heval
  dsimp only at heval
  rw [eval_discarding] at heval
  have hfilled := hfills sibling { world with files := made } hmadeHere
  rcases huse : (use sibling).eval host { world with files := made } with ⟨broken | value, filled⟩ <;>
    rw [huse] at heval hfilled
  · obtain ⟨-, rfl⟩ := Prod.mk.inj heval
    exact FileTree.prepares_of_discarded hrooted hnew hfilled
  · cases (Prod.mk.inj heval).1

/-- A target that could not be replaced is as it was. -/
theorem Replaces.of_error {target : Path} {action : Action α} {fault : Fault} {after : World}
    (hreplaces : Replaces host world.files.here target action)
    (heval : action.eval host world = (.error fault, after)) :
    Change { made := target.parent.trail world.files.here } world.files after.files := by
  have hreplaced := hreplaces world rfl
  rwa [heval] at hreplaced

/-- However it ends, nothing but the target was written. -/
theorem Replaces.change {target : Path} {action : Action α}
    (hreplaces : Replaces host world.files.here target action) :
    Change { made := target.parent.trail world.files.here, written := {target.normal world.files.here} }
      world.files (action.eval host world).2.files := by
  have hreplaced := hreplaces world rfl
  rcases heval : action.eval host world with ⟨fault | value, after⟩ <;> rw [heval] at hreplaced
  · refine Change.mono ?_ hreplaced
    exact ⟨subset_rfl, Set.empty_subset _, subset_rfl⟩
  · exact hreplaced.1

/-- A place that was neither written nor removed has the same file or still none. -/
theorem Change.file_iff {footprint : Footprint} {before after : FileTree}
    (hchange : Change footprint before after) {location : Location}
    (hwritten : location ∉ footprint.written) (hremoved : location ∉ footprint.removed)
    (contents : Bytes) (mode : Nat) : after.node? location = some (.file contents mode) ↔
      before.node? location = some (.file contents mode) :=
  ⟨hchange.notWritten location contents mode hwritten, hchange.node?_file hwritten hremoved⟩

/-- A container without a readable entry is told of once the temporary file is there. -/
theorem Mapping.eval_extractEntry_error {container target : Path} {name : String} {archive : Bytes}
    {fault : Fault} (hrooted : ".." ∉ world.files.here) (hprepares : world.files.Prepares target)
    (hholds : world.files.Holds container archive)
    (hcontent : entryContent container name archive = .error fault)
    (hanswers : fault.isAny [.badArchive, .osError] = false) :
    ∃ after, (extractEntry container name target).eval host world = (.error fault, after) := by
  refine Action.eval_withSibling_error hrooted hprepares fun ready sibling place hbeside => ?_
  have hcontainer : (ready.put place (.file [] 0o600)).Holds container archive :=
    hbeside.holds hholds
  have hfill : (fillFromEntry container name sibling).eval host
      { world with files := ready.put place (.file [] 0o600) } =
        (.error fault, { world with files := ready.put place (.file [] 0o600) }) := by
    unfold fillFromEntry
    rw [Action.eval_bind_ok (Action.eval_readFile hcontainer), hcontent]
    exact Action.eval_bind_error (Action.eval_ofResult _ _ _)
  unfold Action.moving
  rw [Action.eval_explain, Action.eval_bind_error (Action.eval_bind_error hfill)]
  simp only [hanswers]
  exact ⟨_, rfl⟩

namespace MappingProvider.Chained

/-! ### The two files -/

section Paths

variable (workspace : Workspace) (version : String)

def documentPath : Path :=
  workspace.mapping ("intermediary-" ++ version ++ ".tiny")

def containerPath : Path :=
  workspace.mapping ("intermediary-" ++ version ++ "-v2.jar")

/-- Whatever the version, the two files stand beside one another. -/
theorem exists_paths : ∃ root front rest,
    documentPath workspace version = ⟨root, front ++ [rest ++ ".tiny"]⟩ ∧
      containerPath workspace version = ⟨root, front ++ [rest ++ "-v2.jar"]⟩ := by
  obtain ⟨front, rest, -, hparts⟩ := Path.exists_parts_ofString ("intermediary-" ++ version)
  have hmapping : ∀ (ending : String) (c : Char), '/' ∉ ending.toList → c ∈ ending.toList → c ≠ '.' →
      workspace.mapping ("intermediary-" ++ version ++ ending) =
        ⟨workspace.mappingsDirectory.root,
          workspace.mappingsDirectory.parts ++ front ++ [rest ++ ending]⟩ := by
    intro ending c hslash hmem hdot
    have hroot : (Path.ofString ("intermediary-" ++ version ++ ending)).root = "" :=
      Path.root_ofString (by simp)
    change workspace.mappingsDirectory.join (Path.ofString _) = _
    simp [Path.join, Path.isAbsolute, hroot, hparts ending c hslash hmem hdot]
  exact ⟨_, _, rest, hmapping ".tiny" 'y' (by decide) (by decide) (by decide),
    hmapping "-v2.jar" 'a' (by decide) (by decide) (by decide)⟩

theorem parent_containerPath :
    (containerPath workspace version).parent = (documentPath workspace version).parent := by
  obtain ⟨root, front, rest, hdocument, hcontainer⟩ := exists_paths workspace version
  simp [hdocument, hcontainer, Path.parent]

theorem normal_containerPath (here : Location) : ∃ rest,
    (containerPath workspace version).normal here =
      (documentPath workspace version).parent.normal here ++ [rest ++ "-v2.jar"] ∧
    (documentPath workspace version).normal here =
      (documentPath workspace version).parent.normal here ++ [rest ++ ".tiny"] := by
  obtain ⟨root, front, rest, hdocument, hcontainer⟩ := exists_paths workspace version
  have hnamed : ∀ ending c, c ∈ ending.toList → c ≠ '.' → ∀ root : String,
      FileTree.endsInDots ⟨root, front ++ [rest ++ ending]⟩ = false := by
    intro ending c hmem hdot root
    have hmem' : c ∈ (rest ++ ending).toList := by simp [hmem]
    have hname := (Path.named_of_mem hmem' hdot).2
    simp [FileTree.endsInDots, hname]
  refine ⟨rest, ?_, ?_⟩
  · rw [← parent_containerPath, hcontainer, Path.normal_eq_append (hnamed _ 'a' (by decide) (by decide) _)]
    simp [Path.name]
  · rw [hdocument, Path.normal_eq_append (hnamed _ 'y' (by decide) (by decide) _)]
    simp [Path.name]

theorem document_ne_container (here : Location) :
    (documentPath workspace version).normal here ≠ (containerPath workspace version).normal here := by
  obtain ⟨rest, hcontainer, hdocument⟩ := normal_containerPath workspace version here
  rw [hcontainer, hdocument]
  simp [String.append_right_inj]

theorem sibling_ne_container (here : Location) (name : String) (n : Nat) :
    (documentPath workspace version).parent.normal here ++ [FileTree.siblingName name n] ≠
      (containerPath workspace version).normal here := by
  obtain ⟨rest, hcontainer, -⟩ := normal_containerPath workspace version here
  rw [hcontainer]
  intro heq
  have hlast : "-v2.jar".toList.getLast? = some 'r' := by decide
  exact FileTree.siblingName_ne_append hlast (by decide) name rest n (by simpa using heq)

end Paths

/-! ### How it ends -/

section Endings

variable (chained : Chained) (release : MappingRelease) (workspace : Workspace) (space : String)
  (host : Host) (world : World) (url address : String)

/-- The layer, which is one document. -/
def layer : MappingSet where
  name := intermediaryNamespace
  path := documentPath workspace release.version
  source := space
  target := intermediaryNamespace
  encoding := .tiny

/-- Downloads the document that is published by itself. -/
abbrev downloadDocument : Action Nat :=
  Http.download chained.maxAttempts url (documentPath workspace release.version)

/-- Downloads the container. -/
abbrev downloadContainer : Action Nat :=
  Http.download chained.maxAttempts address (containerPath workspace release.version)

/-- Takes the document out of the container. -/
abbrev unpackDocument : Action Path :=
  Mapping.extractEntry (containerPath workspace release.version) documentEntry
    (documentPath workspace release.version)

/-- There is no document by itself: looking for it ends in the world `asked`. -/
def Unpublished (asked : World) : Prop :=
  ∃ fault, (downloadDocument chained release workspace url).eval host world = (.error fault, asked) ∧
    Http.Missing url fault

/-- The ways in which getting the layer may end. -/
inductive Ends : Except Fault MappingSet → World → Prop
  | published {length : Nat} {after : World} :
    (downloadDocument chained release workspace url).eval host world = (.ok length, after) →
    Ends (.ok (layer release workspace space)) after
  | refused {fault outer : Fault} {after : World} :
    (downloadDocument chained release workspace url).eval host world = (.error fault, after) →
    ¬Http.Missing url fault → Ends (.error outer) after
  | unarchived {fault outer : Fault} {asked after : World} :
    Unpublished chained release workspace host world url asked →
    (downloadContainer chained release workspace address).eval host asked = (.error fault, after) →
    Ends (.error outer) after
  | unreadable {fault : Fault} {length : Nat} {asked loaded after : World} :
    Unpublished chained release workspace host world url asked →
    (downloadContainer chained release workspace address).eval host asked = (.ok length, loaded) →
    (unpackDocument release workspace).eval host loaded = (.error fault, after) → Ends (.error fault) after
  | extracted {path : Path} {length : Nat} {asked loaded after : World} :
    Unpublished chained release workspace host world url asked →
    (downloadContainer chained release workspace address).eval host asked = (.ok length, loaded) →
    (unpackDocument release workspace).eval host loaded = (.ok path, after) →
    Ends (.ok (layer release workspace space)) after

end Endings

section

variable {chained : Chained} {release : MappingRelease} {workspace : Workspace} {space : String}
  {url address : String}

theorem fetchFromArchive_ends {asked after : World} {result : Except Fault Unit}
    (haddress : chained.fileUrl release.coordinate "v2" "jar" = .ok address)
    (hmissing : Unpublished chained release workspace host world url asked)
    (heval : (chained.fetchFromArchive release workspace
      (documentPath workspace release.version)).eval host asked = (result, after)) :
    Ends chained release workspace space host world url address
      (result.map fun _ => layer release workspace space) after := by
  unfold fetchFromArchive at heval
  rw [haddress, Action.eval_bind_ok (Action.eval_ofResult _ _ _), Action.eval_bind,
    Action.eval_explain] at heval
  rcases hpacked : (downloadContainer chained release workspace address).eval host asked with
    ⟨fault | length, loaded⟩ <;> rw [downloadContainer, containerPath] at hpacked <;> rw [hpacked] at heval
  · obtain ⟨rfl, rfl⟩ := Prod.mk.inj heval
    exact .unarchived hmissing hpacked
  · dsimp only at heval
    rw [Action.eval_bind] at heval
    rcases hunpack : (unpackDocument release workspace).eval host loaded with ⟨fault | path, unpacked⟩ <;>
      rw [unpackDocument, containerPath] at hunpack <;> rw [hunpack] at heval
    · obtain ⟨rfl, rfl⟩ := Prod.mk.inj heval
      exact .unreadable hmissing hpacked hunpack
    · obtain ⟨rfl, rfl⟩ := Prod.mk.inj heval
      exact .extracted hmissing hpacked hunpack

theorem fetchIntermediary_ends (hnetwork : Http.FailsWith host Http.Foreign)
    (hurl : chained.fileUrl release.coordinate "" "tiny" = .ok url)
    (haddress : chained.fileUrl release.coordinate "v2" "jar" = .ok address)
    {result : Except Fault MappingSet} {ending : World}
    (heval : (chained.fetchIntermediary release workspace space).eval host world =
      (result, ending)) :
    Ends chained release workspace space host world url address result ending := by
  unfold fetchIntermediary at heval
  rw [hurl, Action.eval_bind_ok (Action.eval_ofResult _ _ _), Action.eval_bind,
    Action.eval_caught] at heval
  rcases hdirect : (downloadDocument chained release workspace url).eval host world with
    ⟨fault | length, asked⟩ <;> have hloaded := hdirect <;>
    rw [downloadDocument, documentPath] at hloaded <;> rw [hloaded] at heval
  swap
  · obtain ⟨rfl, rfl⟩ := Prod.mk.inj heval
    exact .published hdirect
  have hmissing_iff := ((Http.download_foreign hnetwork _ _ _).fault hdirect).missing_iff
  cases hclient : fault.isA .httpFetchError with
  | false =>
    simp only [hclient] at heval
    obtain ⟨rfl, rfl⟩ := Prod.mk.inj heval
    exact .refused hdirect fun hmissing => by simp [(hmissing_iff.mpr hmissing).1] at hclient
  | true =>
    cases hnot : fault.isNotFound with
    | false =>
      simp only [hclient, if_true, hnot] at heval
      obtain ⟨rfl, rfl⟩ := Prod.mk.inj heval
      exact .refused hdirect fun hmissing => by simp [(hmissing_iff.mpr hmissing).2] at hnot
    | true =>
      simp only [hclient, if_true, hnot] at heval
      change ((chained.fetchFromArchive release workspace
        (documentPath workspace release.version)) >>= fun _ => pure _).eval host asked = _ at heval
      rw [Action.eval_bind] at heval
      have hmissing := hmissing_iff.mp ⟨hclient, hnot⟩
      rcases harchive : (chained.fetchFromArchive release workspace
        (documentPath workspace release.version)).eval host asked with ⟨broken | _, after⟩ <;>
        rw [harchive] at heval
      all_goals
        obtain ⟨rfl, rfl⟩ := Prod.mk.inj heval
        exact fetchFromArchive_ends haddress ⟨fault, hdirect, hmissing⟩ harchive

/-! ### What becomes of the files -/

namespace Unpublished

variable {asked other : World} {fault : Fault}

theorem of_eval (hmissing : Unpublished chained release workspace host world url asked)
    (heval : (downloadDocument chained release workspace url).eval host world = (.error fault, other)) :
    Http.Missing url fault := by
  obtain ⟨_, hmissing, hfault⟩ := hmissing
  cases heval.symm.trans hmissing
  exact hfault

theorem not_of_ok {length : Nat}
    (heval : (downloadDocument chained release workspace url).eval host world = (.ok length, other)) :
    ¬Unpublished chained release workspace host world url asked := by
  rintro ⟨fault, hfault, -⟩
  cases heval.symm.trans hfault

theorem unique (hmissing : Unpublished chained release workspace host world url asked)
    (hother : Unpublished chained release workspace host world url other) : asked = other := by
  obtain ⟨fault, heval, -⟩ := hmissing
  obtain ⟨fault', heval', -⟩ := hother
  exact (Prod.mk.inj (heval.symm.trans heval')).2

end Unpublished

section

variable (hrooted : ".." ∉ world.files.here)

include hrooted

namespace Unpublished

variable {asked loaded : World} {length : Nat}
  (hmissing : Unpublished chained release workspace host world url asked)

include hmissing

theorem change : Change
    { made := (documentPath workspace release.version).parent.trail world.files.here }
    world.files asked.files := by
  obtain ⟨fault, heval, -⟩ := hmissing
  exact (Replaces.downloadBy hrooted _ _ _).of_error heval

/-- The document could be replaced when it was looked for, and can be still. -/
theorem prepares : asked.files.HasDirectory (documentPath workspace release.version).parent ∧
    asked.files.Prepares (documentPath workspace release.version) := by
  obtain ⟨fault, heval, body, rfl⟩ := hmissing
  refine Action.prepares_of_withSibling_error hrooted ?_ (fun sibling => .moving ?_) heval
  · unfold downloadDocument Http.download Http.downloadBy at heval
    rw [Action.eval_withSibling] at heval
    rcases hnew : (FileTree.newSibling (documentPath workspace release.version)).eval world.files with
      ⟨error | sibling, ready⟩
    · rw [hnew] at heval
      obtain ⟨hfault, -⟩ := Prod.mk.inj heval
      cases error <;> cases Except.error.inj hfault
    · exact ⟨sibling, ready, hnew⟩
  · exact Http.fetch_keeps Discipline.filling.allowsNetwork (fun response hsound =>
      Http.writeBody_keeps (Discipline.filling.allowsFiles hrooted) _ hsound) _ _

/-- The container has been written, and nothing else but directories. -/
theorem loaded_change
    (hloaded : (downloadContainer chained release workspace address).eval host asked =
      (.ok length, loaded)) :
    Change
      { made := (documentPath workspace release.version).parent.trail world.files.here
        written := {(containerPath workspace release.version).normal world.files.here} }
      asked.files loaded.files := by
  have hhere := (hmissing.change hrooted).here
  have hreplaces : Replaces host asked.files.here (containerPath workspace release.version)
      (downloadContainer chained release workspace address) := .downloadBy (hhere ▸ hrooted) _ _ _
  have hchange := hreplaces.change
  rwa [hloaded, hhere, parent_containerPath] at hchange

theorem loaded_prepares
    (hloaded : (downloadContainer chained release workspace address).eval host asked =
      (.ok length, loaded)) :
    loaded.files.Prepares (documentPath workspace release.version) := by
  obtain ⟨hdirectory, hprepares⟩ := hmissing.prepares hrooted
  have hhere := (hmissing.change hrooted).here
  have hchange := hmissing.loaded_change hrooted hloaded
  rw [← hhere] at hchange
  exact hprepares.mono hdirectory (hhere ▸ hrooted) hchange.here hchange.directory fun n =>
    hdirectory.node?_eq hchange (sibling_ne_container workspace release.version _ _ _)
      (Set.notMem_empty _)

end Unpublished

end

/-! ### What is asked for -/

/-- There is no document by itself, and the container can be asked for. -/
def TurnsToContainer (chained : Chained) (release : MappingRelease) (workspace : Workspace)
    (host : Host) (world : World) (url address : String) (asked : World) : Prop :=
  Unpublished chained release workspace host world url asked ∧
    asked.files.Prepares (containerPath workspace release.version) ∧
    ∃ parsed, Url.parse address = .ok parsed

theorem asks_of_unpacked {asked loaded after : World} {length : Nat} {result : Except Fault Path}
    (hmissing : Unpublished chained release workspace host world url asked)
    (hloaded : (downloadContainer chained release workspace address).eval host asked =
      (.ok length, loaded))
    (hunpack : (unpackDocument release workspace).eval host loaded = (result, after)) :
    TurnsToContainer chained release workspace host world url address asked ∧
      Http.Asks address asked after := by
  have hbegun : asked.files.Prepares (containerPath workspace release.version) ∧
      ∃ parsed, Url.parse address = .ok parsed := by
    by_contra hnot
    obtain ⟨fault, _, heval, -⟩ := Http.download_silent hnot
    cases heval.symm.trans hloaded
  obtain ⟨parsed, hparse, hasked⟩ := (Http.download_asks_iff hloaded).mpr hbegun
  have hkept := Http.asked_of_eval
    (Mapping.extractEntry_keeps (Discipline.asking.allowsFiles _) _ _) hunpack
  exact ⟨⟨hmissing, hbegun⟩, parsed, hparse, hasked.trans hkept⟩

/-- The container is asked for if the document is not there and it can be, and else nothing is. -/
theorem Ends.asks {result : Except Fault MappingSet} {ending asked : World}
    {loading : Except Fault Nat}
    (hends : Ends chained release workspace space host world url address result ending)
    (hasked : (downloadDocument chained release workspace url).eval host world = (loading, asked)) :
    TurnsToContainer chained release workspace host world url address asked ∧
        Http.Asks address asked ending ∨
      ¬TurnsToContainer chained release workspace host world url address asked ∧
        ending.requests = asked.requests := by
  have hsame : ∀ {other}, Unpublished chained release workspace host world url other →
      other = asked := by
    rintro other ⟨fault, heval, -⟩
    exact (Prod.mk.inj (heval.symm.trans hasked)).2
  cases hends with
  | published hdirect =>
    cases hdirect.symm.trans hasked
    exact .inr ⟨fun hturns => Unpublished.not_of_ok hdirect hturns.1, rfl⟩
  | refused hdirect hnot =>
    cases hdirect.symm.trans hasked
    exact .inr ⟨fun hturns => hnot (hturns.1.of_eval hdirect), rfl⟩
  | unarchived hmissing hloaded =>
    cases hsame hmissing
    by_cases hcan : asked.files.Prepares (containerPath workspace release.version) ∧
        ∃ parsed, Url.parse address = .ok parsed
    · exact .inl ⟨⟨hmissing, hcan⟩, (Http.download_asks_iff hloaded).mpr hcan⟩
    · obtain ⟨fault, after, heval, hrequests⟩ := Http.download_silent hcan
      cases heval.symm.trans hloaded
      exact .inr ⟨fun hturns => hcan hturns.2, hrequests⟩
  | unreadable hmissing hloaded hunpack | extracted hmissing hloaded hunpack =>
    cases hsame hmissing
    exact .inl (asks_of_unpacked hmissing hloaded hunpack)

/-! ### What becomes of the document -/

section

variable (hrooted : ".." ∉ world.files.here)

include hrooted

/-- Without the layer at most the container was written. -/
theorem Ends.change {fault : Fault} {ending : World}
    (hends : Ends chained release workspace space host world url address (.error fault) ending) :
    Change
      { made := (documentPath workspace release.version).parent.trail world.files.here
        written := {(containerPath workspace release.version).normal world.files.here} }
      world.files ending.files := by
  have hmade : ∀ {before after}, Change
      { made := (documentPath workspace release.version).parent.trail world.files.here }
        before after → Change
      { made := (documentPath workspace release.version).parent.trail world.files.here
        written := {(containerPath workspace release.version).normal world.files.here} }
        before after := .mono ⟨subset_rfl, Set.empty_subset _, subset_rfl⟩
  cases hends with
  | refused hdirect => exact hmade ((Replaces.downloadBy hrooted _ _ _).of_error hdirect)
  | unarchived hmissing hloaded =>
    have hasked := hmissing.change hrooted
    have hchange := (Replaces.downloadBy (hasked.here ▸ hrooted) _ _ _).of_error hloaded
    rw [hasked.here, parent_containerPath] at hchange
    exact (hmade hasked).trans (hmade hchange)
  | unreadable hmissing hloaded hunpack =>
    have hasked := hmissing.change hrooted
    have hloaded := hmissing.loaded_change hrooted hloaded
    have hhere := hloaded.here.trans hasked.here
    have hchange := (Replaces.extractEntry (hhere ▸ hrooted) _ _).of_error hunpack
    rw [hhere] at hchange
    exact (hmade hasked).trans (hloaded.trans (hmade hchange))

/-- Without the layer the document is what it was. -/
theorem Ends.kept {fault : Fault} {ending : World}
    (hends : Ends chained release workspace space host world url address (.error fault) ending)
    (contents : Bytes) (mode : Nat) :
    ending.files.node? ((documentPath workspace release.version).normal world.files.here) =
        some (.file contents mode) ↔
      world.files.node? ((documentPath workspace release.version).normal world.files.here) =
        some (.file contents mode) :=
  (hends.change hrooted).file_iff (document_ne_container workspace release.version _)
    (Set.notMem_empty _) contents mode

/-- Nor has a directory taken the place of the document, unless its own path asks for one. -/
theorem Ends.same {fault : Fault} {ending : World}
    (hends : Ends chained release workspace space host world url address (.error fault) ending)
    (hproper : Proper (documentPath workspace release.version) world.files) :
    ending.files.node? ((documentPath workspace release.version).normal world.files.here) =
      world.files.node? ((documentPath workspace release.version).normal world.files.here) := by
  rcases (hends.change hrooted).same_or_made (document_ne_container workspace release.version _)
    (Set.notMem_empty _) with hsame | ⟨habove, hfree, -⟩
  · exact hsame
  · exact absurd habove (hproper hfree)

/-- Where the contents of the document come from. -/
inductive Source (chained : Chained) (release : MappingRelease) (workspace : Workspace)
    (host : Host) (world : World) (url address : String) (contents : Bytes) (ending : World) : Prop
  | body {length : Nat} :
    (downloadDocument chained release workspace url).eval host world = (.ok length, ending) →
    Http.Brought host url world contents ending →
    Source chained release workspace host world url address contents ending
  | entry {archive : Bytes} {length : Nat} {asked loaded : World} :
    Unpublished chained release workspace host world url asked →
    (downloadContainer chained release workspace address).eval host asked = (.ok length, loaded) →
    Http.Brought host address asked archive loaded →
    Mapping.entryContent (containerPath workspace release.version) documentEntry archive =
      .ok contents →
    Source chained release workspace host world url address contents ending

/-- With the layer its document holds what was just downloaded. -/
theorem Ends.source {set : MappingSet} {ending : World}
    (hends : Ends chained release workspace space host world url address (.ok set) ending) :
    set = layer release workspace space ∧ ∃ contents mode,
      ending.files.node? ((documentPath workspace release.version).normal world.files.here) =
        some (.file contents mode) ∧
      Source chained release workspace host world url address contents ending := by
  cases hends with
  | published hdirect =>
    obtain ⟨body, mode, hbrought, hnode⟩ := Http.of_eval_download_ok hrooted hdirect
    exact ⟨rfl, body, mode, hnode, .body hdirect hbrought⟩
  | extracted hmissing hloaded hunpack =>
    have hasked := hmissing.change hrooted
    have hhere := (hmissing.loaded_change hrooted hloaded).here.trans hasked.here
    obtain ⟨archive, mode, hbrought, hcontainer⟩ :=
      Http.of_eval_download_ok (hasked.here ▸ hrooted) hloaded
    rw [hasked.here, ← hhere] at hcontainer
    obtain ⟨contents, mode', hcontents, hnode⟩ :=
      Mapping.of_eval_extractEntry_ok (hhere ▸ hrooted) hunpack hcontainer
    exact ⟨rfl, contents, mode', hhere ▸ hnode, .entry hmissing hloaded hbrought hcontents⟩

/-- A container without the entry is told of as such. -/
theorem Ends.unnamed {result : Except Fault MappingSet} {ending asked loaded : World} {length : Nat}
    (hends : Ends chained release workspace space host world url address result ending)
    (hmissing : Unpublished chained release workspace host world url asked)
    (hloaded : (downloadContainer chained release workspace address).eval host asked =
      (.ok length, loaded))
    {archive : Bytes} {entries : List Archive.Entry}
    (hholds : loaded.files.Holds (containerPath workspace release.version) archive)
    (hread : Archive.readDirectory archive = .ok entries)
    (hnone : Archive.find? entries documentEntry = none) :
    ∃ fault, result = .error fault ∧ fault.isA .mappingExtractionError = true := by
  have hasked := hmissing.change hrooted
  have hhere := (hmissing.loaded_change hrooted hloaded).here.trans hasked.here
  have hcontent : Mapping.entryContent (containerPath workspace release.version) documentEntry
      archive = .error (.because
        (.of .mappingExtractionError ((containerPath workspace release.version).name ++ " has no " ++
          documentEntry))
        (.of .keyError ("There is no item named " ++ Text.quote documentEntry ++
          " in the archive"))) := by
    unfold Mapping.entryContent
    rw [hread]
    simp only [Except.mapError, bind, Except.bind, hnone]
    rfl
  obtain ⟨after, hunpack⟩ := Mapping.eval_extractEntry_error (hhere ▸ hrooted)
    (hmissing.loaded_prepares hrooted hloaded) hholds hcontent rfl
  cases hends with
  | published hdirect => exact absurd hmissing (Unpublished.not_of_ok hdirect)
  | refused hdirect hnot => exact absurd (hmissing.of_eval hdirect) hnot
  | unarchived hother hfailed =>
    cases hother.unique hmissing
    cases hfailed.symm.trans hloaded
  | unreadable hother hfound hfault =>
    cases hother.unique hmissing
    cases hfound.symm.trans hloaded
    cases hunpack.symm.trans hfault
    exact ⟨_, rfl, rfl⟩
  | extracted hother hfound hextracted =>
    cases hother.unique hmissing
    cases hfound.symm.trans hloaded
    cases hunpack.symm.trans hextracted

end

/-- What is promised of getting the layer: when the container is asked for, where the document comes
from, that it stays if there is none, and what is told of a container without the entry. -/
structure Acquires (chained : Chained) (release : MappingRelease) (workspace : Workspace)
    (space : String) (host : Host) (world : World) (url address : String)
    (result : Except Fault MappingSet) (ending : World) : Prop where
  asks : ∀ loading asked,
    (downloadDocument chained release workspace url).eval host world = (loading, asked) →
      (Http.Asks address asked ending ↔
        TurnsToContainer chained release workspace host world url address asked) ∧
      (¬Http.Asks address asked ending → ending.requests = asked.requests)
  source : ∀ set, result = .ok set → set = layer release workspace space ∧ ∃ contents mode,
    ending.files.node? ((documentPath workspace release.version).normal world.files.here) =
      some (.file contents mode) ∧
    Source chained release workspace host world url address contents ending
  kept : ∀ fault, result = .error fault → ∀ contents mode,
    ending.files.node? ((documentPath workspace release.version).normal world.files.here) =
        some (.file contents mode) ↔
      world.files.node? ((documentPath workspace release.version).normal world.files.here) =
        some (.file contents mode)
  same : ∀ fault, result = .error fault →
    Proper (documentPath workspace release.version) world.files →
    ending.files.node? ((documentPath workspace release.version).normal world.files.here) =
      world.files.node? ((documentPath workspace release.version).normal world.files.here)
  unnamed : ∀ asked loaded length archive entries,
    Unpublished chained release workspace host world url asked →
    (downloadContainer chained release workspace address).eval host asked = (.ok length, loaded) →
    loaded.files.Holds (containerPath workspace release.version) archive →
    Archive.readDirectory archive = .ok entries → Archive.find? entries documentEntry = none →
    ∃ fault, result = .error fault ∧ fault.isA .mappingExtractionError = true

theorem Ends.acquires (hrooted : ".." ∉ world.files.here) {result : Except Fault MappingSet}
    {ending : World}
    (hends : Ends chained release workspace space host world url address result ending) :
    Acquires chained release workspace space host world url address result ending := by
  refine ⟨fun loading asked hasked => ?_, ?_, ?_, ?_, ?_⟩
  · rcases hends.asks hasked with ⟨hturns, hasks⟩ | ⟨hnot, hsame⟩
    · exact ⟨⟨fun _ => hturns, fun _ => hasks⟩, fun hsilent => absurd hasks hsilent⟩
    · have hsilent : ¬Http.Asks address asked ending := Http.not_asks hsame
      exact ⟨⟨fun hasks => absurd hasks hsilent, fun hturns => absurd hturns hnot⟩, fun _ => hsame⟩
  · rintro set rfl
    exact hends.source hrooted
  · rintro fault rfl
    exact hends.kept hrooted
  · rintro fault rfl
    exact hends.same hrooted
  · intro asked loaded length archive entries hmissing hloaded hholds hread hnone
    exact hends.unnamed hrooted hmissing hloaded hholds hread hnone

theorem acquires_of_fileUrl (hnetwork : Http.FailsWith host Http.Foreign)
    (hrooted : ".." ∉ world.files.here)
    (hurl : chained.fileUrl release.coordinate "" "tiny" = .ok url)
    (haddress : chained.fileUrl release.coordinate "v2" "jar" = .ok address) :
    Acquires chained release workspace space host world url address
      ((chained.fetchIntermediary release workspace space).eval host world).1
      ((chained.fetchIntermediary release workspace space).eval host world).2 :=
  (fetchIntermediary_ends hnetwork hurl haddress rfl).acquires hrooted

/-- **The required layer.** Without a coordinate nothing is done. Else the container is turned to
exactly if the document does not exist and the container can be asked for; the document comes from
what was just downloaded, or is what it was. -/
theorem fetchIntermediary_acquires (hnetwork : Http.FailsWith host Http.Foreign)
    (hrooted : ".." ∉ world.files.here) (chained : Chained) (release : MappingRelease)
    (workspace : Workspace) (space : String) :
    (∀ fault, chained.fileUrl release.coordinate "" "tiny" = .error fault →
      (chained.fetchIntermediary release workspace space).eval host world = (.error fault, world)) ∧
    ∀ url, chained.fileUrl release.coordinate "" "tiny" = .ok url →
      ∃ address, chained.fileUrl release.coordinate "v2" "jar" = .ok address ∧
        Acquires chained release workspace space host world url address
          ((chained.fetchIntermediary release workspace space).eval host world).1
          ((chained.fetchIntermediary release workspace space).eval host world).2 := by
  constructor
  · intro fault hurl
    unfold fetchIntermediary
    rw [hurl]
    exact Action.eval_bind_error (Action.eval_ofResult _ _ _)
  intro url hurl
  obtain ⟨address, haddress⟩ : ∃ address,
      chained.fileUrl release.coordinate "v2" "jar" = .ok address := by
    unfold fileUrl at hurl ⊢
    cases hparse : Coordinate.parse release.coordinate with
    | error fault => simp [hparse, bind, Except.bind] at hurl
    | ok coordinate => exact ⟨_, rfl⟩
  exact ⟨address, haddress, acquires_of_fileUrl hnetwork hrooted hurl haddress⟩

end

/-! ### A service without mappings -/

/-- A service that has nothing. -/
def emptyService : Host :=
  { Host.idle with network := fun _ _ => .response 404 none [] none }

theorem emptyService_answers : Http.FailsWith emptyService Http.Foreign :=
  .of_whole fun _ _ => ⟨_, _, _, rfl⟩

theorem smallRelease_urls :
    smallChained.fileUrl smallRelease.coordinate "" "tiny" = .ok "http://r/g/a/1/a-1.tiny" ∧
    smallChained.fileUrl smallRelease.coordinate "v2" "jar" = .ok "http://r/g/a/1/a-1-v2.jar" := by
  decide +kernel

theorem fetchIntermediary_acquires_empty : ∃ asked,
    Unpublished smallChained smallRelease smallRun.workspace emptyService smallWorld
      "http://r/g/a/1/a-1.tiny" asked ∧
    Http.Asks "http://r/g/a/1/a-1-v2.jar" asked
      ((smallChained.fetchIntermediary smallRelease smallRun.workspace officialNamespace).eval
        emptyService smallWorld).2 := by
  have hrooted : ".." ∉ smallWorld.files.here := by decide
  obtain ⟨address, haddress, hacquires⟩ := (fetchIntermediary_acquires emptyService_answers hrooted
    smallChained smallRelease smallRun.workspace officialNamespace).2 "http://r/g/a/1/a-1.tiny"
      smallRelease_urls.1
  obtain rfl := Except.ok.inj (smallRelease_urls.2.symm.trans haddress)
  have hasked : (downloadDocument smallChained smallRelease smallRun.workspace
      "http://r/g/a/1/a-1.tiny").eval emptyService smallWorld =
        (.error (.badStatus "http://r/g/a/1/a-1.tiny" 404 ""), _) :=
    Action.eq_of_fault (by decide +kernel)
  have hmissing := (⟨_, hasked, "", rfl⟩ : Unpublished smallChained smallRelease smallRun.workspace
    emptyService smallWorld "http://r/g/a/1/a-1.tiny" _)
  exact ⟨_, hmissing, (hacquires.asks _ _ hasked).1.mpr
    ⟨hmissing, by decide +kernel, _, rfl⟩⟩

/-! ### Versions that are too long -/

/-- The mappings directory is there. -/
def openedWorld : World :=
  { smallWorld with files := smallWorld.files.put ["work", "ws", "mappings"] .directory }

section

variable {version : String}

theorem openedWorld_directory : openedWorld.files.HasDirectory ⟨"", ["ws", "mappings"]⟩ :=
  ⟨⟨by decide +kernel, by decide +kernel,
    ⟨by decide +kernel, .inr (by decide), by decide +kernel, .inr (by decide), trivial⟩⟩,
    by decide +kernel⟩

theorem utf8ByteSize_replicate (n : Nat) : (String.ofList (List.replicate n 'a')).utf8ByteSize = n := by
  induction n with
  | zero => rfl
  | succ n ih =>
    have hsize : (String.singleton 'a').utf8ByteSize = 1 := rfl
    rw [List.replicate_succ, String.ofList_cons, String.utf8ByteSize_append, ih, hsize]
    omega

theorem documentPath_small (hslash : '/' ∉ version.toList) :
    documentPath smallRun.workspace version =
      ⟨"", ["ws", "mappings", "intermediary-" ++ version ++ ".tiny"]⟩ := by
  have hdocument : FileTree.IsDocument ("intermediary-" ++ version ++ ".tiny") :=
    ⟨by simp [hslash], 'y', by decide, by simp⟩
  exact hdocument.div_eq _

theorem openedWorld_prepares (hslash : '/' ∉ version.toList) (hnull : '\x00' ∉ version.toList)
    (hsize : version.utf8ByteSize ≤ 223) :
    openedWorld.files.Prepares (documentPath smallRun.workspace version) := by
  have hsibling : (FileTree.siblingName ("intermediary-" ++ version ++ ".tiny") 0).utf8ByteSize ≤
      FileTree.nameLimit := by
    have hserial : (FileTree.serialText 0).utf8ByteSize = 8 := by decide +kernel
    have hfront : "intermediary-".utf8ByteSize = 13 := rfl
    have hending : ".tiny".utf8ByteSize = 5 := rfl
    rw [FileTree.utf8ByteSize_siblingName, hserial, String.utf8ByteSize_append,
      String.utf8ByteSize_append, hfront, hending, FileTree.nameLimit]
    omega
  rw [documentPath_small hslash]
  refine openedWorld_directory.prepares_of_free (by decide) rfl ⟨?_, ?_, ?_⟩
  · change ["work", "ws", "mappings", FileTree.siblingName ("intermediary-" ++ version ++ ".tiny") 0].any
      (·.toList.contains '\x00') = false
    have hserial : '\x00' ∉ (FileTree.serialText 0).toList := by decide +kernel
    simp [FileTree.siblingName, hnull, hserial]
  · change ("/" ++ ("work" ++ "/" ++ "ws" ++ "/" ++ "mappings" ++ "/" ++
      FileTree.siblingName ("intermediary-" ++ version ++ ".tiny") 0)).utf8ByteSize ≤ FileTree.pathLimit
    have hfront : ("/" ++ ("work" ++ "/" ++ "ws" ++ "/" ++ "mappings" ++ "/")).utf8ByteSize = 18 := by
      decide +kernel
    rw [← String.append_assoc, String.utf8ByteSize_append, hfront]
    exact (Nat.add_le_add_left hsibling 18).trans (by decide)
  · exact ⟨rfl, .inr (by decide), rfl, .inr (by decide), rfl, .inr (by decide), rfl,
      .inr hsibling, trivial⟩

theorem openedWorld_unpublished (hslash : '/' ∉ version.toList) (hnull : '\x00' ∉ version.toList)
    (hsize : version.utf8ByteSize ≤ 223) : ∃ asked,
      Unpublished smallChained { smallRelease with version } smallRun.workspace emptyService
        openedWorld "http://r/g/a/1/a-1.tiny" asked := by
  obtain ⟨parsed, hparse, habsolute⟩ : ∃ parsed, Url.parse "http://r/g/a/1/a-1.tiny" = .ok parsed ∧
      parsed.isAbsolute = true := ⟨_, rfl, by decide +kernel⟩
  have hreply : ∀ past, emptyService.network past parsed.toString = .response 404 none [] none :=
    fun _ => rfl
  obtain ⟨asked, heval⟩ := Http.eval_download_of_fault (openedWorld_prepares hslash hnull hsize)
    fun use start => ⟨_, Http.eval_fetch_of_refusal hparse habsolute (by decide) (by decide) hreply
      smallChained.maxAttempts start⟩
  exact ⟨asked, _, heval, _, rfl⟩

/-- There is no room for a temporary name of the container. -/
theorem not_prepares_of_long {tree : FileTree} (hrooted : ".." ∉ tree.here)
    (hslash : '/' ∉ version.toList) (hsize : 221 < version.utf8ByteSize) :
    ¬tree.Prepares (containerPath workspace version) := by
  intro hprepares
  have hcontainer : FileTree.IsDocument ("intermediary-" ++ version ++ "-v2.jar") :=
    ⟨by simp [hslash], 'y', by decide, by simp⟩
  have hname : (containerPath workspace version).name = "intermediary-" ++ version ++ "-v2.jar" := by
    have hpath : containerPath workspace version = _ := hcontainer.div_eq workspace.mappingsDirectory
    simp [hpath, Path.name]
  have hfront : "intermediary-".utf8ByteSize = 13 := rfl
  have hending : "-v2.jar".utf8ByteSize = 7 := rfl
  have hroom := hprepares.name_le hrooted
  rw [hname, String.utf8ByteSize_append, String.utf8ByteSize_append, hfront, hending,
    FileTree.nameLimit] at hroom
  omega

/-- For versions of some lengths there is no document, and yet no container is asked for. -/
theorem unpublished_unasked (hslash : '/' ∉ version.toList) (hnull : '\x00' ∉ version.toList)
    (hshort : version.utf8ByteSize ≤ 223) (hlong : 221 < version.utf8ByteSize) : ∃ asked,
      Unpublished smallChained { smallRelease with version } smallRun.workspace emptyService
        openedWorld "http://r/g/a/1/a-1.tiny" asked ∧
      ¬Http.Asks "http://r/g/a/1/a-1-v2.jar" asked
        ((smallChained.fetchIntermediary { smallRelease with version } smallRun.workspace
          officialNamespace).eval emptyService openedWorld).2 := by
  have hrooted : ".." ∉ openedWorld.files.here := by decide
  obtain ⟨asked, hmissing⟩ := openedWorld_unpublished hslash hnull hshort
  have hhere := (hmissing.change hrooted).here
  have hacquires : Acquires smallChained { smallRelease with version } smallRun.workspace
      officialNamespace emptyService openedWorld _ _ _ _ :=
    acquires_of_fileUrl emptyService_answers hrooted smallRelease_urls.1 smallRelease_urls.2
  obtain ⟨fault, hasked, -⟩ := id hmissing
  refine ⟨asked, hmissing, fun hasks => ?_⟩
  have hturns := (hacquires.asks _ _ hasked).1.mp hasks
  exact not_prepares_of_long (hhere ▸ hrooted) hslash hlong hturns.2.1

end

/-- For a version that is too long no container is asked for though there is no document. For one that
passes through its own document a directory comes in the place of that. -/
theorem fetchIntermediary_not_acquires :
    (∃ asked,
      Unpublished smallChained { smallRelease with version := String.ofList (List.replicate 222 'a') }
        smallRun.workspace emptyService openedWorld "http://r/g/a/1/a-1.tiny" asked ∧
      ¬Http.Asks "http://r/g/a/1/a-1-v2.jar" asked
        ((smallChained.fetchIntermediary
          { smallRelease with version := String.ofList (List.replicate 222 'a') }
          smallRun.workspace officialNamespace).eval emptyService openedWorld).2) ∧
    smallWorld.files.node? ["work", "ws", "mappings", "intermediary-a.tiny"] = none ∧
    ((smallChained.fetchIntermediary { smallRelease with version := "a.tiny/../intermediary-a" }
      smallRun.workspace officialNamespace).eval emptyService smallWorld).1.isOk = false ∧
    ((smallChained.fetchIntermediary { smallRelease with version := "a.tiny/../intermediary-a" }
      smallRun.workspace officialNamespace).eval emptyService smallWorld).2.files.node?
        ["work", "ws", "mappings", "intermediary-a.tiny"] = some .directory := by
  have hletters : ∀ c, c ≠ 'a' → c ∉ (String.ofList (List.replicate 222 'a')).toList := by
    intro c hother hmem
    rw [String.toList_ofList] at hmem
    exact hother (List.eq_of_mem_replicate hmem)
  refine ⟨unpublished_unasked (hletters _ (by decide)) (hletters _ (by decide)) ?_ ?_,
    by decide +kernel, by decide +kernel, by decide +kernel⟩
  · rw [utf8ByteSize_replicate]
    decide
  · rw [utf8ByteSize_replicate]
    decide

end MappingProvider.Chained

end JarRefinery
