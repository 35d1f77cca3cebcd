import JarRefinery.Proofs.Delivery
import JarRefinery.Proofs.Files.Room

/-!
# Where downloads land

A download to a place where nothing is makes the directories above it as far as they can be made, and
then ends well exactly if they all could, if there is room for a temporary file, and if the network
delivers a body in time. Then the file with that body is there too. Nothing else is left.
-/

namespace JarRefinery

section Directory

variable {tree after : FileTree} {directory : Location}

/-- What is in a directory does not depend on whether the directory was there. -/
theorem FileTree.Made.node?_append (hmade : Made directory tree after) (name : String) :
    after.node? (directory ++ [name]) = tree.node? (directory ++ [name]) :=
  hmade.same _ fun hmakes => by simpa using hmakes.onTheWay.length_le

theorem FileTree.Made.roomy_iff (hmade : Made directory tree after) (name : String) :
    after.Roomy directory name ↔ tree.Roomy directory name :=
  ⟨.congr fun _ _ hfree => (hmade.node?_append _).symm.trans hfree,
    .congr fun _ _ hfree => (hmade.node?_append _).trans hfree⟩

variable (hdirectory : tree.HasDirectory (.ofLocation directory)) (hdots : ".." ∉ directory)

include hdirectory hdots

/-- A directory that is there has been made. -/
theorem FileTree.HasDirectory.makes : tree.Makes directory directory := by
  have hnode := hdirectory.node
  rw [Path.normal_ofLocation hdots] at hnode
  exact ⟨hdirectory.reachable.length, List.prefix_rfl,
    hdirectory.reachable.clear hdots (by simp [hnode])⟩

theorem FileTree.HasDirectory.made : Made directory tree tree := by
  obtain ⟨-, -, hleads, -⟩ := (reachable_ofLocation_iff hdots).mp hdirectory.reachable
  refine .refl fun location hmakes => ?_
  by_cases heq : location = directory
  · have hnode := hdirectory.node
    rwa [Path.normal_ofLocation hdots, ← heq] at hnode
  · exact hleads location hmakes.onTheWay heq

end Directory

/-- What comes to its end beside a target was begun there. -/
theorem Action.prepares_of_eval_withSibling_ok {α : Type} {host : Host} {target : Path}
    {use : Path → Action α} {world after : World} {value : α}
    (heval : (Action.withSibling target use).eval host world = (.ok value, after)) :
    world.files.Prepares target := by
  rw [Action.eval_withSibling] at heval
  rcases hnew : (FileTree.newSibling target).eval world.files with ⟨error | sibling, ready⟩
  · rw [hnew] at heval
    cases heval
  · exact ⟨sibling, ready, hnew⟩

namespace Http

variable {host : Host} {maxAttempts : Int} {url : String} {directory : Location} {name : String}
  {world : World}

/-- A download to this place brings this body. -/
structure Obtains (host : Host) (maxAttempts : Int) (url : String) (past : List String)
    (files : FileTree) (directory : Location) (name : String) (body : Bytes) : Prop where
  makes : files.Makes directory directory
  roomy : files.Roomy directory name
  delivered : ∃ k ≤ (maxAttempts - 1).toNat, ∃ response,
    Delivered host url past k response ∧ body = response.body

/-- No other body is brought. -/
theorem Obtains.unique {past : List String} {files : FileTree} {body other : Bytes}
    (hobtains : Obtains host maxAttempts url past files directory name body)
    (hother : Obtains host maxAttempts url past files directory name other) : body = other := by
  obtain ⟨_, _, response, hdelivered, rfl⟩ := hobtains.delivered
  obtain ⟨_, _, response', hdelivered', rfl⟩ := hother.delivered
  rw [(hdelivered.unique hdelivered').2]

/-- From a steady network, what was asked for before makes no difference to it. -/
theorem Obtains.of_steady {past past' : List String} {files other : FileTree} {body : Bytes}
    (hsteady : host.Steady) (hmakes : files.Makes directory directory → other.Makes directory directory)
    (hroomy : files.Roomy directory name → other.Roomy directory name)
    (hobtains : Obtains host maxAttempts url past files directory name body) :
    Obtains host maxAttempts url past' other directory name body := by
  obtain ⟨hmade, hroom, k, hk, response, hdelivered, hbody⟩ := hobtains
  exact ⟨hmakes hmade, hroomy hroom, k, hk, response, hdelivered.of_steady hsteady, hbody⟩

/-- How a download to a place ends where nothing is yet. -/
inductive Lands (host : Host) (maxAttempts : Int) (url : String) (world : World) (directory : Location)
    (name : String) : Except Fault Nat × World → Prop
  | obtained {length : Nat} {body : Bytes} {ready : FileTree} {after : World} :
    Obtains host maxAttempts url world.requests world.files directory name body →
    FileTree.Made directory world.files ready → after.files.here = world.files.here →
    after.files.node? (directory ++ [name]) = some (.file body 0o600) →
    (∀ location, location ≠ directory ++ [name] →
      after.files.node? location = ready.node? location) →
    Lands host maxAttempts url world directory name (.ok length, after)
  | failed {fault : Fault} {ready : FileTree} {after : World} :
    (∀ body, ¬Obtains host maxAttempts url world.requests world.files directory name body) →
    FileTree.Made directory world.files ready → after.files.here = world.files.here →
    (∀ location, after.files.node? location = ready.node? location) →
    Lands host maxAttempts url world directory name (.error fault, after)

/-- Once the directories are made, a download lands as it would have landed without them. -/
theorem Lands.of_made {ready : FileTree} {ending : Except Fault Nat × World}
    (hmakes : world.files.Makes directory directory) (hmade : FileTree.Made directory world.files ready)
    (hlands : Lands host maxAttempts url { world with files := ready } directory name ending) :
    Lands host maxAttempts url world directory name ending := by
  have hroomy := hmade.roomy_iff name
  have hboth : ∀ {later : FileTree}, FileTree.Made directory ready later →
      FileTree.Made directory world.files later := fun hlater =>
    hmade.trans List.prefix_rfl hlater hmakes.asked
  cases hlands with
  | obtained hbody hlater hhere hnode hsame =>
    exact .obtained ⟨hmakes, hroomy.mp hbody.roomy, hbody.delivered⟩ (hboth hlater)
      (hhere.trans hmade.here) hnode hsame
  | failed hnever hlater hhere hsame =>
    refine .failed (fun body hbody => hnever body ⟨?_, hroomy.mpr hbody.roomy, hbody.delivered⟩)
      (hboth hlater) (hhere.trans hmade.here) hsame
    exact ⟨hmakes.asked, List.prefix_rfl, hmade.clear_iff.mpr hmakes.clear⟩

/-- What keeps the directories from being made keeps a download from being begun. -/
theorem eval_download_unmade {error : FileError} {ready : FileTree}
    (hmaking : (FileTree.ensureDirectories (.ofLocation directory)).eval world.files =
      (.error error, ready)) :
    (download maxAttempts url (.ofLocation (directory ++ [name]))).eval host world =
      (.error (.ofFile error), { world with files := ready }) := by
  have hfailed : (FileTree.newSibling (.ofLocation (directory ++ [name]))).eval world.files =
      (.error error, ready) :=
    FileTree.Action.eval_bind_error (by rw [Path.parent_ofLocation_append, hmaking])
  unfold download downloadBy
  rw [Action.eval_withSibling, hfailed]

/-- Once the directories are made, a download might as well begin there. -/
theorem eval_download_made {ready : FileTree} (hready : ready.HasDirectory (.ofLocation directory))
    (hmaking : (FileTree.ensureDirectories (.ofLocation directory)).eval world.files =
      (.ok (), ready)) :
    (download maxAttempts url (.ofLocation (directory ++ [name]))).eval host world =
      (download maxAttempts url (.ofLocation (directory ++ [name]))).eval host
        { world with files := ready } := by
  have hnew : (FileTree.newSibling (.ofLocation (directory ++ [name]))).eval world.files =
      (FileTree.newSibling (.ofLocation (directory ++ [name]))).eval ready := by
    unfold FileTree.newSibling
    rw [Path.parent_ofLocation_append, FileTree.Action.eval_bind_ok hmaking,
      FileTree.Action.eval_bind_ok hready.eval_ensureDirectories]
  unfold download downloadBy
  rw [Action.eval_withSibling, Action.eval_withSibling, hnew]

variable (hrooted : ".." ∉ world.files.here) (hdots : ".." ∉ directory ++ [name])
  (hnull : FileTree.hasNull (.ofLocation (directory ++ [name])) = false)
  (hnone : world.files.node? (directory ++ [name]) = none)

include hrooted hdots hnull hnone

/-- Where the directory is there, a download changes nothing but the place that it brings a file to. -/
theorem download_lands_beside (hdirectory : world.files.HasDirectory (.ofLocation directory)) :
    Lands host maxAttempts url world directory name
      ((download maxAttempts url (.ofLocation (directory ++ [name]))).eval host world) := by
  have hpiece : 1 ≤ defaultPiece := by decide
  have hmakes := hdirectory.makes fun hmem => hdots (List.mem_append_left _ hmem)
  have hmade := hdirectory.made fun hmem => hdots (List.mem_append_left _ hmem)
  have hreplaces : Replaces host world.files.here (.ofLocation (directory ++ [name]))
      (download maxAttempts url (.ofLocation (directory ++ [name]))) := .downloadBy hrooted _ _ _
  have hreplaced := hreplaces world rfl
  have hparent := Path.parent_ofLocation_append directory name
  rcases hdownload : (download maxAttempts url (.ofLocation (directory ++ [name]))).eval host world with
    ⟨fault | length, after⟩ <;> rw [hdownload] at hreplaced
  · refine .failed (fun body hobtains => ?_) hmade hreplaced.here fun location =>
      hdirectory.node?_eq (hparent ▸ hreplaced) (Set.notMem_empty _) (Set.notMem_empty _)
    obtain ⟨k, hk, response, hdelivered, -⟩ := hobtains.delivered
    have hreceives := (hdirectory.receives_append_iff hdots hnull hrooted hnone).mpr hobtains.roomy
    obtain ⟨returned, hreturned⟩ := downloadBy_returns hrooted hpiece hreceives hk hdelivered
    cases hreturned.symm.trans hdownload
  · obtain ⟨k, hk, response, hdelivered, -, -, -, hnode⟩ :=
      of_eval_downloadBy_ok hrooted hpiece hdownload
    rw [Path.normal_ofLocation hdots] at hnode hreplaced
    have hprepared := (hdirectory.prepares_append_iff hdots hnull hrooted).mp
      (Action.prepares_of_eval_withSibling_ok hdownload)
    exact .obtained ⟨hmakes, hprepared, k, hk, response, hdelivered, rfl⟩ hmade hreplaced.1.here hnode
      fun location hne => hdirectory.node?_eq (hparent ▸ hreplaced.1) hne (Set.notMem_empty _)

/-- **Landing.** A download changes nothing but what it is to make. -/
theorem download_lands (hgrounded : world.files.Grounded) :
    Lands host maxAttempts url world directory name
      ((download maxAttempts url (.ofLocation (directory ++ [name]))).eval host world) := by
  have habove : ".." ∉ directory := fun hmem => hdots (List.mem_append_left _ hmem)
  have hensured := FileTree.ensureDirectories_ensuresAll
    (FileTree.hasNull_ofLocation_of_above (List.prefix_append _ _) hnull) hgrounded habove
  have hspec := (FileTree.ensureDirectories_spec world.files (.ofLocation directory)).2
  rcases hmaking : (FileTree.ensureDirectories (.ofLocation directory)).eval world.files with
    ⟨result, ready⟩
  rw [hmaking] at hensured hspec
  rcases hensured with ⟨hmakes, hmade⟩ | @⟨_, error, hunmade, hmade⟩
  · have hready : ready.HasDirectory (.ofLocation directory) := hspec rfl
    rw [eval_download_made hready hmaking]
    refine .of_made hmakes hmade (download_lands_beside (hmade.here ▸ hrooted) hdots hnull ?_ hready)
    rw [hmade.node?_append, hnone]
  · rw [eval_download_unmade hmaking]
    exact .failed (fun body hobtains => hunmade hobtains.makes) hmade hmade.here fun _ => rfl

end Http

end JarRefinery
