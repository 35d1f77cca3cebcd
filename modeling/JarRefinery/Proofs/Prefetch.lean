import JarRefinery.Proofs.Framing

/-!
# Libraries are fetched once

Every library that is fetched leaves the files that were there, and a file of its own only where
nothing was yet. So a place that two libraries share is downloaded to once: what the first of them
brings is there for the second.
-/

namespace JarRefinery

open FileTree.Action (eval eval_bind)

variable {host : Host} {maxAttempts : Int} {workspace : Workspace} {world after : World}

/-- A path leads to a file. -/
structure FileTree.Stands (files : FileTree) (path : Path) : Prop where
  reachable : files.Reachable path
  node : ∃ contents mode, files.node? (path.normal files.here) = some (.file contents mode)

theorem FileTree.Stands.change {before after : FileTree} {path : Path} {footprint : Footprint}
    (hstands : before.Stands path) (hchange : Change footprint before after)
    (hremoved : path.normal before.here ∉ footprint.removed) : after.Stands path where
  reachable := hchange.reachable hstands.reachable
  node := by
    obtain ⟨contents, mode, hnode⟩ := hstands.node
    rw [hchange.here]
    exact hchange.file _ contents mode hremoved hnode

/-- The place that the path of a library leads to lies below the directory of the libraries. -/
structure Workspace.Places (workspace : Workspace) (here : Location) (relative : String)
    (place : Location) : Prop where
  resolved : (workspace.librariesDirectory / relative).normal here = place
  below : ∃ rest, rest ≠ [] ∧ place = workspace.librariesDirectory.normal here ++ rest

namespace Workspace.Places

variable {here place : Location} {relative : String}

theorem noDots (hplaces : workspace.Places here relative place) (hrooted : ".." ∉ here) :
    ".." ∉ place :=
  hplaces.resolved ▸ Path.dots_notMem_normal hrooted _

/-- The directory of the libraries is no place of a library. -/
theorem ne_librariesDirectory (hplaces : workspace.Places here relative place)
    (hrooted : ".." ∉ here) : Path.ofLocation place ≠ workspace.librariesDirectory := by
  intro hsame
  obtain ⟨rest, hrest, hbelow⟩ := hplaces.below
  rw [← hsame, Path.normal_ofLocation (hplaces.noDots hrooted)] at hbelow
  exact hrest (List.self_eq_append_right.mp hbelow)

end Workspace.Places

/-- The workspace refuses the path of a library or takes it to a place of its own. -/
theorem Workspace.library_cases (host : Host) (workspace : Workspace) (relative : String)
    (world : World) :
    (∃ fault, (workspace.library relative).eval host world = (.error fault, world)) ∨
      ∃ place, workspace.Places world.files.here relative place ∧
        (workspace.library relative).eval host world = (.ok (.ofLocation place), world) := by
  unfold library
  cases hplace : FileTree.hasNull (workspace.librariesDirectory / relative) with
  | true => exact .inl ⟨_, Action.eval_bind_error (Action.eval_resolve_null hplace)⟩
  | false =>
    rw [Action.eval_bind_ok (Action.eval_resolve hplace)]
    cases hbase : FileTree.hasNull workspace.librariesDirectory with
    | true => exact .inl ⟨_, Action.eval_bind_error (Action.eval_resolve_null hbase)⟩
    | false =>
      rw [Action.eval_bind_ok (Action.eval_resolve hbase)]
      split
      · rename_i hbelow
        obtain ⟨hbegins, hne⟩ := hbelow
        obtain ⟨rest, hrest⟩ := List.isPrefixOf_iff_prefix.mp hbegins
        refine .inr ⟨_, ⟨rfl, rest, ?_, hrest.symm⟩, rfl⟩
        rintro rfl
        exact hne (by simpa using hrest)
      · exact .inl ⟨_, rfl⟩

namespace Release

/-! ### One library -/

/-- How the fetch of a library ends: its path is refused, something is at its place, its download
fails, or its file is new. -/
inductive Fetched (host : Host) (workspace : Workspace) (dependency : Dependency) (world : World) :
    LibraryFetch → World → Prop
  | refused (warning : String) :
    Fetched host workspace dependency world
      ⟨dependency, workspace.librariesDirectory, .failed, some warning⟩ world
  | present {place : Location} : workspace.Places world.files.here dependency.path place →
    Fetched host workspace dependency world ⟨dependency, .ofLocation place, .present, none⟩ world
  | failed {place : Location} {warning : String} {after : World} :
    workspace.Places world.files.here dependency.path place →
    (FileTree.doesExist (.ofLocation place)).eval world.files = (.ok false, world.files) →
    Change { made := (Path.ofLocation place).parent.trail world.files.here } world.files after.files →
    Fetched host workspace dependency world
      ⟨dependency, .ofLocation place, .failed, some warning⟩ after
  | downloaded {place : Location} {body : Bytes} {mode : Nat} {after : World} :
    workspace.Places world.files.here dependency.path place →
    (FileTree.doesExist (.ofLocation place)).eval world.files = (.ok false, world.files) →
    Change { made := (Path.ofLocation place).parent.trail world.files.here, written := {place} }
      world.files after.files →
    Http.Brought host dependency.url world body after →
    after.files.node? place = some (.file body mode) →
    after.files.Reachable (.ofLocation place) →
    Fetched host workspace dependency world ⟨dependency, .ofLocation place, .downloaded, none⟩ after

theorem of_eval_fetchLibraryTo_ok {dependency : Dependency} {place : Location}
    {result : LibraryFetch} (hrooted : ".." ∉ world.files.here)
    (hplaces : workspace.Places world.files.here dependency.path place)
    (heval : (fetchLibraryTo maxAttempts dependency (.ofLocation place)).eval host world =
      (.ok result, after)) :
    Fetched host workspace dependency world result after := by
  unfold fetchLibraryTo at heval
  obtain ⟨found, looked, hlook, heval⟩ := Action.of_eval_bind_ok heval
  obtain ⟨files, hexists, rfl⟩ := Action.of_eval_onFiles_ok hlook
  obtain rfl : files = world.files := by
    rw [← FileTree.eval_doesExist_snd world.files (.ofLocation place), hexists]
  cases found with
  | true =>
    obtain ⟨rfl, rfl⟩ : _ = result ∧ world = after := by simpa using heval
    exact .present hplaces
  | false =>
    have hreplaces : Replaces host world.files.here (.ofLocation place)
        (Http.download maxAttempts dependency.url (.ofLocation place)) := .downloadBy hrooted _ _ _
    have hreplaced := hreplaces world rfl
    change (Action.handle _ _ _).eval host world = _ at heval
    rw [Action.eval_handle, Action.eval_bind] at heval
    rcases hload : (Http.download maxAttempts dependency.url (.ofLocation place)).eval host world with
      ⟨fault | length, loaded⟩ <;> rw [hload] at hreplaced heval
    · cases hanswers : isDownloadFault fault <;> simp only [hanswers] at heval
      · simp at heval
      · obtain ⟨rfl, rfl⟩ : _ = result ∧ loaded = after := by simpa using heval
        exact .failed hplaces hexists hreplaced
    · obtain ⟨rfl, rfl⟩ : _ = result ∧ loaded = after := by simpa using heval
      have hnormal : (Path.ofLocation place).normal world.files.here = place :=
        Path.normal_ofLocation (hplaces.noDots hrooted) _
      obtain ⟨body, mode, hbrought, hnode⟩ := Http.of_eval_download_ok hrooted hload
      rw [hnormal] at hnode hreplaced
      exact .downloaded hplaces hexists hreplaced.1 hbrought hnode
        (Http.reachable_of_eval_download_ok hrooted hload)

theorem of_eval_fetchLibrary_ok {dependency : Dependency} {result : LibraryFetch}
    (hrooted : ".." ∉ world.files.here)
    (heval : (fetchLibrary maxAttempts workspace dependency).eval host world = (.ok result, after)) :
    Fetched host workspace dependency world result after := by
  unfold fetchLibrary at heval
  obtain ⟨place, placed, hplace, heval⟩ := Action.of_eval_bind_ok heval
  obtain ⟨hplace, -⟩ := Action.of_eval_caught_ok hplace
  rcases workspace.library_cases host dependency.path world with
    ⟨fault, hrefused⟩ | ⟨target, hplaces, htaken⟩
  · obtain ⟨rfl, rfl⟩ := Prod.mk.inj (hrefused.symm.trans hplace)
    obtain ⟨rfl, rfl⟩ : _ = result ∧ world = after := by simpa using heval
    exact .refused _
  · obtain ⟨rfl, rfl⟩ := Prod.mk.inj (htaken.symm.trans hplace)
    exact of_eval_fetchLibraryTo_ok hrooted hplaces heval

/-- The file that was downloaded for a library: nothing was at its place, and now the body of the
last answer is. -/
structure Brings (host : Host) (workspace : Workspace) (start : World) (result : LibraryFetch)
    (done : World) (location : Location) (body : Bytes) : Prop where
  status : result.status = .downloaded
  path : result.path = .ofLocation location
  place : workspace.Places start.files.here result.dependency.path location
  body : Http.Brought host result.dependency.url start body done

namespace Fetched

variable {dependency : Dependency} {result : LibraryFetch}
  (hfetched : Fetched host workspace dependency world result after)

include hfetched

theorem dependency_eq : result.dependency = dependency := by
  cases hfetched <;> rfl

theorem here_eq : after.files.here = world.files.here := by
  cases hfetched with
  | refused => rfl
  | present => rfl
  | failed _ _ hchange => exact hchange.here
  | downloaded _ _ hchange => exact hchange.here

theorem present_eq (hstatus : result.status = .present) : after = world := by
  cases hfetched <;> first | rfl | cases hstatus

/-- Files stay to which directories lead. -/
theorem hasFile {location : Location} {contents : Bytes} {mode : Nat}
    (hrooted : ".." ∉ world.files.here) (hfile : world.files.HasFile location contents mode) :
    after.files.HasFile location contents mode := by
  cases hfetched with
  | refused => exact hfile
  | present => exact hfile
  | failed _ _ hchange =>
    exact ⟨hchange.node?_file (Set.notMem_empty _) (Set.notMem_empty _) hfile.node,
      hfile.leads.mono hchange.directory⟩
  | @downloaded place body _ _ hplaces habsent hchange _ hnode hreach =>
    have hdots := hplaces.noDots hrooted
    have hother : location ∉ ({place} : Set Location) := by
      rintro rfl
      have hthere := (hfile.reachable hreach hdots (by simp [hnode])).eval_doesExist
        (Path.normal_ofLocation hdots _ ▸ hfile.node)
      simp [habsent] at hthere
    exact ⟨hchange.node?_file hother (Set.notMem_empty _) hfile.node,
      hfile.leads.mono hchange.directory⟩

/-- A file that is new is the one that was downloaded. -/
theorem brings {location : Location} {contents : Bytes} {mode : Nat}
    (hfile : after.files.node? location = some (.file contents mode)) :
    world.files.node? location = some (.file contents mode) ∨
      Brings host workspace world result after location contents := by
  cases hfetched with
  | refused => exact .inl hfile
  | present => exact .inl hfile
  | failed _ _ hchange => exact .inl (hchange.notWritten _ _ _ (Set.notMem_empty _) hfile)
  | @downloaded place body _ _ hplaces _ hchange hbrought hnode _ =>
    by_cases hplace : location = place
    · subst hplace
      obtain ⟨rfl, -⟩ : body = contents ∧ _ := by simpa using hnode.symm.trans hfile
      exact .inr ⟨rfl, rfl, hplaces, hbrought⟩
    · exact .inl (hchange.notWritten _ _ _ hplace hfile)

end Fetched

namespace Fetched

variable {dependency : Dependency} {result : LibraryFetch} {path : Path}
  (hfetched : Fetched host workspace dependency world result after)

include hfetched

theorem stands (hstands : world.files.Stands path) : after.files.Stands path := by
  cases hfetched with
  | refused => exact hstands
  | present => exact hstands
  | failed _ _ hchange => exact hstands.change hchange (Set.notMem_empty _)
  | downloaded _ _ hchange => exact hstands.change hchange (Set.notMem_empty _)

theorem stands_of_downloaded (hrooted : ".." ∉ world.files.here)
    (hstatus : result.status = .downloaded) : after.files.Stands result.path := by
  cases hfetched with
  | refused | present | failed => cases hstatus
  | @downloaded place body mode _ hplaces _ _ _ hnode hreach =>
    refine ⟨hreach, body, mode, ?_⟩
    rw [Path.normal_ofLocation (hplaces.noDots hrooted)]
    exact hnode

/-- What has its file already is not downloaded. -/
theorem status_of_stands (hstands : world.files.Stands path)
    (hpath : result.path = path) (hdirectory : path ≠ workspace.librariesDirectory) :
    result.status = .present := by
  obtain ⟨hreach, contents, mode, hnode⟩ := hstands
  have hthere := hreach.eval_doesExist hnode
  cases hfetched with
  | refused => exact absurd hpath.symm hdirectory
  | present => rfl
  | failed _ habsent => simp [← hpath, habsent] at hthere
  | downloaded _ habsent => simp [← hpath, habsent] at hthere

theorem path_ne_librariesDirectory (hrooted : ".." ∉ world.files.here)
    (hstatus : result.status = .downloaded) : result.path ≠ workspace.librariesDirectory := by
  cases hfetched with
  | refused | present | failed => cases hstatus
  | downloaded hplaces => exact hplaces.ne_librariesDirectory hrooted

end Fetched

/-! ### All of them -/

/-- The libraries of these results were fetched one after the other, each from the world that the one
before it left. -/
inductive Row (host : Host) (maxAttempts : Int) (workspace : Workspace) :
    World → List LibraryFetch → World → Prop
  | nil (world : World) : Row host maxAttempts workspace world [] world
  | cons {world middle after : World} {result : LibraryFetch} {rest : List LibraryFetch} :
    (fetchLibrary maxAttempts workspace result.dependency).eval host world = (.ok result, middle) →
    Row host maxAttempts workspace middle rest after →
    Row host maxAttempts workspace world (result :: rest) after

theorem row_of_eval_fetchLibraries_ok {dependencies : List Dependency} {results : List LibraryFetch}
    (hrooted : ".." ∉ world.files.here)
    (heval : (fetchLibraries maxAttempts workspace dependencies).eval host world =
      (.ok results, after)) :
    results.map LibraryFetch.dependency = dependencies ∧
      Row host maxAttempts workspace world results after := by
  unfold fetchLibraries at heval
  induction dependencies generalizing world results with
  | nil =>
    obtain ⟨rfl, rfl⟩ : [] = results ∧ world = after := by simpa using heval
    exact ⟨rfl, .nil world⟩
  | cons dependency rest ih =>
    rw [List.mapM_cons] at heval
    obtain ⟨result, middle, hfirst, heval⟩ := Action.of_eval_bind_ok heval
    obtain ⟨others, last, hrest, hpure⟩ := Action.of_eval_bind_ok heval
    obtain ⟨rfl, rfl⟩ : result :: others = results ∧ last = after := by simpa using hpure
    have hfetched := of_eval_fetchLibrary_ok hrooted hfirst
    obtain ⟨hdependencies, hrow⟩ := ih (hfetched.here_eq ▸ hrooted) hrest
    have hdependency := hfetched.dependency_eq
    exact ⟨by rw [List.map_cons, hdependency, hdependencies], .cons (hdependency ▸ hfirst) hrow⟩

namespace Row

variable {results front back : List LibraryFetch} {result : LibraryFetch}

theorem split (hrow : Row host maxAttempts workspace world (front ++ back) after) :
    ∃ middle, Row host maxAttempts workspace world front middle ∧
      Row host maxAttempts workspace middle back after := by
  induction front generalizing world with
  | nil => exact ⟨world, .nil world, hrow⟩
  | cons first rest ih =>
    cases hrow with
    | cons hfirst hrest =>
      obtain ⟨middle, hfront, hback⟩ := ih hrest
      exact ⟨middle, .cons hfirst hfront, hback⟩

variable (hrooted : ".." ∉ world.files.here)
  (hrow : Row host maxAttempts workspace world results after)

include hrooted hrow

theorem here_eq : after.files.here = world.files.here := by
  induction hrow with
  | nil => rfl
  | cons hfirst _ ih =>
    have hhere := (of_eval_fetchLibrary_ok hrooted hfirst).here_eq
    exact (ih (hhere ▸ hrooted)).trans hhere

theorem hasFile {location : Location} {contents : Bytes} {mode : Nat}
    (hfile : world.files.HasFile location contents mode) :
    after.files.HasFile location contents mode := by
  induction hrow with
  | nil => exact hfile
  | cons hfirst _ ih =>
    have hfetched := of_eval_fetchLibrary_ok hrooted hfirst
    exact ih (hfetched.here_eq ▸ hrooted) (hfetched.hasFile hrooted hfile)

theorem stands {path : Path} (hstands : world.files.Stands path) : after.files.Stands path := by
  induction hrow with
  | nil => exact hstands
  | cons hfirst _ ih =>
    have hfetched := of_eval_fetchLibrary_ok hrooted hfirst
    exact ih (hfetched.here_eq ▸ hrooted) (hfetched.stands hstands)

/-- A file that is new was brought by one of the fetches. -/
theorem brings {location : Location} {contents : Bytes} {mode : Nat}
    (hfile : after.files.node? location = some (.file contents mode)) :
    world.files.node? location = some (.file contents mode) ∨
      ∃ front result back start done, results = front ++ result :: back ∧
        Row host maxAttempts workspace world front start ∧
        Row host maxAttempts workspace done back after ∧
        Brings host workspace start result done location contents := by
  induction hrow with
  | nil => exact .inl hfile
  | @cons world middle after result rest hfirst hrest ih =>
    have hfetched := of_eval_fetchLibrary_ok hrooted hfirst
    rcases ih (hfetched.here_eq ▸ hrooted) hfile with
      hmiddle | ⟨front, later, back, start, done, rfl, hfront, hback, hbrings⟩
    · rcases hfetched.brings hmiddle with hbefore | hbrings
      · exact .inl hbefore
      · exact .inr ⟨[], result, rest, world, middle, rfl, .nil world, hrest, hbrings⟩
    · exact .inr ⟨result :: front, later, back, start, done, rfl, .cons hfirst hfront, hback,
        hbrings⟩

end Row

/-- What fetching libraries leaves. The results are those of the dependencies, in order; the files
that were there stay; a file that is new is the body brought for a library that was downloaded, at
its place; after that every library of the same place is present, and what is present is left alone,
with nothing asked for it. -/
structure Prefetched (host : Host) (maxAttempts : Int) (workspace : Workspace)
    (dependencies : List Dependency) (world : World) (results : List LibraryFetch) (after : World) :
    Prop where
  dependencies : results.map LibraryFetch.dependency = dependencies
  kept : ∀ location contents mode, world.files.HasFile location contents mode →
    after.files.HasFile location contents mode
  fresh : ∀ location contents mode, after.files.node? location = some (.file contents mode) →
    world.files.node? location = some (.file contents mode) ∨
      ∃ front result back start done, results = front ++ result :: back ∧
        Row host maxAttempts workspace world front start ∧
        Row host maxAttempts workspace done back after ∧
        Brings host workspace start result done location contents
  once : ∀ front earlier between later back,
    results = front ++ earlier :: (between ++ later :: back) → earlier.status = .downloaded →
    later.path = earlier.path → later.status = .present
  quiet : ∀ front result back, results = front ++ result :: back → result.status = .present →
    ∃ start, Row host maxAttempts workspace world front start ∧
      (fetchLibrary maxAttempts workspace result.dependency).eval host start = (.ok result, start) ∧
      Row host maxAttempts workspace start back after

/-- **Libraries are fetched once.** Whatever the network answers and whatever the paths of the
libraries are, if fetching them comes to results. -/
theorem fetchLibraries_prefetched {dependencies : List Dependency} {results : List LibraryFetch}
    (hrooted : ".." ∉ world.files.here)
    (heval : (fetchLibraries maxAttempts workspace dependencies).eval host world =
      (.ok results, after)) :
    Prefetched host maxAttempts workspace dependencies world results after := by
  obtain ⟨hdependencies, hrow⟩ := row_of_eval_fetchLibraries_ok hrooted heval
  refine ⟨hdependencies, fun _ _ _ => hrow.hasFile hrooted, fun _ _ _ => hrow.brings hrooted, ?_, ?_⟩
  · rintro front earlier between later back rfl hstatus hpath
    obtain ⟨start, hfront, hrest⟩ := hrow.split
    have hstart : ".." ∉ start.files.here := hfront.here_eq hrooted ▸ hrooted
    obtain - | ⟨hfirst, hrest⟩ := hrest
    rename_i done
    have hfetched := of_eval_fetchLibrary_ok hstart hfirst
    have hdone : ".." ∉ done.files.here := hfetched.here_eq ▸ hstart
    obtain ⟨again, hbetween, hlast⟩ := hrest.split
    have hstands := hbetween.stands hdone (hfetched.stands_of_downloaded hstart hstatus)
    obtain - | ⟨hlater, -⟩ := hlast
    have hagain : ".." ∉ again.files.here := hbetween.here_eq hdone ▸ hdone
    exact (of_eval_fetchLibrary_ok hagain hlater).status_of_stands hstands hpath
      (hfetched.path_ne_librariesDirectory hstart hstatus)
  · rintro front result back rfl hstatus
    obtain ⟨start, hfront, hrest⟩ := hrow.split
    have hstart : ".." ∉ start.files.here := hfront.here_eq hrooted ▸ hrooted
    obtain - | ⟨hfirst, hback⟩ := hrest
    obtain rfl := (of_eval_fetchLibrary_ok hstart hfirst).present_eq hstatus
    exact ⟨_, hfront, hfirst, hback⟩

/-- Every address has a document of one byte. -/
def plainService : Host :=
  { Host.idle with network := fun _ _ => .response 200 none [7] none }

/-- Two libraries that share a place. -/
def sharedPlace : List Dependency :=
  [⟨"first", "http://l/first.jar", "g/a.jar"⟩, ⟨"second", "http://l/second.jar", "g/b/../a.jar"⟩]

theorem fetchLibraries_prefetched_shared : ∃ results after,
    (fetchLibraries 1 ⟨⟨"", ["ws"]⟩⟩ sharedPlace).eval plainService { files := .bare } =
      (.ok results, after) ∧
    results.map LibraryFetch.status = [.downloaded, .present] ∧
    Prefetched plainService 1 ⟨⟨"", ["ws"]⟩⟩ sharedPlace { files := .bare } results after := by
  have heval : (fetchLibraries 1 ⟨⟨"", ["ws"]⟩⟩ sharedPlace).eval plainService { files := .bare } =
      (.ok [⟨⟨"first", "http://l/first.jar", "g/a.jar"⟩,
          ⟨"/", ["work", "ws", "libraries", "g", "a.jar"]⟩, .downloaded, none⟩,
        ⟨⟨"second", "http://l/second.jar", "g/b/../a.jar"⟩,
          ⟨"/", ["work", "ws", "libraries", "g", "a.jar"]⟩, .present, none⟩], _) :=
    Action.eq_of_value (by decide +kernel)
  exact ⟨_, _, heval, rfl, fetchLibraries_prefetched (by decide) heval⟩

end Release

end JarRefinery
