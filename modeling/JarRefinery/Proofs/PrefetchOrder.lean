import JarRefinery.Proofs.LibraryFates
import JarRefinery.Proofs.Prefetch

/-!
# Libraries in any order

Fetching a library adds what it leaves to what others have left, and ends as it would have ended without
them. So of libraries whose places are apart the order in which they are fetched makes no difference.
-/

namespace JarRefinery.Release

open FileTree (hasNull)
open Http (Obtains Lands)

variable {host : Host} {maxAttempts : Int} {workspace : Workspace} {files : FileTree}
  {dependency : Dependency} {done : List Dependency}

/-! ### One more library -/

section Step

variable {world after : World} (hsteady : host.Steady)
  (hreached : Reached host maxAttempts workspace files done world.files)
  (hseparate : ∀ other ∈ done, Separate workspace files.here dependency other)
  (hspare : KeepsSpare workspace files done dependency)

include hsteady hreached hseparate hspare

/-- A download that lands adds what the library leaves, and brings a file exactly if there is one to
bring. -/
theorem Reached.lands {directory : Location} {name : String}
    (hmissing : Missing workspace files dependency directory name) {result : Except Fault Nat}
    (hlands : Lands host maxAttempts dependency.url world directory name (result, after)) :
    Reached host maxAttempts workspace files (dependency :: done) after.files ∧
      ((∃ length, result = .ok length) ↔
        ∃ body, Obtains host maxAttempts dependency.url [] files directory name body) := by
  have honto : directory <+: directory ++ [name] := List.prefix_append _ _
  have hmakes : ∀ location, world.files.Makes directory location ↔ files.Makes directory location :=
    fun _ => hreached.makes_iff hseparate hmissing.place honto
  have hobtains : ∀ body, Obtains host maxAttempts dependency.url world.requests world.files directory
      name body ↔ Obtains host maxAttempts dependency.url [] files directory name body :=
    fun _ => hreached.obtains_iff hseparate hsteady hspare hmissing.place
  have hnone : world.files.node? (directory ++ [name]) = none :=
    (hreached.node?_place hseparate hmissing.place).trans hmissing.free
  have hne : ∀ location, files.Makes directory location → location ≠ directory ++ [name] :=
    fun location hmade heq => by simpa [heq] using hmade.onTheWay.length_le
  -- it leaves directories wherever it can make them, so what it does not leave it did not make
  have hunmade : ∀ location, (∀ node, ¬Leaves host maxAttempts workspace files dependency location
      node) → ¬world.files.Makes directory location :=
    fun location hleft hmade => hleft _ (.directory hmissing ((hmakes location).mp hmade))
  cases hlands with
  | @obtained length body ready _ hbody hmade hhere hnode hsame =>
    have hbrings := (hobtains body).mp hbody
    refine ⟨hreached.extend hseparate hhere ?_ ?_ ?_, iff_of_true ⟨length, rfl⟩ ⟨body, hbrings⟩⟩
    · refine (hmade.grounded hreached.grounded).of_new (hmade.made _ hbody.makes) ?_ hsame
      rw [hmade.same _ fun hmakes' => hne _ ((hmakes _).mp hmakes') rfl, hnone]
    · intro location node hleaves
      rcases hleaves.of_missing hmissing with ⟨rfl, hmakes'⟩ | ⟨rfl, body', rfl, hbody'⟩
      · rw [hsame _ (hne _ hmakes')]
        exact hmade.made _ ((hmakes _).mpr hmakes')
      · rw [hnode, hbrings.unique hbody']
    · intro location hleft
      rw [hsame location, hmade.same location (hunmade location hleft)]
      rintro rfl
      exact hleft _ (.file hmissing hbrings)
  | @failed fault ready _ hnot hmade hhere hsame =>
    have hnever : ∀ body, ¬Obtains host maxAttempts dependency.url [] files directory name body :=
      fun body hbody => hnot body ((hobtains body).mpr hbody)
    refine ⟨hreached.extend hseparate hhere ?_ ?_ ?_,
      iff_of_false (fun ⟨_, heq⟩ => nomatch heq) fun ⟨body, hbody⟩ => hnever body hbody⟩
    · intro location node hnode
      rw [hsame] at hnode ⊢
      exact hmade.grounded hreached.grounded _ _ hnode
    · intro location node hleaves
      rcases hleaves.of_missing hmissing with ⟨rfl, hmakes'⟩ | ⟨-, body, -, hbody⟩
      · rw [hsame]
        exact hmade.made _ ((hmakes _).mpr hmakes')
      · exact absurd hbody (hnever body)
    · intro location hleft
      rw [hsame, hmade.same location (hunmade location hleft)]

variable (hrooted : ".." ∉ files.here) (hhere : hasNull (.ofLocation files.here) = false)

include hrooted hhere

/-- Where its place is known, a library is there already, or it lands. -/
theorem Reached.fetchLibraryTo {place : Location} {result : LibraryFetch}
    (hplace : workspace.place? files.here dependency.path = some place)
    (heval : (fetchLibraryTo maxAttempts dependency (.ofLocation place)).eval host world =
      (.ok result, after)) :
    Fate host maxAttempts workspace files dependency result.status result.path ∧
      Reached host maxAttempts workspace files (dependency :: done) after.files := by
  obtain ⟨hne, hdots, hnull⟩ := Workspace.place?_spec hhere hrooted hplace
  have hnode : world.files.node? place = files.node? place := hreached.node?_place hseparate hplace
  unfold Release.fetchLibraryTo at heval
  obtain ⟨found, looked, hlook, heval⟩ := Action.of_eval_bind_ok heval
  obtain ⟨tree, hexists, rfl⟩ := Action.of_eval_onFiles_ok hlook
  have hlooked := world.files.doesExist_cases (.ofLocation place)
  rw [hexists, Path.normal_ofLocation hdots] at hlooked
  rcases hlooked with ⟨hasked, looked, heq, hfound⟩ | ⟨-, heq⟩
  swap
  · cases heq
  obtain ⟨rfl, rfl⟩ : found = looked ∧ tree = world.files := by simpa using heq
  cases found with
  | true =>
    obtain ⟨rfl, rfl⟩ : _ = result ∧ world = after := by simpa using heval
    have hthere : files.node? place ≠ none := hnode ▸ (hfound.mp rfl).2
    refine ⟨.present hplace hthere, hreached.idle hseparate fun directory name hmissing => ?_⟩
    obtain rfl := Option.some.inj (hplace.symm.trans hmissing.place)
    exact hthere hmissing.free
  | false =>
    have hnone : world.files.node? place = none := by
      by_contra hthere
      obtain ⟨node, hnode⟩ := Option.ne_none_iff_exists'.mp hthere
      have hreach := (hreached.grounded.leads hnode).reachable hdots hnull hasked
      exact absurd (hfound.mpr ⟨hreach, hthere⟩) (by decide)
    obtain rfl | ⟨directory, name, rfl⟩ := List.eq_nil_or_concat' place
    · exact absurd rfl hne
    have hmissing : Missing workspace files dependency directory name := ⟨hplace, hnode ▸ hnone⟩
    have hlands := @Http.download_lands host maxAttempts dependency.url directory name world
      (hreached.here ▸ hrooted) hdots hnull hnone hreached.grounded
    change (Action.handle _ _ _).eval host world = _ at heval
    rw [Action.eval_handle, Action.eval_bind] at heval
    rcases hload : (Http.download maxAttempts dependency.url (.ofLocation (directory ++ [name]))).eval
      host world with ⟨fault | length, loaded⟩ <;> rw [hload] at hlands heval
    · obtain ⟨hadded, hended⟩ := hreached.lands hsteady hseparate hspare hmissing hlands
      cases hanswers : isDownloadFault fault <;> simp only [hanswers] at heval
      · simp at heval
      · obtain ⟨rfl, rfl⟩ : _ = result ∧ loaded = after := by simpa using heval
        refine ⟨.failed hmissing fun body hbody => ?_, hadded⟩
        obtain ⟨length, hlength⟩ := hended.mpr ⟨body, hbody⟩
        cases hlength
    · obtain ⟨hadded, hended⟩ := hreached.lands hsteady hseparate hspare hmissing hlands
      obtain ⟨rfl, rfl⟩ : _ = result ∧ loaded = after := by simpa using heval
      obtain ⟨body, hbody⟩ := hended.mp ⟨length, rfl⟩
      exact ⟨.downloaded hmissing hbody, hadded⟩

/-- **Step.** Where others are left already, a library ends as it would have ended without them, and
what it leaves is added to theirs. -/
theorem Reached.fetchLibrary {result : LibraryFetch}
    (heval : (fetchLibrary maxAttempts workspace dependency).eval host world = (.ok result, after)) :
    Fate host maxAttempts workspace files dependency result.status result.path ∧
      Reached host maxAttempts workspace files (dependency :: done) after.files := by
  unfold Release.fetchLibrary at heval
  obtain ⟨place, placed, hplaced, heval⟩ := Action.of_eval_bind_ok heval
  obtain ⟨hplaced, -⟩ := Action.of_eval_caught_ok hplaced
  rcases hplace : workspace.place? files.here dependency.path with _ | place
  · obtain ⟨fault, hrefused, -⟩ := @Workspace.eval_library_refused host workspace dependency.path world
      (hreached.here ▸ hplace)
    obtain ⟨rfl, rfl⟩ := Prod.mk.inj (hrefused.symm.trans hplaced)
    obtain ⟨rfl, rfl⟩ : _ = result ∧ world = after := by simpa using heval
    refine ⟨.refused hplace, hreached.idle hseparate fun directory name hmissing => ?_⟩
    have hsome := hmissing.place
    simp [hplace] at hsome
  · have htaken := @Workspace.eval_library_place host workspace place dependency.path world
      (hreached.here ▸ hplace)
    obtain ⟨rfl, rfl⟩ := Prod.mk.inj (htaken.symm.trans hplaced)
    exact hreached.fetchLibraryTo hsteady hseparate hspare hrooted hhere hplace heval

end Step

/-! ### All of them -/

/-- **Run.** Fetched one after the other, libraries end as each would have ended alone, and leave what
each would have left. -/
theorem Row.reached {world after : World} {results : List LibraryFetch} (hsteady : host.Steady)
    (hrooted : ".." ∉ files.here) (hhere : hasNull (.ofLocation files.here) = false)
    (hrow : Row host maxAttempts workspace world results after)
    (hreached : Reached host maxAttempts workspace files done world.files)
    (hseparate : (results.map LibraryFetch.dependency ++ done).Pairwise (Separate workspace files.here))
    (hspare : ∀ dependency ∈ results.map LibraryFetch.dependency,
      KeepsSpare workspace files (results.map LibraryFetch.dependency ++ done) dependency) :
    (∀ result ∈ results,
      Fate host maxAttempts workspace files result.dependency result.status result.path) ∧
    Reached host maxAttempts workspace files
      ((results.map LibraryFetch.dependency).reverse ++ done) after.files := by
  induction hrow generalizing done with
  | nil => exact ⟨by simp, hreached⟩
  | @cons world middle after result rest hfirst hrest ih =>
    rw [List.map_cons, List.cons_append] at hseparate hspare
    obtain ⟨hapart, hothers⟩ := List.pairwise_cons.mp hseparate
    have hmoved : (rest.map LibraryFetch.dependency ++ result.dependency :: done).Perm
        (result.dependency :: (rest.map LibraryFetch.dependency ++ done)) := List.perm_middle
    obtain ⟨hfate, hadded⟩ := hreached.fetchLibrary hsteady
      (fun other hother => hapart other (List.mem_append_right _ hother))
      ((hspare _ List.mem_cons_self).of_subset
        (List.subset_cons_of_subset _ (List.subset_append_right _ _)))
      hrooted hhere hfirst
    obtain ⟨hfates, hall⟩ := ih hadded
      ((hmoved.pairwise_iff fun hpair => hpair.symm).mpr hseparate)
      fun dependency hdependency => (hspare dependency (List.mem_cons_of_mem _ hdependency)).of_subset
        hmoved.subset
    refine ⟨fun other hother => ?_, by simpa using hall⟩
    rcases List.mem_cons.mp hother with rfl | hother
    · exact hfate
    · exact hfates other hother

/-- **Order of libraries.** Libraries whose places are apart may be fetched in any order. -/
theorem fetchLibraries_perm {world after after' : World} {dependencies others : List Dependency}
    {results results' : List LibraryFetch} (hsteady : host.Steady) (hgrounded : world.files.Grounded)
    (hrooted : ".." ∉ world.files.here) (hhere : hasNull (.ofLocation world.files.here) = false)
    (hseparate : dependencies.Pairwise (Separate workspace world.files.here))
    (hspare : ∀ dependency ∈ dependencies, KeepsSpare workspace world.files dependencies dependency)
    (hperm : others.Perm dependencies)
    (heval : (fetchLibraries maxAttempts workspace dependencies).eval host world = (.ok results, after))
    (heval' : (fetchLibraries maxAttempts workspace others).eval host world = (.ok results', after')) :
    results.map LibraryFetch.dependency = dependencies ∧
    results'.map LibraryFetch.dependency = others ∧
    (∀ result ∈ results, ∀ result' ∈ results', result'.dependency = result.dependency →
      result'.status = result.status ∧ result'.path = result.path) ∧
    ∀ location, after'.files.node? location = after.files.node? location := by
  have hstart := Reached.start host maxAttempts workspace hgrounded
  obtain ⟨hdependencies, hrow⟩ := row_of_eval_fetchLibraries_ok hrooted heval
  obtain ⟨hdependencies', hrow'⟩ := row_of_eval_fetchLibraries_ok hrooted heval'
  obtain ⟨hfates, hreached⟩ := hrow.reached hsteady hrooted hhere hstart
    (by simpa [hdependencies] using hseparate) (by simpa [hdependencies] using hspare)
  obtain ⟨hfates', hreached'⟩ := hrow'.reached hsteady hrooted hhere hstart
    (by simpa [hdependencies'] using (hperm.pairwise_iff fun hpair => hpair.symm).mpr hseparate)
    (by simpa [hdependencies'] using fun dependency hdependency =>
      (hspare dependency (hperm.subset hdependency)).of_subset hperm.subset)
  refine ⟨hdependencies, hdependencies', fun result hresult result' hresult' heq => ?_,
    hreached.node?_eq hreached' ?_⟩
  · exact (heq ▸ hfates' result' hresult').unique (hfates result hresult)
  · simp [hdependencies, hdependencies', hperm.mem_iff]

/-- Every address has a document of one byte, except for one that has none. -/
def patchyService : Host :=
  { Host.idle with network := fun _ address =>
      if address = "http://l/gone.jar" then .response 404 none [] none
      else .response 200 none [7] none }

/-- A library that is gone, one beside it, and one that is out of place. -/
def neighbours : List Dependency :=
  [⟨"gone", "http://l/gone.jar", "g/v/gone.jar"⟩, ⟨"plain", "http://l/plain.jar", "g/v/plain.jar"⟩,
    ⟨"outside", "http://l/outside.jar", "../outside.jar"⟩]

/-- How they end, in whatever order. -/
def neighbourFetches : List LibraryFetch :=
  [⟨⟨"gone", "http://l/gone.jar", "g/v/gone.jar"⟩,
      ⟨"/", ["work", "ws", "libraries", "g", "v", "gone.jar"]⟩, .failed,
      some "Skipped library gone: HTTP 404 for http://l/gone.jar"⟩,
    ⟨⟨"plain", "http://l/plain.jar", "g/v/plain.jar"⟩,
      ⟨"/", ["work", "ws", "libraries", "g", "v", "plain.jar"]⟩, .downloaded, none⟩,
    ⟨⟨"outside", "http://l/outside.jar", "../outside.jar"⟩, ⟨"", ["ws", "libraries"]⟩, .failed,
      some "outside: Library path escapes libraries dir: ../outside.jar"⟩]

theorem fetchLibraries_perm_neighbours : ∃ after after',
    (fetchLibraries 1 ⟨⟨"", ["ws"]⟩⟩ neighbours).eval patchyService { files := .bare } =
      (.ok neighbourFetches, after) ∧
    (fetchLibraries 1 ⟨⟨"", ["ws"]⟩⟩ neighbours.reverse).eval patchyService { files := .bare } =
      (.ok neighbourFetches.reverse, after') ∧
    ∀ location, after'.files.node? location = after.files.node? location := by
  have heval : (fetchLibraries 1 ⟨⟨"", ["ws"]⟩⟩ neighbours).eval patchyService { files := .bare } =
      (.ok neighbourFetches, _) :=
    Action.eq_of_value (by decide +kernel)
  have heval' : (fetchLibraries 1 ⟨⟨"", ["ws"]⟩⟩ neighbours.reverse).eval patchyService
      { files := .bare } = (.ok neighbourFetches.reverse, _) :=
    Action.eq_of_value (by decide +kernel)
  refine ⟨_, _, heval, heval', ?_⟩
  have hgrounded : FileTree.bare.Grounded := FileTree.grounded_of_nodes (by decide)
  have hspare : ∀ dependency ∈ neighbours, KeepsSpare ⟨⟨"", ["ws"]⟩⟩ .bare neighbours dependency :=
    fun dependency _ => keepsSpare_of_length_lt dependency (by decide)
  obtain ⟨-, -, -, hfiles⟩ := fetchLibraries_perm (fun _ _ => rfl) hgrounded (by decide)
    (by decide +kernel) (by decide +kernel) hspare (List.reverse_perm neighbours) heval heval'
  exact hfiles

end JarRefinery.Release
