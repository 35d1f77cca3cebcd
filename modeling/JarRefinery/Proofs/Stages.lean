import Mathlib.Data.List.Forall2
import JarRefinery.Proofs.Course
import JarRefinery.Proofs.Mappings

/-!
# What a stage leads to

A stage reads what was handed on to it, does its work and hands on what it made. A condition on the
world is followed through it part by part: what keeps to a discipline leaves it alone, and only
handing on and calling a tool change it.
-/

namespace JarRefinery

open Action (any)

namespace Stage

variable {d : Discipline}

/-- Tells of a library that could not be had. -/
def announceMissing (run : Run) (library : LibraryFetch) : Action Unit :=
  match library.warning with
  | none => pure ()
  | some warning => run.emit "fetch" "fetch.library.failed"
      [("library", .text library.dependency.name), ("message", .text warning)]

theorem announceLibrary_eq (run : Run) (library : LibraryFetch) :
    announceLibrary run library =
      if library.status = .present then
        run.emit "fetch" "fetch.library.skip" [("library", .text library.dependency.name)] >>=
          fun _ => announceMissing run library
      else announceMissing run library := by
  unfold announceLibrary announceMissing
  rfl

theorem announceLibrary_keeps {run : Run}
    (hevents : d.AllowsFiles { written := {run.events.path.normal d.here} })
    (library : LibraryFetch) : (announceLibrary run library).Keeps d any := by
  have hmissing : (announceMissing run library).Keeps d any := by
    unfold announceMissing
    split
    · exact .pure trivial
    · exact Run.emit_keeps hevents _ _ _
  rw [announceLibrary_eq]
  split
  · exact (Run.emit_keeps hevents _ _ _).andThen fun _ => hmissing
  · exact hmissing

/-- The same pass with a document that has its header. -/
structure Headed (set other : MappingSet) : Prop extends SamePass set other where
  path : other.path = if set.needsHeader then MappingProvider.headedPath set.path else set.path

theorem normalized_keeps {set : MappingSet}
    (hheaded : set.needsHeader = true → d.Produces (MappingProvider.headedPath set.path)) :
    (normalized set).Keeps d (Headed set) := by
  unfold normalized
  split
  · rename_i hneeded
    exact ((hheaded hneeded).normalize _ _ _).andThen fun _ =>
      .pure ⟨⟨rfl, rfl, rfl⟩, (if_pos hneeded).symm⟩
  · rename_i hnot
    exact .pure ⟨⟨rfl, rfl, rfl⟩, (if_neg hnot).symm⟩

theorem countFiles_keeps (directory : Path) : (countFiles directory).Keeps d any := by
  unfold countFiles
  refine (locating_keeps directory).andThen fun location => ?_
  exact .andThen (.get fun _ _ _ => trivial) fun world => .pure trivial

section Providing

variable {run : Run} {versions : String → Prop}
  (hdocuments : ∀ path, run.provider.Documents run.workspace run.side versions path →
    d.Produces path)
  (hevents : d.AllowsFiles { written := {run.events.path.normal d.here} })
  (hgives : ∀ metaUrl mavenUrl, run.provider = .chained metaUrl mavenUrl →
    MappingProvider.Chained.Gives d versions ⟨metaUrl, mavenUrl, run.maxAttempts⟩)
  (hfixed : ∀ word sets, run.provider ≠ .fixed word sets)
  (hstripped : ∀ world, d.inv world → ∀ artifact, world.state.stripped = some artifact →
    artifact.space = officialNamespace)

include hdocuments hfixed

theorem normalizedSets_headed {sets : List MappingSet}
    (hprovides : run.provider.Provides run.workspace run.side versions sets) :
    (sets.mapM normalized).Keeps d (List.Forall₂ Headed sets) := by
  refine .mapM fun set hset => normalized_keeps fun hheader => hdocuments _ ?_
  generalize run.provider = provider at hprovides hfixed
  cases provider with
  | direct =>
    obtain ⟨only, rfl, hplain⟩ := hprovides
    obtain rfl : set = only := by simpa using hset
    simp [hplain.header] at hheader
  | chained metaUrl mavenUrl =>
    obtain ⟨first, _, -, hplain, rfl | ⟨second, version, rfl, hversion, hreadable⟩⟩ := hprovides
    · obtain rfl : set = first := by simpa using hset
      simp [hplain.header] at hheader
    · obtain rfl | rfl : set = first ∨ set = second := by simpa using hset
      · simp [hplain.header] at hheader
      · exact ⟨version, hversion, hreadable.document ▸ .headed⟩
  | fixed word sets => exact absurd rfl (hfixed word sets)

/-- The sets that a provider came to are still its chain once each has its header. -/
theorem normalizedSets_keeps {sets : List MappingSet}
    (hprovides : run.provider.Provides run.workspace run.side versions sets)
    (hchain : run.provider.Chain sets) : (sets.mapM normalized).Keeps d run.provider.Chain :=
  (normalizedSets_headed hdocuments hfixed hprovides).weaken fun _ hheaded =>
    hchain.samePass (hheaded.imp fun _ _ hset => hset.toSamePass)

include hevents hgives hstripped

theorem providedChain_keeps :
    (providedChain run officialNamespace).Keeps d fun sets =>
      run.provider.Provides run.workspace run.side versions sets ∧ run.provider.Chain sets := by
  unfold providedChain
  refine (MappingProvider.provide_keeps hdocuments hevents hgives hfixed hstripped).bind
    fun sets hprovides => ?_
  have hchecked : (Action.ofResult (MappingSet.checkChain sets officialNamespace)).Keeps d
      fun _ => MappingSet.checkChain sets officialNamespace = .ok () :=
    .ofResult (fun fault hfault => d.ordinary fault
      (MappingSet.checkChain_ordinary sets officialNamespace fault hfault)) fun _ hvalue => hvalue
  exact (hchecked.explain fun _ => rfl).bind fun _ hchain =>
    .pure ⟨hprovides, hprovides.chain hfixed hchain⟩

/-- The mapping sets of a run, each with its header. -/
theorem normalizedChain_keeps :
    (do let sets ← providedChain run officialNamespace
        sets.mapM normalized : Action (List MappingSet)).Keeps d run.provider.Chain :=
  (providedChain_keeps hdocuments hevents hgives hfixed hstripped).bind
    fun _ hsets => normalizedSets_keeps hdocuments hfixed hsets.1 hsets.2

end Providing

end Stage

end JarRefinery
