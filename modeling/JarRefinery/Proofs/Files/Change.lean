import JarRefinery.Proofs.Files.Lookup
import Mathlib.Data.Set.Insert

/-!
# What changes in a tree

A footprint bounds what may become of the places of a tree: where directories may be made, where
files may be written, where files may be removed. Directories are never removed, and where the
current directory is does not change. Changes follow one another, so the footprint of a whole
operation is found from those of its parts.
-/

namespace JarRefinery

structure Footprint where
  made : Set Location := ∅
  written : Set Location := ∅
  removed : Set Location := ∅

namespace Footprint

instance : LE Footprint :=
  ⟨fun small large => small.made ⊆ large.made ∧ small.written ⊆ large.written ∧
    small.removed ⊆ large.removed⟩

instance : Union Footprint :=
  ⟨fun left right => ⟨left.made ∪ right.made, left.written ∪ right.written,
    left.removed ∪ right.removed⟩⟩

/-- The places at which anything may happen. -/
def places (footprint : Footprint) : Set Location :=
  footprint.made ∪ footprint.written ∪ footprint.removed

end Footprint

/-- The tree changed from `before` to `after` within the footprint. -/
structure Change (footprint : Footprint) (before after : FileTree) : Prop where
  here : after.here = before.here
  directory : ∀ location, before.node? location = some .directory →
    after.node? location = some .directory
  file : ∀ location contents mode, location ∉ footprint.removed →
    before.node? location = some (.file contents mode) →
    ∃ contents mode, after.node? location = some (.file contents mode)
  notMade : ∀ location, location ∉ footprint.made →
    after.node? location = some .directory → before.node? location = some .directory
  notWritten : ∀ location contents mode, location ∉ footprint.written →
    after.node? location = some (.file contents mode) →
    before.node? location = some (.file contents mode)

namespace Change

variable {footprint larger : Footprint} {before middle after : FileTree}

theorem refl (footprint : Footprint) (tree : FileTree) : Change footprint tree tree where
  here := rfl
  directory := fun _ hnode => hnode
  file := fun _ contents mode _ hnode => ⟨contents, mode, hnode⟩
  notMade := fun _ _ hnode => hnode
  notWritten := fun _ _ _ _ hnode => hnode

theorem trans (hfirst : Change footprint before middle) (hsecond : Change footprint middle after) :
    Change footprint before after where
  here := hsecond.here.trans hfirst.here
  directory := fun location hnode => hsecond.directory location (hfirst.directory location hnode)
  file := by
    intro location contents mode hkept hnode
    obtain ⟨contents', mode', hmiddle⟩ := hfirst.file location contents mode hkept hnode
    exact hsecond.file location contents' mode' hkept hmiddle
  notMade := fun location hout hnode =>
    hfirst.notMade location hout (hsecond.notMade location hout hnode)
  notWritten := fun location contents mode hout hnode =>
    hfirst.notWritten location contents mode hout
      (hsecond.notWritten location contents mode hout hnode)

theorem mono (hle : footprint ≤ larger) (hchange : Change footprint before after) :
    Change larger before after where
  here := hchange.here
  directory := hchange.directory
  file := fun location contents mode hkept hnode =>
    hchange.file location contents mode (fun hmem => hkept (hle.2.2 hmem)) hnode
  notMade := fun location hout hnode =>
    hchange.notMade location (fun hmem => hout (hle.1 hmem)) hnode
  notWritten := fun location contents mode hout hnode =>
    hchange.notWritten location contents mode (fun hmem => hout (hle.2.1 hmem)) hnode

/-- **Frame.** What is not in the footprint stays as it is. -/
theorem node?_eq (hchange : Change footprint before after) {location : Location}
    (hout : location ∉ footprint.places) : after.node? location = before.node? location := by
  simp only [Footprint.places, Set.mem_union, not_or] at hout
  obtain ⟨⟨hmade, hwritten⟩, hremoved⟩ := hout
  rcases hbefore : before.node? location with _ | ⟨_ | ⟨contents, mode⟩⟩
  · rcases hafter : after.node? location with _ | ⟨_ | ⟨contents, mode⟩⟩
    · rfl
    · simp [hchange.notMade location hmade hafter] at hbefore
    · simp [hchange.notWritten location contents mode hwritten hafter] at hbefore
  · exact hchange.directory location hbefore
  · obtain ⟨contents', mode', hafter⟩ := hchange.file location contents mode hremoved hbefore
    rw [hafter, ← hbefore]
    exact (hchange.notWritten location contents' mode' hwritten hafter).symm

theorem reachable (hchange : Change footprint before after) {path : Path}
    (hreach : before.Reachable path) : after.Reachable path :=
  hreach.mono hchange.here hchange.directory

/-- A place at which nothing was made or written has no node if it had none. -/
theorem node?_none (hchange : Change footprint before after) {location : Location}
    (hmade : location ∉ footprint.made) (hwritten : location ∉ footprint.written)
    (hnone : before.node? location = none) : after.node? location = none := by
  rcases hafter : after.node? location with _ | ⟨_ | ⟨contents, mode⟩⟩
  · rfl
  · simp [hchange.notMade location hmade hafter] at hnone
  · simp [hchange.notWritten location contents mode hwritten hafter] at hnone

/-- Where nothing was written or removed, only a directory may be new. -/
theorem same_or_made (hchange : Change footprint before after) {location : Location}
    (hwritten : location ∉ footprint.written) (hremoved : location ∉ footprint.removed) :
    after.node? location = before.node? location ∨
      location ∈ footprint.made ∧ before.node? location = none ∧
        after.node? location = some .directory := by
  by_cases hmade : location ∈ footprint.made
  · rcases hbefore : before.node? location with _ | ⟨_ | ⟨contents, mode⟩⟩
    · rcases hafter : after.node? location with _ | ⟨_ | ⟨contents, mode⟩⟩
      · exact .inl rfl
      · exact .inr ⟨hmade, rfl, rfl⟩
      · simp [hchange.notWritten location contents mode hwritten hafter] at hbefore
    · exact .inl (hchange.directory location hbefore)
    · obtain ⟨contents', mode', hafter⟩ := hchange.file location contents mode hremoved hbefore
      have hsame := hchange.notWritten location contents' mode' hwritten hafter
      exact .inl (by rw [hafter, ← hsame, hbefore])
  · exact .inl (hchange.node?_eq (by simp [Footprint.places, hmade, hwritten, hremoved]))

/-- A file that was neither written nor removed holds what it held. -/
theorem node?_file (hchange : Change footprint before after) {location : Location}
    (hwritten : location ∉ footprint.written) (hremoved : location ∉ footprint.removed)
    {contents : Bytes} {mode : Nat} (hnode : before.node? location = some (.file contents mode)) :
    after.node? location = some (.file contents mode) := by
  rcases hchange.same_or_made hwritten hremoved with hsame | ⟨-, hnone, -⟩
  · exact hsame.trans hnode
  · simp [hnode] at hnone

/-- What was erased in the end might as well not have been written. -/
theorem forget {location : Location} (hnone : before.node? location = none)
    (hgone : after.node? location = none)
    (hchange : Change
      { footprint with
        written := insert location footprint.written
        removed := insert location footprint.removed } before after) :
    Change footprint before after where
  here := hchange.here
  directory := hchange.directory
  file := by
    intro place contents mode hkept hnode
    refine hchange.file place contents mode ?_ hnode
    rintro (rfl | hmem)
    · simp [hnone] at hnode
    · exact hkept hmem
  notMade := hchange.notMade
  notWritten := by
    intro place contents mode hout hnode
    refine hchange.notWritten place contents mode ?_ hnode
    rintro (rfl | hmem)
    · simp [hgone] at hnode
    · exact hout hmem

/-! ### Single nodes -/

theorem putFile {tree : FileTree} {location : Location} {contents : Bytes} {mode : Nat}
    (hnode : tree.node? location ≠ some .directory) :
    Change { written := {location} } tree (tree.put location (.file contents mode)) where
  here := rfl
  directory := by
    intro place hplace
    have hne : place ≠ location := fun heq => hnode (heq ▸ hplace)
    simp [FileTree.node?_put, hne, hplace]
  file := by
    intro place contents' mode' _ hplace
    rw [FileTree.node?_put]
    split
    · rename_i hroot
      simp [hroot] at hplace
    · split
      · exact ⟨contents, mode, rfl⟩
      · exact ⟨contents', mode', hplace⟩
  notMade := by
    intro place _ hplace
    rw [FileTree.node?_put] at hplace
    split at hplace
    · rename_i hroot
      simp [hroot]
    · split at hplace
      · simp at hplace
      · exact hplace
  notWritten := by
    intro place contents' mode' hout hplace
    have hne : place ≠ location := by simpa using hout
    rw [FileTree.node?_put] at hplace
    split at hplace
    · simp at hplace
    · exact hplace

theorem putDirectory {tree : FileTree} {location : Location} (hnode : tree.node? location = none) :
    Change { made := {location} } tree (tree.put location .directory) where
  here := rfl
  directory := by
    intro place hplace
    rw [FileTree.node?_put]
    split
    · rfl
    · split
      · rfl
      · exact hplace
  file := by
    intro place contents mode _ hplace
    have hne : place ≠ location := by
      rintro rfl
      simp [hnode] at hplace
    have hroot : place ≠ [] := by
      rintro rfl
      simp at hplace
    exact ⟨contents, mode, by simp [FileTree.node?_put, hne, hroot, hplace]⟩
  notMade := by
    intro place hout hplace
    have hne : place ≠ location := by simpa using hout
    rw [FileTree.node?_put] at hplace
    split at hplace
    · rename_i hroot
      simp [hroot]
    · exact hplace
  notWritten := by
    intro place contents mode _ hplace
    rw [FileTree.node?_put] at hplace
    split at hplace
    · simp at hplace
    · split at hplace
      · simp at hplace
      · exact hplace

theorem erase {tree : FileTree} {location : Location}
    (hnode : tree.node? location ≠ some .directory) :
    Change { removed := {location} } tree (tree.erase location) where
  here := rfl
  directory := by
    intro place hplace
    have hne : place ≠ location := fun heq => hnode (heq ▸ hplace)
    simp [FileTree.node?_erase, hne, hplace]
  file := by
    intro place contents mode hkept hplace
    have hne : place ≠ location := by simpa using hkept
    have hroot : place ≠ [] := by
      rintro rfl
      simp at hplace
    exact ⟨contents, mode, by simp [FileTree.node?_erase, hne, hroot, hplace]⟩
  notMade := by
    intro place _ hplace
    rw [FileTree.node?_erase] at hplace
    split at hplace
    · rename_i hroot
      simp [hroot]
    · split at hplace
      · simp at hplace
      · exact hplace
  notWritten := by
    intro place contents mode _ hplace
    rw [FileTree.node?_erase] at hplace
    split at hplace
    · simp at hplace
    · split at hplace
      · simp at hplace
      · exact hplace

end Change

end JarRefinery
