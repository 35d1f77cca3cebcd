import JarRefinery.Proofs.Allowances
import JarRefinery.Proofs.Contents
import JarRefinery.Proofs.Files.Sparing
import JarRefinery.Proofs.StageCalls

/-!
# What a part of a run leaves alone

All files stay but those at the places that a part of a run touches. A file that is produced is
replaced at its own place, whatever stands beside it, and a library only where there is nothing yet.
-/

namespace JarRefinery

open Action (any)
open FileTree (Frame Spares HasFile Named)

/-- Files change only at the places touched, but for those below `shared` to which no directories
lead. `condition` holds of what is handed on. -/
def Discipline.framing (host : Host) (here shared : Location) (condition : RunState → Prop)
    (touched : Set Location) : Discipline where
  host := host
  here := here
  inv := fun world => world.files.WellNamed ∧ condition world.state
  step := fun before after => Frame shared touched before.files after.files ∧
    (before.files.WellNamed → after.files.WellNamed) ∧ (condition before.state → condition after.state)
  faults := fun _ => True
  refl := fun world => ⟨.refl _ _ world.files, id, id⟩
  trans := fun hfirst hsecond => ⟨hfirst.1.trans hsecond.1,
    fun hwell => hsecond.2.1 (hfirst.2.1 hwell), fun hstate => hsecond.2.2 (hfirst.2.2 hstate)⟩
  keep := fun hstep hinv => ⟨hstep.2.1 hinv.1, hstep.2.2 hinv.2⟩
  ordinary := fun _ _ => trivial

variable {host : Host} {here shared : Location} {condition : RunState → Prop}
  {touched larger : Set Location}

namespace Discipline.framing

theorem allowsNetwork : (framing host here shared condition touched).AllowsNetwork where
  ask := fun world _ => ⟨.refl _ _ world.files, id, id⟩
  wait := fun world _ => ⟨.refl _ _ world.files, id, id⟩
  failure := fun _ _ _ _ => trivial
  broken := fun _ _ _ _ _ _ _ => trivial

theorem allowsLog : (framing host here shared condition touched).AllowsLog :=
  fun world _ => ⟨.refl _ _ world.files, id, id⟩

theorem allowsHand {change : RunState → RunState}
    (hchange : ∀ state, condition state → condition (change state)) :
    (framing host here shared condition touched).AllowsHand change :=
  fun world _ => ⟨.refl _ _ world.files, id, hchange world.state⟩

theorem allowsCall {call : ToolCall}
    (hspares : ∀ calls files, Spares touched files (host.tools calls call files).2)
    (hwell : ∀ calls files, files.WellNamed → (host.tools calls call files).2.WellNamed) :
    (framing host here shared condition touched).AllowsCall call :=
  fun world _ _ => ⟨Spares.frame (hspares world.calls world.files), hwell world.calls world.files, id⟩

theorem mono_step (hsubset : touched ⊆ larger) {before after : World}
    (hstep : (framing host here shared condition touched).step before after) :
    (framing host here shared condition larger).step before after :=
  ⟨hstep.1.mono hsubset, hstep.2⟩

variable (hhere : Named here)

include hhere

theorem allowsFiles {footprint : Footprint}
    (hnamed : ∀ location ∈ footprint.made ∪ footprint.written, Named location)
    (hwritten : footprint.written ⊆ touched) (hremoved : footprint.removed ⊆ touched) :
    (framing host here shared condition touched).AllowsFiles footprint :=
  fun _ _ _ _ _ hchange => ⟨((hchange hhere.noDots).spares hwritten hremoved).frame,
    (hchange hhere.noDots).wellNamed hnamed, id⟩

/-- Directories may be made wherever a path leads. -/
theorem allowsMade {path : Path} (hpath : path.IsWritten) :
    (framing host here shared condition touched).AllowsFiles { made := path.trail here } := by
  refine allowsFiles hhere ?_ (Set.empty_subset _) (Set.empty_subset _)
  rintro _ (hmem | hmem)
  · exact hpath.named_of_mem_trail hhere hmem
  · exact absurd hmem (Set.notMem_empty _)

theorem allowsWritten {path : Path} (hpath : path.IsWritten) (hmem : path.normal here ∈ touched) :
    (framing host here shared condition touched).AllowsFiles { written := {path.normal here} } := by
  refine allowsFiles hhere ?_ (Set.singleton_subset_iff.mpr hmem) (Set.empty_subset _)
  rintro _ (hmade | rfl)
  · exact absurd hmade (Set.notMem_empty _)
  · exact hpath.named_normal hhere

theorem allowsRemoved {path : Path} (hmem : path.normal here ∈ touched) :
    (framing host here shared condition touched).AllowsFiles { removed := {path.normal here} } :=
  allowsFiles hhere (by simp) (Set.empty_subset _) (Set.singleton_subset_iff.mpr hmem)

/-! ### Producers -/

/-- Where a file is replaced nothing else is touched. -/
theorem step_of_replaced {target : Path} {written : Set Location} {before after : World}
    (htarget : target.IsWritten)
    (hwritten : written ⊆ {target.normal here} ∩ touched)
    (hchange : Change { made := target.parent.trail here, written } before.files after.files)
    (hstate : after.state = before.state) :
    (framing host here shared condition touched).step before after := by
  refine ⟨(hchange.spares (hwritten.trans Set.inter_subset_right) (Set.empty_subset _)).frame,
    hchange.wellNamed ?_, fun hcondition => hstate ▸ hcondition⟩
  rintro _ (hmem | hmem)
  · exact htarget.parent.named_of_mem_trail hhere hmem
  · obtain rfl := (hwritten hmem).1
    exact htarget.named_normal hhere

theorem keeps_of_replaces {α : Type} {action : Action α} {target : Path} (htarget : target.IsWritten)
    (hmem : target.normal here ∈ touched) (hreplaces : Replaces host here target action)
    (hquiet : action.Keeps (.quiet host here condition) any) :
    action.Keeps (framing host here shared condition touched) any := by
  intro world hworld hinv
  obtain ⟨⟨-, hstate, -⟩, hafter, -⟩ := hquiet world hworld hinv.2
  have hreplaced := hreplaces world hworld
  change (action.eval host world).2.state = world.state at hstate
  change (action.eval host world).2.files.here = here at hafter
  refine ⟨?_, hafter, by split <;> trivial⟩
  change (framing host here shared condition touched).step world (action.eval host world).2
  rcases heval : action.eval host world with ⟨fault | value, after⟩ <;> rw [heval] at hreplaced hstate
  · exact step_of_replaced hhere htarget (Set.empty_subset _) hreplaced hstate
  · exact step_of_replaced hhere htarget (by simpa using hmem) hreplaced.1 hstate

end Discipline.framing

/-- The frame of a part of a run, in which libraries may be downloaded. -/
abbrev framed (host : Host) (here : Location) (run : Run) (touched : Set Location) : Discipline :=
  .framing host here (run.workspace.librariesDirectory.normal here) (Handed run) touched

namespace framed

variable {run : Run}

theorem hands : (framed host here run touched).Hands run where
  handed := fun _ hinv => hinv.2
  hand := fun _ hchange => Discipline.framing.allowsHand hchange

theorem produces {target : Path} (hhere : Named here) (htarget : target.IsWritten)
    (hmem : target.normal here ∈ touched) : (framed host here run touched).Produces target where
  download maxAttempts url := Discipline.framing.keeps_of_replaces hhere htarget hmem
    (.downloadBy hhere.noDots _ _ _) ((quiet_produces target).download maxAttempts url)
  extract container name := Discipline.framing.keeps_of_replaces hhere htarget hmem
    (.extractEntry hhere.noDots _ _) ((quiet_produces target).extract container name)
  gunzip source := Discipline.framing.keeps_of_replaces hhere htarget hmem
    (.gunzip hhere.noDots _) ((quiet_produces target).gunzip source)
  strip source := Discipline.framing.keeps_of_replaces hhere htarget hmem
    (.strip hhere.noDots _) ((quiet_produces target).strip source)
  normalize source space document := Discipline.framing.keeps_of_replaces hhere htarget hmem
    (.normalizeFile hhere.noDots _ _ _) ((quiet_produces target).normalize source space document)

end framed

/-! ### Libraries -/

section

variable {place : Location} (hhere : Named here) (hplace : Named place) (hshared : shared <+: place)

include hhere hplace hshared

/-- A download to where no path finds a file replaces no file to which directories lead. -/
theorem Http.download_framing (maxAttempts : Int) (url : String) {world : World}
    (hworld : world.files.here = here)
    (hfree : ∀ contents mode, world.files.node? place = some (.file contents mode) →
      ¬world.files.Reachable (.ofLocation place)) :
    (Discipline.framing host here shared condition touched).step world
      ((download maxAttempts url (.ofLocation place)).eval host world).2 := by
  subst hworld
  have hwritten : (Path.ofLocation place).IsWritten :=
    fun name hname => ⟨(hplace name hname).named, (hplace name hname).noSlash⟩
  have hnormal : (Path.ofLocation place).normal world.files.here = place :=
    Path.normal_ofLocation hplace.noDots _
  have hquiet : (download maxAttempts url (.ofLocation place)).Keeps
      (.quiet host world.files.here any) any :=
    download_keeps (Discipline.quiet.allowsFiles _) Discipline.quiet.allowsNetwork _ _
  obtain ⟨⟨-, hstate, -⟩, -⟩ := hquiet world rfl trivial
  change ((download maxAttempts url (.ofLocation place)).eval host world).2.state = world.state at hstate
  have hreplaces : Replaces host world.files.here (.ofLocation place)
      (download maxAttempts url (.ofLocation place)) := .downloadBy hhere.noDots _ _ _
  have hreplaced := hreplaces world rfl
  rcases heval : (download maxAttempts url (.ofLocation place)).eval host world with
    ⟨fault | length, after⟩ <;> rw [heval] at hreplaced hstate
  · exact Discipline.framing.step_of_replaced hhere hwritten (Set.empty_subset _) hreplaced hstate
  obtain ⟨hchange, contents, mode, hnode⟩ := hreplaced
  rw [hnormal] at hchange hnode
  have hspares : Spares {place} world.files after.files :=
    hchange.spares subset_rfl (Set.empty_subset _)
  refine ⟨⟨?_, ?_⟩, hchange.wellNamed ?_, hstate ▸ id⟩
  · intro location contents mode _ hother hfile
    refine (hspares _ _ _ (fun heq => hother ?_) hfile).1
    exact Set.mem_singleton_iff.mp heq ▸ hshared
  · intro location contents mode _ hfile
    have hne : location ∉ ({place} : Set Location) := by
      rintro rfl
      have hreach := reachable_of_eval_download_ok hhere.noDots heval
      exact hfree _ _ hfile.node (hfile.reachable hreach hplace.noDots (by simp [hnode]))
    have hkept := hspares _ _ _ hne hfile.node
    exact ⟨hkept.1, hkept.2 hfile.leads⟩
  · rintro _ (hmem | rfl)
    · exact hwritten.parent.named_of_mem_trail hhere hmem
    · exact hplace

/-- A library is downloaded only to where no path finds anything. -/
theorem Release.fetchLibraryTo_framing (maxAttempts : Int) (dependency : Dependency) :
    (fetchLibraryTo maxAttempts dependency (.ofLocation place)).Keeps
      (.framing host here shared condition touched) any := by
  intro world hworld hinv
  have hquiet : (fetchLibraryTo maxAttempts dependency (.ofLocation place)).Keeps
      (.quiet host here condition) any := fetchLibraryTo_keeps _ _
    (Discipline.quiet.allowsNetwork.produces (Discipline.quiet.allowsFiles _))
  refine ⟨?_, (hquiet world hworld hinv.2).2.1, by split <;> trivial⟩
  have hlook := FileTree.eval_doesExist_snd world.files (.ofLocation place)
  change (Discipline.framing host here shared condition touched).step world
    ((fetchLibraryTo maxAttempts dependency (.ofLocation place)).eval host world).2
  unfold fetchLibraryTo
  rw [Action.eval_bind, Action.eval_onFiles]
  rcases hexists : (FileTree.doesExist (.ofLocation place)).eval world.files with
    ⟨error | found, files⟩ <;> obtain rfl : files = world.files := by rw [← hlook, hexists]
  · exact Discipline.refl _ world
  cases found with
  | true => exact Discipline.refl _ world
  | false =>
    have hfree : ∀ contents mode, world.files.node? place = some (.file contents mode) →
        ¬world.files.Reachable (.ofLocation place) := by
      intro contents mode hnode hreach
      have hthere := hreach.eval_doesExist (Path.normal_ofLocation hplace.noDots _ ▸ hnode)
      simp [hexists] at hthere
    have hstep : (Discipline.framing host here shared condition touched).step world _ :=
      Http.download_framing hhere hplace hshared maxAttempts dependency.url hworld hfree
    change (Discipline.framing host here shared condition touched).step world
      ((Action.handle _ _ _).eval host world).2
    rw [Action.eval_handle, Action.eval_bind]
    rcases heval : (Http.download maxAttempts dependency.url (.ofLocation place)).eval host world with
      ⟨fault | length, after⟩ <;> rw [heval] at hstep
    · dsimp only
      split <;> exact hstep
    · exact hstep

end

end JarRefinery
