import JarRefinery.Proofs.DocumentNames
import JarRefinery.Proofs.Outcome
import Mathlib.Data.List.Induction

/-!
# Staying in the workspace

What a run makes, writes and removes is in its workspace, but for directories on the way to the
workspace that are missing when it is entered. Most paths in the workspace are made of fixed names.
Three kinds of text come from elsewhere: the id of the run, the paths of libraries, which are checked
against leaving their directory, and the versions of mapping releases, which must not have a step
back in them.
-/

namespace JarRefinery

open Action (any)

/-! ### Paths below a directory -/

namespace Path

/-- The path goes on from the directory without a step back. -/
def Within (directory path : Path) : Prop :=
  ∃ rest, ".." ∉ rest ∧ path = ⟨directory.root, directory.parts ++ rest⟩

/-- The path goes on from the directory by one name at least. -/
def Below (directory path : Path) : Prop :=
  ∃ rest, rest ≠ [] ∧ ".." ∉ rest ∧ path = ⟨directory.root, directory.parts ++ rest⟩

variable {directory path : Path} {text name : String} {here location : Location}

theorem IsPlain.div_eq (hplain : IsPlain text) (path : Path) :
    path / text = ⟨path.root, path.parts ++ (ofString text).parts⟩ := by
  change path.join (ofString text) = _
  simp [join, isAbsolute, hplain.relative]

theorem Within.refl (directory : Path) : directory.Within directory :=
  ⟨[], List.not_mem_nil, by simp⟩

theorem Below.within (hbelow : directory.Below path) : directory.Within path :=
  have ⟨rest, _, hdots, hpath⟩ := hbelow
  ⟨rest, hdots, hpath⟩

theorem Within.below_div (hwithin : directory.Within path) (hname : FileTree.IsName name) :
    directory.Below (path / name) := by
  obtain ⟨rest, hdots, rfl⟩ := hwithin
  refine ⟨rest ++ [name], by simp, ?_, by simp [hname.div_eq]⟩
  simpa [hdots] using hname.noDots.symm

theorem Below.div (hbelow : directory.Below path) (hplain : IsPlain text) :
    directory.Below (path / text) := by
  obtain ⟨rest, hrest, hdots, rfl⟩ := hbelow
  refine ⟨rest ++ (ofString text).parts, by simp [hrest], ?_, by simp [hplain.div_eq]⟩
  simpa [hdots] using hplain.noDots

theorem IsPlain.below_div (hplain : IsPlain text) (hparts : (ofString text).parts ≠ [])
    (directory : Path) : directory.Below (directory / text) :=
  ⟨(ofString text).parts, hparts, hplain.noDots, hplain.div_eq directory⟩

theorem Within.below {middle : Path} (hwithin : directory.Within middle)
    (hbelow : middle.Below path) : directory.Below path := by
  obtain ⟨front, hfront, rfl⟩ := hwithin
  obtain ⟨rest, hrest, hdots, rfl⟩ := hbelow
  refine ⟨front ++ rest, by simp [hrest], ?_, by simp⟩
  simpa [hfront] using hdots

theorem Below.parent (hbelow : directory.Below path) : directory.Within path.parent := by
  obtain ⟨rest, hrest, hdots, rfl⟩ := hbelow
  refine ⟨rest.dropLast, fun hmem => hdots (List.dropLast_subset _ hmem), ?_⟩
  simp [Path.parent, List.dropLast_append_of_ne_nil hrest]

theorem Below.withName (hbelow : directory.Below path) (hname : name ≠ "..") :
    directory.Below (path.withName name) := by
  obtain ⟨rest, hrest, hdots, rfl⟩ := hbelow
  refine ⟨rest.dropLast ++ [name], by simp, ?_, ?_⟩
  · rw [List.mem_append, List.mem_singleton, not_or]
    exact ⟨fun hmem => hdots (List.dropLast_subset _ hmem), hname.symm⟩
  · simp [Path.withName, List.dropLast_append_of_ne_nil hrest]

theorem Within.normal_prefix (hwithin : directory.Within path) (here : Location) :
    directory.normal here <+: path.normal here := by
  obtain ⟨rest, hdots, rfl⟩ := hwithin
  rw [normal_eq, normal_eq, walk_append, walk_eq_append hdots]
  exact List.prefix_append _ _

/-- What leads to something in a directory leads to the directory or is in it. -/
theorem Within.mem_trail (hwithin : directory.Within path) (hlocation : location ∈ path.trail here) :
    location ∈ directory.trail here ∨ directory.normal here <+: location := by
  obtain ⟨rest, hdots, rfl⟩ := hwithin
  obtain ⟨front, back, hparts, rfl⟩ := hlocation
  rcases List.append_eq_append_iff.mp hparts with ⟨more, rfl, hrest⟩ | ⟨more, hfront, -⟩
  · right
    have hmore : ".." ∉ more := fun hmem => hdots (hrest ▸ List.mem_append_left _ hmem)
    rw [walk_append, walk_eq_append hmore]
    exact List.prefix_append _ _
  · exact .inl ⟨front, more, hfront, rfl⟩

/-- What stands above the place that a path leads to was passed on the way or stands above where the
path began. -/
theorem prefix_walk {start : Location} {parts : List String}
    (hlocation : location <+: walk start parts) :
    (∃ front back, parts = front ++ back ∧ location = walk start front) ∨ location <+: start := by
  induction parts using List.reverseRecOn with
  | nil => exact .inr hlocation
  | append_singleton parts part ih =>
    have hearlier : location <+: walk start parts →
        (∃ front back, parts ++ [part] = front ++ back ∧ location = walk start front) ∨
          location <+: start := fun hprefix =>
      (ih hprefix).imp_left fun ⟨front, back, hparts, hplace⟩ =>
        ⟨front, back ++ [part], by rw [hparts, List.append_assoc], hplace⟩
    have hstep : walk start (parts ++ [part]) =
        if part = ".." then (walk start parts).dropLast else walk start parts ++ [part] := by
      rw [walk_append]
      rfl
    by_cases hpart : part = ".."
    · rw [hstep, if_pos hpart] at hlocation
      exact hearlier (hlocation.trans (List.dropLast_prefix _))
    · rw [hstep, if_neg hpart, List.prefix_concat_iff] at hlocation
      rcases hlocation with rfl | hprefix
      · exact .inl ⟨parts ++ [part], [], by simp, by rw [hstep, if_neg hpart]⟩
      · exact hearlier hprefix

theorem mem_trail_of_prefix_normal (hlocation : location <+: path.normal here) :
    location ∈ path.trail here ∨ location <+: here := by
  refine (prefix_walk hlocation).imp_right fun hstart => ?_
  split at hstart
  · exact List.prefix_nil.mp hstart ▸ List.nil_prefix
  · exact hstart

end Path

/-! ### The documents of a release -/

theorem Workspace.isName_mappings : FileTree.IsName "mappings" :=
  ⟨by decide, by decide, by decide, by decide⟩

/-- A document is below the directory of mappings, as its name is not empty. -/
theorem Workspace.below_mapping (workspace : Workspace) {text ending : String}
    (hplain : Path.IsPlain (text ++ ending)) {c : Char} (hslash : '/' ∉ ending.toList)
    (hmem : c ∈ ending.toList) (hdot : c ≠ '.') :
    workspace.mappingsDirectory.Below (workspace.mapping (text ++ ending)) := by
  obtain ⟨front, rest, -, hparts⟩ := Path.parts_ofString text ending c hslash hmem hdot
  exact hplain.below_div (by simp [hparts]) _

/-- The version has no part that is a step back. -/
def MappingRelease.Steady (version : String) : Prop :=
  ".." ∉ Text.split '/' version

open MappingRelease (Steady)

namespace MappingProvider.Chained

variable (workspace : Workspace) {version : String}

theorem below_decompressedPath (version : String) :
    workspace.mappingsDirectory.Below (decompressedPath workspace version) := by
  obtain ⟨rest, hslash, heq⟩ := exists_decompressedPath workspace version
  rw [heq]
  refine workspace.below_mapping (Path.isPlain_of_name hslash ?_) (by decide)
    (show 't' ∈ ".tiny".toList by decide) (by decide)
  exact (Path.named_of_mem (show 't' ∈ (rest ++ ".tiny").toList by simp) (by decide)).2

/-- The documents of a version without a step back are in the directory of mappings. -/
theorem DocumentOf.below (hsteady : Steady version) {path : Path}
    (hpath : DocumentOf workspace version path) : workspace.mappingsDirectory.Below path := by
  cases hpath with
  | intermediary =>
    exact workspace.below_mapping (Path.isPlain_between hsteady (by decide) (by decide)
      (c := 'i') (by decide) (by decide) (e := 't') (by decide) (by decide)) (by decide)
      (c := 't') (by decide) (by decide)
  | archive =>
    exact workspace.below_mapping (Path.isPlain_between hsteady (by decide) (by decide)
      (c := 'i') (by decide) (by decide) (e := 'j') (by decide) (by decide)) (by decide)
      (c := 'j') (by decide) (by decide)
  | compressed =>
    exact workspace.below_mapping (Path.isPlain_between hsteady (by decide) (by decide)
      (c := 'y') (by decide) (by decide) (e := 't') (by decide) (by decide)) (by decide)
      (c := 't') (by decide) (by decide)
  | decompressed => exact below_decompressedPath workspace version
  | headed =>
    refine (below_decompressedPath workspace version).withName ?_
    exact (Path.named_of_mem (c := 'z') (by simp) (by decide)).2

end MappingProvider.Chained

/-! ### What a run may change -/

/-- Outside the directory everything is as before, but for directories made on the way to it. -/
def Contained (here : Location) (directory : Path) (before after : FileTree) : Prop :=
  ∀ location, ¬directory.normal here <+: location →
    after.node? location = before.node? location ∨
      location ∈ directory.trail here ∧ before.node? location = none ∧
        after.node? location = some .directory

namespace Contained

variable {here : Location} {directory : Path} {before middle after : FileTree}

theorem refl (here : Location) (directory : Path) (files : FileTree) :
    Contained here directory files files :=
  fun _ _ => .inl rfl

theorem trans (hfirst : Contained here directory before middle)
    (hsecond : Contained here directory middle after) : Contained here directory before after := by
  intro location hout
  rcases hfirst location hout with hsame | ⟨htrail, hnone, hmade⟩
  · rcases hsecond location hout with hsame' | ⟨htrail, hnone, hmade⟩
    · exact .inl (hsame'.trans hsame)
    · exact .inr ⟨htrail, hsame ▸ hnone, hmade⟩
  · rcases hsecond location hout with hsame' | ⟨-, hnone', -⟩
    · exact .inr ⟨htrail, hnone, hsame'.trans hmade⟩
    · simp [hmade] at hnone'

theorem keeps_directory (hcontained : Contained here directory before after) {location : Location}
    (hout : ¬directory.normal here <+: location) (hnode : before.node? location = some .directory) :
    after.node? location = some .directory := by
  rcases hcontained location hout with hsame | ⟨-, -, hmade⟩
  · exact hsame.trans hnode
  · exact hmade

end Contained

/-- Tools change nothing outside the directory. -/
def Host.StaysIn (host : Host) (here : Location) (directory : Path) : Prop :=
  ∀ calls call files location, ¬directory.normal here <+: location →
    (host.tools calls call files).2.node? location = files.node? location

/-- The run changes only what is in a directory. `condition` holds of what is handed on. -/
def Discipline.contained (host : Host) (here : Location) (directory : Path)
    (condition : RunState → Prop) : Discipline where
  host := host
  here := here
  inv := fun world => condition world.state ∧ ∀ location, location <+: here →
    ¬directory.normal here <+: location → world.files.node? location = some .directory
  step := fun before after => Contained here directory before.files after.files ∧
    (condition before.state → condition after.state)
  faults := fun _ => True
  refl := fun world => ⟨.refl here directory world.files, id⟩
  trans := fun hfirst hsecond =>
    ⟨hfirst.1.trans hsecond.1, fun hstate => hsecond.2 (hfirst.2 hstate)⟩
  keep := fun hstep hinv => ⟨hstep.2 hinv.1, fun location habove hout =>
    hstep.1.keeps_directory hout (hinv.2 location habove hout)⟩
  ordinary := fun _ _ => trivial

namespace Discipline.contained

variable {host : Host} {here : Location} {directory path : Path} {condition : RunState → Prop}

theorem allowsNetwork : (contained host here directory condition).AllowsNetwork where
  ask := fun world _ => ⟨.refl here directory world.files, id⟩
  wait := fun world _ => ⟨.refl here directory world.files, id⟩
  failure := fun _ _ _ _ => trivial
  broken := fun _ _ _ _ _ _ _ => trivial

theorem allowsLog : (contained host here directory condition).AllowsLog :=
  fun world _ => ⟨.refl here directory world.files, id⟩

theorem allowsHand (change : RunState → RunState)
    (hchange : ∀ state, condition state → condition (change state)) :
    (contained host here directory condition).AllowsHand change :=
  fun world _ => ⟨.refl here directory world.files, hchange world.state⟩

theorem allowsCall (hstays : host.StaysIn here directory) (call : ToolCall) :
    (contained host here directory condition).AllowsCall call :=
  fun world _ _ => ⟨fun location hout => .inl (hstays world.calls call world.files location hout), id⟩

variable (hrooted : ".." ∉ here)

include hrooted

/-- Directories may be made on the way to the directory and above where paths begin; everything else
has to be in the directory. -/
theorem allowsFiles {footprint : Footprint}
    (hmade : ∀ location ∈ footprint.made, location ∈ directory.trail here ∨ location <+: here ∨
      directory.normal here <+: location)
    (hwritten : ∀ location ∈ footprint.written, directory.normal here <+: location)
    (hremoved : ∀ location ∈ footprint.removed, directory.normal here <+: location) :
    (contained host here directory condition).AllowsFiles footprint := by
  refine fun world files _ hinv _ hchange => ⟨fun location hout => ?_, id⟩
  rcases (hchange hrooted).same_or_made (fun hmem => hout (hwritten location hmem))
      (fun hmem => hout (hremoved location hmem)) with hsame | ⟨hmem, hnone, hdirectory⟩
  · exact .inl hsame
  rcases hmade location hmem with htrail | habove | hbelow
  · exact .inr ⟨htrail, hnone, hdirectory⟩
  · simp [hinv.2 location habove hout] at hnone
  · exact absurd hbelow hout

theorem allowsMade (hwithin : directory.Within path) :
    (contained host here directory condition).AllowsFiles { made := path.trail here } :=
  allowsFiles hrooted (fun _ hmem => (hwithin.mem_trail hmem).imp_right .inr) (by simp) (by simp)

theorem allowsWritten (hwithin : directory.Within path) :
    (contained host here directory condition).AllowsFiles { written := {path.normal here} } :=
  allowsFiles hrooted (by simp) (by simpa using hwithin.normal_prefix here) (by simp)

theorem allowsRemoved (hwithin : directory.Within path) :
    (contained host here directory condition).AllowsFiles { removed := {path.normal here} } :=
  allowsFiles hrooted (by simp) (by simp) (by simpa using hwithin.normal_prefix here)

theorem produces (hbelow : directory.Below path) :
    (contained host here directory condition).Produces path := by
  have hsiblings : ∀ location ∈ siblings here path, directory.normal here <+: location := by
    rintro _ ⟨n, rfl⟩
    exact (hbelow.parent.normal_prefix here).trans (List.prefix_append _ _)
  refine allowsNetwork.produces (allowsFiles hrooted
    (fun _ hmem => (hbelow.parent.mem_trail hmem).imp_right .inr) ?_ hsiblings)
  rintro location (hmem | rfl)
  · exact hsiblings location hmem
  · exact hbelow.within.normal_prefix here

/-- A place in the directory may also be given as it is. -/
theorem producesPlace {base rest : List String} (hbase : directory.normal here <+: base)
    (hplain : ".." ∉ base ++ rest) (hrest : rest ≠ []) :
    (contained host here directory condition).Produces (.ofLocation (base ++ rest)) := by
  have hparent : (Path.ofLocation (base ++ rest)).parent = .ofLocation (base ++ rest.dropLast) := by
    simp [Path.parent, Path.ofLocation, List.dropLast_append_of_ne_nil hrest]
  have hshort : ".." ∉ base ++ rest.dropLast := fun hmem => hplain <| by
    rw [List.mem_append] at hmem ⊢
    exact hmem.imp_right fun hlast => List.dropLast_subset _ hlast
  have hsiblings : ∀ location ∈ siblings here (.ofLocation (base ++ rest)),
      directory.normal here <+: location := by
    rintro _ ⟨n, rfl⟩
    rw [hparent, Path.normal_ofLocation hshort, List.append_assoc]
    exact hbase.trans (List.prefix_append _ _)
  refine allowsNetwork.produces (allowsFiles hrooted (fun location hmem => ?_) ?_ hsiblings)
  · rw [Footprint.around, hparent] at hmem
    obtain ⟨front, back, hparts, rfl⟩ := hmem
    have hfront : front <+: base ++ rest.dropLast := ⟨back, hparts.symm⟩
    have hwalk : Path.walk ((Path.ofLocation (base ++ rest.dropLast)).start here) front = front :=
      Path.walk_eq_append (fun hmem => hshort (hfront.subset hmem)) []
    rw [show (contained host here directory condition).here = here from rfl, hwalk]
    rcases List.prefix_or_prefix_of_prefix (hbase.trans (List.prefix_append _ _)) hfront with
      hbelow | habove
    · exact .inr (.inr hbelow)
    · exact (Path.mem_trail_of_prefix_normal habove).imp_right .inl
  · rintro location (hmem | rfl)
    · exact hsiblings location hmem
    · rw [Path.normal_ofLocation hplain]
      exact hbase.trans (List.prefix_append _ _)

end Discipline.contained

namespace Pipeline

theorem Request.mappingKind_of_chained {request : Request} {metaUrl mavenUrl : String}
    (hprovider : request.provider = .ok (.chained metaUrl mavenUrl)) :
    request.mappingKind = "chained" := by
  unfold provider MappingProvider.ofKind at hprovider
  split at hprovider
  · cases hprovider
  · assumption
  · cases hprovider

/-! ### The stages -/

section

variable {run : Run} {host : Host} {here : Location}

/-- Where the documents of a provider's mappings are if releases have no step back in their versions. -/
theorem documents_below (hside : run.side ∈ Settings.sides)
    (hfixed : ∀ word sets, run.provider ≠ .fixed word sets) {path : Path}
    (hpath : run.provider.Documents run.workspace run.side Steady path) :
    run.workspace.root.Below path := by
  have hdirect := (isName_side hside).2.2
  generalize run.provider = provider at hpath hfixed
  cases provider with
  | direct =>
    rw [show path = _ from hpath]
    exact ((Path.Within.refl _).below_div Workspace.isName_mappings).within.below_div hdirect
  | chained metaUrl mavenUrl =>
    obtain ⟨version, hsteady, hdocument⟩ := hpath
    exact ((Path.Within.refl _).below_div Workspace.isName_mappings).within.below
      (hdocument.below run.workspace hsteady)
  | fixed word sets => exact absurd rfl (hfixed word sets)

theorem contained_allowances (hrooted : ".." ∉ here)
    (hstays : host.StaysIn here run.workspace.root) (hside : run.side ∈ Settings.sides)
    (hid : Path.IsPlain run.id) (hpath : run.events.path = eventsPath run.workspace run.id)
    (hfixed : ∀ word sets, run.provider ≠ .fixed word sets)
    (hversions : ∀ metaUrl mavenUrl, run.provider = .chained metaUrl mavenUrl →
      ∀ release, host.Lists release → Steady release.version) :
    (Discipline.contained host here run.workspace.root (Handed run)).Allowances run Steady := by
  have hroot := Path.Within.refl run.workspace.root
  have hbelow : ∀ name, FileTree.IsName name → run.workspace.root.Below (run.workspace.root / name) :=
    fun name hname => hroot.below_div hname
  have hlibraries := hbelow _ Workspace.isName_libraries
  exact
    { network := Discipline.contained.allowsNetwork
      log := Discipline.contained.allowsLog
      calls := Discipline.contained.allowsCall hstays
      events := Discipline.contained.allowsWritten hrooted <| by
        rw [hpath]
        exact (((hbelow _ Workspace.isName_runs).div hid).within.below_div isName_events).within
      primary := Discipline.contained.produces hrooted (hbelow _ (isName_side hside).1)
      libraries := fun rest hrest => Discipline.contained.producesPlace hrooted
        (hlibraries.within.normal_prefix here)
        (by simpa using ⟨Path.dots_notMem_normal hrooted _, hrest.noDots hrooted⟩) hrest.some
      unpacked := Discipline.contained.allowsMade hrooted
        (hbelow _ ⟨by decide, by decide, by decide, by decide⟩).within
      stripped := Discipline.contained.produces hrooted (hbelow _ (isName_side hside).2.1)
      gives := fun metaUrl mavenUrl hprovider => MappingProvider.Chained.gives_of_lists
        Discipline.contained.allowsNetwork (hversions metaUrl mavenUrl hprovider) _
      documents := fun path hdocument =>
        Discipline.contained.produces hrooted (documents_below hside hfixed hdocument)
      built := fun set hname => by
        have hbuilt : run.workspace.root.Below (Remapper.passOutput run.workspace set) :=
          (hbelow "build" ⟨by decide, by decide, by decide, by decide⟩).within.below_div
            (isName_passOutput hname).1
        exact ⟨Discipline.contained.allowsMade hrooted hbuilt.parent,
          Discipline.contained.allowsRemoved hrooted hbuilt.within⟩
      sources := Discipline.contained.allowsMade hrooted
        (hbelow _ ⟨by decide, by decide, by decide, by decide⟩).within
      handed := fun _ hinv => hinv.1
      hand := Discipline.contained.allowsHand }

end

/-! ### Whole runs -/

theorem staging_contained {run : Run} {host : Host} {here : Location} (hrooted : ".." ∉ here)
    (hid : Path.IsPlain run.id) (hpath : run.events.path = eventsPath run.workspace run.id)
    (hfixed : ∀ word sets, run.provider ≠ .fixed word sets)
    (hallows : (Discipline.contained host here run.workspace.root (Handed run)).Allowances run Steady)
    (notes : Json.Fields) (startedAt : String) :
    (staging run notes startedAt).Keeps
      (.contained host here run.workspace.root (Handed run)) any := by
  have hruns : run.workspace.root.Below run.workspace.runsDirectory :=
    (Path.Within.refl _).below_div Workspace.isName_runs
  have hdirectory : run.workspace.root.Below (runDirectory run.workspace run.id) := hruns.div hid
  have hreport : run.workspace.root.Below (reportPath run.workspace run.id) :=
    hdirectory.within.below_div isName_report
  refine staging_keeps hallows.log (Discipline.contained.allowsMade hrooted hdirectory.within) ?_
    hallows.events (Discipline.contained.allowsMade hrooted hreport.parent)
    (Discipline.contained.allowsWritten hrooted hreport.within)
    (fun stage hstage => Stage.perform_keeps hallows hfixed hstage) notes startedAt
  rw [hpath]
  exact Discipline.contained.allowsMade hrooted
    (hdirectory.within.below_div isName_events).parent

/-- The directories that a run needs from the start are its workspace and directories in it. -/
theorem startDirectories_within (workspace : Workspace) {directory : Path}
    (hmem : directory ∈ workspace.startDirectories) : workspace.root.Within directory := by
  have hroot := Path.Within.refl workspace.root
  simp only [Workspace.startDirectories, List.mem_cons, List.not_mem_nil, or_false] at hmem
  rcases hmem with rfl | rfl | rfl | rfl
  · exact hroot
  · exact (hroot.below_div Workspace.isName_libraries).within
  · exact (hroot.below_div Workspace.isName_mappings).within
  · exact (hroot.below_div ⟨by decide, by decide, by decide, by decide⟩).within

/-- **Containment.** Whatever the network answers and however the run ends, all that it makes, writes
or removes is in its workspace, but for missing directories on the way to the workspace, which it
makes. -/
theorem run_contained (request : Request) (preflight : Preflight) (host : Host) (world : World)
    (hrooted : ".." ∉ world.files.here)
    (hplaced : ∀ location, location <+: world.files.here →
      world.files.node? location = some .directory)
    (hside : request.settings.side ∈ Settings.sides) (hid : Path.IsPlain request.runId)
    (hstays : host.StaysIn world.files.here request.workspaceOf.root)
    (hversions : request.mappingKind = "chained" →
      ∀ release, host.Lists release → Steady release.version) :
    Contained world.files.here request.workspaceOf.root world.files
      (request.ending preflight host world).2.files := by
  have henter : (enter preflight.check request).Keeps
      (.contained host world.files.here request.workspaceOf.root any) any :=
    (enter_keeps preflight request (fun directory hmem => Discipline.contained.allowsMade hrooted
      (startDirectories_within request.workspaceOf hmem)) fun _ => trivial).anyway
  have hready : (Discipline.contained host world.files.here request.workspaceOf.root any).Ready
      world := ⟨rfl, trivial, fun location habove _ => hplaced location habove⟩
  rcases hentered : (enter preflight.check request).eval host world with ⟨fault | provider, ready⟩
  · obtain ⟨-, hcontained, -⟩ := hready.evaluated henter hentered
    rwa [Request.ending_of_refused hentered]
  obtain ⟨hentered', hcontained, -⟩ := hready.evaluated henter hentered
  have hprovider := enter_provider hentered
  have hfixed : ∀ word sets, (request.runWith provider).provider ≠ .fixed word sets :=
    request.provider_ne_fixed hprovider
  have hchained : ∀ metaUrl mavenUrl, (request.runWith provider).provider = .chained metaUrl mavenUrl →
      ∀ release, host.Lists release → Steady release.version := by
    rintro metaUrl mavenUrl rfl
    exact hversions (Request.mappingKind_of_chained hprovider)
  have hallows : (Discipline.contained host world.files.here
      (request.runWith provider).workspace.root (Handed (request.runWith provider))).Allowances
        (request.runWith provider) Steady :=
    contained_allowances hrooted hstays hside hid rfl hfixed hchained
  have hstaging := staging_contained hrooted hid rfl hfixed hallows request.notes host.clock
  have hbegun : (Discipline.contained host world.files.here (request.runWith provider).workspace.root
      (Handed (request.runWith provider))).Ready { ready with state := {} } :=
    ⟨hentered'.here, .empty _, hentered'.inv.2⟩
  have hstep := hstaging.step hbegun.here hbegun.inv
  rw [Request.ending_of_entered hentered]
  exact hcontained.trans hstep.1

/-! ### Small runs -/

/-- A request for chained mappings. -/
def Request.chained : Request :=
  { Request.plain with
    settings := { Request.plain.settings with
      manifestUrl := "http://m", fabricMetaUrl := "http://f", fabricMavenUrl := "http://f" }
    mappings := some "chained" }

/-- One version, and one release of mappings to intermediary names. Every other address answers with
an archive without entries. -/
def releaseService (release : String) : Host :=
  { Host.idle with
    network := fun _ address => .response 200 none
      (if address = "http://m" then Text.Utf8.encode
        "\x7b\"versions\": [\x7b\"id\": \"1.0\", \"url\": \"http://v\"\x7d], \"latest\": \x7b\x7d\x7d"
      else if address = "http://v" then Text.Utf8.encode
        "\x7b\"id\": \"1.0\", \"downloads\": \x7b\"server\": \x7b\"url\": \"http://s\"\x7d\x7d\x7d"
      else if address = "http://f/v2/versions/intermediary/1.0" then Text.Utf8.encode
        ("[\x7b\"maven\": \"g:a:1\", \"version\": \"" ++ release ++ "\"\x7d]")
      else [80, 75, 5, 6] ++ List.replicate 18 0) none }

theorem staysIn_releaseService (release : String) (here : Location) (directory : Path) :
    (releaseService release).StaysIn here directory :=
  fun _ _ _ _ _ => rfl

/-- The releases that a body lists. -/
def releasesIn (body : Bytes) : Option (List MappingRelease) := do
  let chars ← (Text.decodeDocument body).toOption
  let json ← (Json.read chars).toOption
  (MappingRelease.ofList "" json).toOption

/-- Listed releases are in bodies of the network. -/
theorem of_lists {host : Host} {release : MappingRelease} (hlists : host.Lists release) :
    ∃ past address status location body fault releases,
      host.network past address = .response status location body fault ∧
        releasesIn body = some releases ∧ release ∈ releases := by
  obtain ⟨json, url, releases, hdelivers, hof, hmem⟩ := hlists
  obtain ⟨past, address, status, location, body, fault, chars, hreply, hchars, hjson⟩ := hdelivers
  have hof' : MappingRelease.ofList "" json = .ok releases := by
    cases json with
    | list items => exact hof
    | _ => cases hof
  exact ⟨past, address, status, location, body, fault, releases, hreply,
    by simp [releasesIn, hchars, hjson, hof', Except.toOption], hmem⟩

theorem releasesIn_releaseService {past : List String} {address : String} {status : Nat}
    {location : Option String} {body : Bytes} {fault : Option Fault}
    (hreply : (releaseService "1.0").network past address = .response status location body fault) :
    releasesIn body = none ∨ releasesIn body = some [⟨"g:a:1", "1.0", none, none⟩] := by
  obtain ⟨-, -, rfl, -⟩ := Reply.response.inj hreply
  split
  · exact .inl (by decide +kernel)
  split
  · exact .inl (by decide +kernel)
  split
  · exact .inr (by decide +kernel)
  · exact .inl (by decide +kernel)

theorem version_of_releasesIn {body : Bytes} {releases : List MappingRelease} {release : MappingRelease}
    (hbody : releasesIn body = none ∨ releasesIn body = some [⟨"g:a:1", "1.0", none, none⟩])
    (hreleases : releasesIn body = some releases) (hmem : release ∈ releases) :
    release.version = "1.0" := by
  rcases hbody with hnone | hone
  · cases hreleases.symm.trans hnone
  · obtain rfl := Option.some.inj (hreleases.symm.trans hone)
    obtain rfl := List.mem_singleton.mp hmem
    rfl

theorem version_of_releaseService {release : MappingRelease}
    (hlists : (releaseService "1.0").Lists release) : release.version = "1.0" := by
  obtain ⟨_, _, _, _, _, _, _, hreply, hreleases, hmem⟩ := of_lists hlists
  exact version_of_releasesIn (releasesIn_releaseService hreply) hreleases hmem

theorem steady_of_releaseService (release : MappingRelease)
    (hlists : (releaseService "1.0").Lists release) : Steady release.version := by
  rw [version_of_releaseService hlists]
  exact (by decide : ".." ∉ Text.split '/' "1.0")

theorem placed_bare (location : Location) (habove : location <+: FileTree.bare.here) :
    FileTree.bare.node? location = some .directory := by
  rcases List.prefix_cons_iff.mp habove with rfl | ⟨rest, rfl, hrest⟩
  · rfl
  · obtain rfl := List.prefix_nil.mp hrest
    rfl

theorem run_contained_chained : Contained FileTree.bare.here Request.chained.workspaceOf.root
    FileTree.bare (Request.chained.ending .lenient (releaseService "1.0") { files := .bare }).2.files :=
  run_contained Request.chained .lenient (releaseService "1.0") { files := .bare } (by decide)
    placed_bare (by decide) ⟨by decide, by decide⟩ (staysIn_releaseService _ _ _)
    fun _ => steady_of_releaseService

/-- The tools of the run stay in its workspace, but it changes something outside. -/
def Request.Escapes (request : Request) (host : Host) (files : FileTree) : Prop :=
  host.StaysIn files.here request.workspaceOf.root ∧
    ∃ location, ¬request.workspaceOf.root.normal files.here <+: location ∧
      (request.ending .lenient host { files }).2.files.node? location ≠ files.node? location

/-- Directories on the way to the workspace are made. Steps back are followed, in the id of a run as
in the version of a release. -/
theorem run_escapes :
    { Request.plain with workspace := some ⟨"", ["x", "ws"]⟩ }.Escapes .idle .bare ∧
      { Request.plain with runId := "../../x" }.Escapes .idle .bare ∧
      Request.chained.Escapes (releaseService "x/../../../y") .bare :=
  ⟨⟨fun _ _ _ _ _ => rfl, ["work", "x"], by decide +kernel⟩,
    ⟨fun _ _ _ _ _ => rfl, ["work", "x"], by decide +kernel⟩,
    ⟨staysIn_releaseService _ _ _, ["work", "y.tiny"], by decide +kernel⟩⟩

end Pipeline

end JarRefinery
