import JarRefinery.Proofs.CallOrder
import JarRefinery.Proofs.FirstJar

/-!
# Paths that tools are called with

A tool reads its paths from the directory that it is called in. Only the bundler is called in another
directory than that of the program, and the jar that it is called with is absolute. So every path of a
call leads to the same place from both directories, but for an executable that is named by a relative
path where the bundler is called.
-/

namespace JarRefinery

/-! ### Paths seen from two directories -/

/-- The directory that a call is made in by a program in `here`. -/
def ToolCall.place (call : ToolCall) (here : Location) : Location :=
  match call.directory with
  | none => here
  | some directory => directory.normal here

/-- Whatever files there are, the text leads to the same place from both directories. -/
def LeadsAlike (text : String) (here there : Location) : Prop :=
  ∀ nodes, (⟨nodes, there⟩ : FileTree).locate (.ofString text) =
    (⟨nodes, here⟩ : FileTree).locate (.ofString text)

namespace LeadsAlike

variable {text : String} {here there : Location}

theorem refl (text : String) (here : Location) : LeadsAlike text here here :=
  fun _ => rfl

theorem of_absolute (habsolute : (Path.ofString text).isAbsolute = true) :
    LeadsAlike text here there := by
  intro nodes
  unfold FileTree.locate
  simp only [habsolute, if_true]
  rw [@FileTree.follow_congr ⟨nodes, here⟩ ⟨nodes, there⟩ fun _ => rfl]

end LeadsAlike

/-- The path of a location is absolute, also where it is read back from its text. -/
theorem Path.isAbsolute_ofString_ofLocation (location : Location) :
    (Path.ofString (Path.ofLocation location).toString).isAbsolute = true := by
  have hbegins : Text.beginsWith "/" (Path.ofLocation location).toString = true := by
    simp [Path.ofLocation, Path.toString, Text.beginsWith]
  have hroot : Path.rootOf (Path.ofLocation location).toString ≠ "" := by
    unfold Path.rootOf
    rw [if_pos hbegins]
    split_ifs <;> decide
  simpa [Path.isAbsolute, Path.ofString] using hroot

/-! ### The paths of a call -/

namespace CallPlan

/-- The texts of a call that name files: an executable with a slash, the jar that is run, and what that
is to read and to write. -/
inductive Names (settings : Settings) (workspace : Workspace) (here : Location) :
    ToolCall → String → Prop
  | java {call : ToolCall} : call.argv.head? = some settings.javaBin →
    '/' ∈ settings.javaBin.toList → Names settings workspace here call settings.javaBin
  | bundle : Names settings workspace here (bundlerCall settings workspace here)
      (Path.ofLocation ((primary workspace settings.side).path.normal here)).toString
  | pass {artifact : Artifact} {set : MappingSet} {path : Path} :
    path ∈ [settings.remapperJar, artifact.path, Remapper.passOutput workspace set, set.path] →
      Names settings workspace here (passCall (Stage.remapper settings) workspace artifact set)
        path.toString
  | decompilation {artifact : Artifact} {path : Path} :
    path ∈ [settings.decompilerJar, artifact.path, workspace.sourcesDirectory] →
      Names settings workspace here (decompilerCall settings workspace artifact) path.toString

variable {settings : Settings} {workspace : Workspace} {here : Location}

theorem Names.mem_argv {call : ToolCall} {text : String}
    (hnames : Names settings workspace here call text) : text ∈ call.argv := by
  cases hnames with
  | java hhead => exact List.mem_of_head? hhead
  | bundle => simp [bundlerCall, Tool.javaArgv]
  | pass hpath =>
    simp only [List.mem_cons, List.not_mem_nil, or_false] at hpath
    rcases hpath with rfl | rfl | rfl | rfl <;>
      simp [passCall, Remapper.argv, Tool.javaArgv, Stage.remapper]
  | decompilation hpath =>
    simp only [List.mem_cons, List.not_mem_nil, or_false] at hpath
    rcases hpath with rfl | rfl | rfl <;>
      simp [decompilerCall, Decompiler.argv, Tool.javaArgv, Stage.decompiler]

theorem directory_of_mem_passCalls {remapper : Remapper} {artifact : Artifact}
    {sets : List MappingSet} {call : ToolCall}
    (hcall : call ∈ passCalls remapper workspace artifact sets) :
    call.directory = none := by
  induction sets generalizing artifact with
  | nil => cases hcall
  | cons set rest ih =>
    rcases List.mem_cons.mp hcall with rfl | hrest
    · rfl
    · exact ih hrest

/-- Only the bundler is called in another directory. -/
theorem directory_of_mem_calls {plan : CallPlan} {call : ToolCall} (hcall : call ∈ plan.calls) :
    call.directory = none ∨ call = bundlerCall plan.settings plan.workspace plan.here := by
  simp only [calls, List.mem_append, List.mem_singleton] at hcall
  rcases hcall with (hunpacking | hremapping) | rfl
  · unfold unpacking at hunpacking
    split at hunpacking
    · exact .inr (List.mem_singleton.mp hunpacking)
    · cases hunpacking
  · exact .inl (directory_of_mem_passCalls hremapping)
  · exact .inl rfl

/-- **Step.** A path of one call. -/
theorem leadsAlike_of_names {plan : CallPlan} {call : ToolCall} {text : String}
    (hcall : call ∈ plan.calls) (hnames : Names plan.settings plan.workspace plan.here call text) :
    LeadsAlike text plan.here (call.place plan.here) ∨
      call = bundlerCall plan.settings plan.workspace plan.here ∧ text = plan.settings.javaBin ∧
        (Path.ofString text).isAbsolute = false := by
  rcases directory_of_mem_calls hcall with hnone | rfl
  · refine .inl ?_
    rw [ToolCall.place, hnone]
    exact .refl text plan.here
  -- the bundler is called with two paths, and that of its jar is absolute
  cases habsolute : (Path.ofString text).isAbsolute with
  | true => exact .inl (.of_absolute habsolute)
  | false =>
    refine .inr ⟨rfl, ?_, rfl⟩
    generalize hbundler : bundlerCall plan.settings plan.workspace plan.here = call at hnames
    cases hnames with
    | java => rfl
    | bundle => rw [Path.isAbsolute_ofString_ofLocation] at habsolute; cases habsolute
    | pass => cases congrArg ToolCall.directory hbundler
    | decompilation => cases congrArg ToolCall.directory hbundler

end CallPlan

/-! ### The calls of a run -/

namespace Pipeline

/-- The calls that a run makes are the first ones of a plan. -/
theorem run_made (preflight : Preflight) (request : Request) (host : Host) (world : World) :
    ∃ (plan : CallPlan) (made : List ToolCall), plan.settings = request.settings ∧
      plan.workspace = request.workspaceOf ∧ plan.here = world.files.here ∧ made <+: plan.calls ∧
      (request.ending preflight host world).2.calls = world.calls ++ made := by
  obtain ⟨plan, hplan, ⟨⟨made, hmade, hcalls⟩, -⟩, -⟩ := exists_plan preflight request host world
  exact ⟨plan, made, hplan.settings, hplan.workspace, hplan.here, hmade, hcalls⟩

/-- **Paths.** Every path that a run calls a tool with leads from the directory of the call to where it
leads from that of the program, but for a relative executable where the bundler is called. -/
theorem run_paths (preflight : Preflight) (request : Request) (host : Host) (world : World) :
    ∃ (plan : CallPlan) (made : List ToolCall), plan.settings = request.settings ∧
      plan.workspace = request.workspaceOf ∧ plan.here = world.files.here ∧ made <+: plan.calls ∧
      (request.ending preflight host world).2.calls = world.calls ++ made ∧
      ∀ call ∈ made, ∀ text,
        CallPlan.Names request.settings request.workspaceOf world.files.here call text →
          text ∈ call.argv ∧
            (LeadsAlike text world.files.here (call.place world.files.here) ∨
              call = CallPlan.bundlerCall request.settings request.workspaceOf world.files.here ∧
                text = request.settings.javaBin ∧ (Path.ofString text).isAbsolute = false) := by
  obtain ⟨plan, made, hsettings, hworkspace, hhere, hmade, hcalls⟩ :=
    run_made preflight request host world
  refine ⟨plan, made, hsettings, hworkspace, hhere, hmade, hcalls, fun call hcall text hnames =>
    ⟨hnames.mem_argv, ?_⟩⟩
  rw [← hsettings, ← hworkspace, ← hhere] at hnames ⊢
  exact CallPlan.leadsAlike_of_names (hmade.subset hcall) hnames

end Pipeline

end JarRefinery
