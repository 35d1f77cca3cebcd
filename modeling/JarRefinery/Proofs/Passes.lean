import JarRefinery.Proofs.Calls

/-!
# Passes of the remapper

A pass calls the remapper once the place of its output is ready: its directory is there and no file
is. The pass is good if the call exits with zero and a file is at that place then, so that the file
must be new. Passes follow one another while they are good, each on the output of the one before.
-/

namespace JarRefinery

namespace Remapper

open CallPlan (passed passCall passCalls final)

/-! ### One pass -/

section Pass

variable (host : Host) (remapper : Remapper) (workspace : Workspace) (artifact : Artifact)
  (set : MappingSet) (before : World)

/-- The world with the directory of an output made and no file in the place of the output. -/
def readied (output : Path) (world : World) : World :=
  { world with
    files := ((FileTree.discard output).eval
      ((FileTree.ensureDirectories output.parent).eval world.files).2).2 }

/-- The set goes on from the artifact, and its output has a place beside the artifact. -/
structure Ready (files : FileTree) : Prop where
  source : set.source = artifact.space
  named : FileTree.hasNull (passOutput workspace set) = false ∧ FileTree.hasNull artifact.path = false
  apart : (passOutput workspace set).normal files.here ≠ artifact.path.normal files.here
  made : ((FileTree.ensureDirectories (passOutput workspace set).parent).eval files).1 = .ok ()

/-- The remapper was called when no file was in the place of the output. It exited with zero, and a
file is there. -/
structure Passed (result : ToolResult) (after : World) : Prop where
  ready : Ready workspace artifact set before.files
  fresh : ∀ contents, ¬(readied (passOutput workspace set) before).files.Holds
    (passOutput workspace set) contents
  called : Tool.answered host (passCall remapper workspace artifact set)
    (readied (passOutput workspace set) before) = (result, after)
  status : result.status = 0
  written : ∃ contents, after.files.Holds (passOutput workspace set) contents

/-- The remapper was called, but did not exit with zero or left no file. -/
structure Failed (after : World) : Prop where
  ready : Ready workspace artifact set before.files
  called : (Tool.answered host (passCall remapper workspace artifact set)
    (readied (passOutput workspace set) before)).2 = after
  amiss : (Tool.answered host (passCall remapper workspace artifact set)
      (readied (passOutput workspace set) before)).1.status ≠ 0 ∨
    ∀ contents, ¬after.files.Holds (passOutput workspace set) contents

/-- The ways in which a pass ends. -/
inductive PassEnds : Except Fault (Artifact × ToolResult) × World → Prop
  | refused {fault : Fault} {after : World} : ¬Ready workspace artifact set before.files →
    after.calls = before.calls → PassEnds (.error fault, after)
  | failed {fault : Fault} {after : World} :
    Failed host remapper workspace artifact set before after → PassEnds (.error fault, after)
  | passed {result : ToolResult} {after : World} :
    Passed host remapper workspace artifact set before result after →
      PassEnds (.ok (passed workspace set, result), after)

variable {host remapper workspace artifact set before}

/-- The place of an output is made ready where it can be, and nothing else happens. -/
theorem eval_clearOutput (hready : Ready workspace artifact set before.files) :
    (clearOutput artifact set (passOutput workspace set)).eval host before =
      (.ok (), readied (passOutput workspace set) before) := by
  have hapart : Path.ofLocation ((passOutput workspace set).normal before.files.here) ≠
      .ofLocation (artifact.path.normal before.files.here) := fun heq =>
    hready.apart (congrArg Path.parts heq)
  have hmade := hready.made
  unfold clearOutput
  rw [Action.eval_bind_ok (Action.eval_resolve hready.named.1),
    Action.eval_bind_ok (Action.eval_resolve hready.named.2)]
  rw [decide_eq_false hapart, Action.eval_bind_ok (Action.eval_refuse_false _ _ _),
    Action.eval_bind, Action.eval_onFiles]
  rcases hdirectories : (FileTree.ensureDirectories (passOutput workspace set).parent).eval before.files
    with ⟨error | _, files⟩ <;> rw [hdirectories] at hmade
  · cases hmade
  · simp only [Except.mapError, Action.eval_onFiles, FileTree.eval_discard_fst, readied, hdirectories]

/-- Where it cannot, there is a fault, and no tool is called. -/
theorem clearOutput_refused (hsource : set.source = artifact.space)
    (hnot : ¬Ready workspace artifact set before.files) :
    ∃ fault after, (clearOutput artifact set (passOutput workspace set)).eval host before =
      (.error fault, after) ∧ after.calls = before.calls := by
  unfold clearOutput
  rcases houtput : FileTree.hasNull (passOutput workspace set) with _ | _
  swap
  · exact ⟨_, _, Action.eval_bind_error (Action.eval_resolve_null houtput), rfl⟩
  rw [Action.eval_bind_ok (Action.eval_resolve houtput)]
  rcases hinput : FileTree.hasNull artifact.path with _ | _
  swap
  · exact ⟨_, _, Action.eval_bind_error (Action.eval_resolve_null hinput), rfl⟩
  rw [Action.eval_bind_ok (Action.eval_resolve hinput)]
  by_cases hsame : (passOutput workspace set).normal before.files.here =
      artifact.path.normal before.files.here
  · rw [hsame, decide_eq_true rfl]
    exact ⟨_, _, Action.eval_bind_error (Action.eval_refuse_true _ _ _), rfl⟩
  have hapart : Path.ofLocation ((passOutput workspace set).normal before.files.here) ≠
      .ofLocation (artifact.path.normal before.files.here) := fun heq =>
    hsame (congrArg Path.parts heq)
  rw [decide_eq_false hapart, Action.eval_bind_ok (Action.eval_refuse_false _ _ _),
    Action.eval_bind, Action.eval_onFiles]
  rcases hdirectories : (FileTree.ensureDirectories (passOutput workspace set).parent).eval before.files
    with ⟨error | _, files⟩
  · exact ⟨_, _, rfl, rfl⟩
  · exact absurd ⟨hsource, ⟨houtput, hinput⟩, hsame, by rw [hdirectories]⟩ hnot

variable (host remapper workspace artifact set before) in
/-- **Step.** A pass is refused before the remapper is called, or fails by what the remapper does, or
is good. -/
theorem pass_ends : PassEnds host remapper workspace artifact set before
    ((remapper.pass workspace artifact set).eval host before) := by
  unfold pass
  by_cases hsource : set.source = artifact.space
  swap
  · rw [checkSource, if_neg hsource]
    exact .refused (fun hready => hsource hready.source) rfl
  rw [checkSource, if_pos hsource, Action.eval_bind_ok (Action.eval_ofResult host before _)]
  dsimp only
  by_cases hready : Ready workspace artifact set before.files
  swap
  · obtain ⟨fault, after, hrefused, hcalls⟩ := @clearOutput_refused host _ _ _ _ hsource hready
    rw [Action.eval_bind_error hrefused]
    exact .refused hready hcalls
  rw [Action.eval_bind_ok (eval_clearOutput hready), Action.eval_bind_ok (Tool.eval_call _ _ _)]
  have hcall : (⟨remapper.argv artifact.path (passOutput workspace set) set, none, remapper.timeout⟩ :
      ToolCall) = passCall remapper workspace artifact set := rfl
  rw [hcall]
  rcases hcalled : Tool.answered host (passCall remapper workspace artifact set)
    (readied (passOutput workspace set) before) with ⟨result, after⟩
  dsimp only
  by_cases hstatus : result.status = 0
  swap
  · rw [Action.eval_bind_error (Tool.eval_refuse_bad _ _ _ hstatus)]
    refine .failed ⟨hready, by rw [hcalled], .inl ?_⟩
    rw [hcalled]
    exact hstatus
  rw [Action.eval_bind_ok (Tool.eval_refuse_good _ _ _ hstatus), Action.eval_bind,
    Action.eval_onFiles]
  rcases FileTree.isFile_cases after.files (passOutput workspace set) with
    ⟨hwritten, hfile⟩ | ⟨hmissing, hfile | ⟨error, hfile⟩⟩ <;> rw [hfile]
  · exact .passed ⟨hready, fun contents => FileTree.not_holds_discard _ _ contents, hcalled, hstatus,
      hwritten⟩
  · exact .failed ⟨hready, by rw [hcalled], .inr hmissing⟩
  · exact .failed ⟨hready, by rw [hcalled], .inr hmissing⟩

/-- A pass that is good comes to its end. -/
theorem Passed.eval {result : ToolResult} {after : World}
    (hpassed : Passed host remapper workspace artifact set before result after) :
    (remapper.pass workspace artifact set).eval host before =
      (.ok (passed workspace set, result), after) := by
  have hends := pass_ends host remapper workspace artifact set before
  generalize (remapper.pass workspace artifact set).eval host before = ending at hends
  cases hends with
  | refused hnot _ => exact absurd hpassed.ready hnot
  | failed hfailed =>
    obtain ⟨-, rfl, hamiss⟩ := hfailed
    rw [hpassed.called] at hamiss
    obtain ⟨contents, hwritten⟩ := hpassed.written
    rcases hamiss with hstatus | hmissing
    · exact absurd hpassed.status hstatus
    · exact absurd hwritten (hmissing contents)
  | passed hother =>
    obtain ⟨rfl, rfl⟩ := Prod.mk.inj (hother.called.symm.trans hpassed.called)
    rfl

theorem Passed.calls {result : ToolResult} {after : World}
    (hpassed : Passed host remapper workspace artifact set before result after) :
    after.calls = before.calls ++ [passCall remapper workspace artifact set] := by
  rw [show after = _ from (congrArg Prod.snd hpassed.called).symm]
  rfl

theorem Failed.calls {after : World} (hfailed : Failed host remapper workspace artifact set before after) :
    after.calls = before.calls ++ [passCall remapper workspace artifact set] := by
  rw [← hfailed.called]
  rfl

end Pass

/-! ### Passes in a row -/

section Chain

variable {α : Type} (host : Host) (remapper : Remapper) (workspace : Workspace)
  (onPass : MappingSet → Artifact → ToolResult → Action α)

/-- Good passes follow one another, each on the output of the one before. -/
inductive Chained : Artifact → List MappingSet → World → List (Artifact × α) → World → Prop
  | nil {artifact : Artifact} {world : World} : Chained artifact [] world [] world
  | cons {artifact : Artifact} {set : MappingSet} {rest : List MappingSet} {world : World}
    {result : ToolResult} {called noting after : World} {noted : α} {outputs : List (Artifact × α)} :
    Passed host remapper workspace artifact set world result called →
      (onPass set (passed workspace set) result).eval host called = (.ok noted, noting) →
        Chained (passed workspace set) rest noting outputs after →
          Chained artifact (set :: rest) world ((passed workspace set, noted) :: outputs) after

/-- What is made of a good pass always comes to an end, and calls no tool. -/
def Quiet : Prop :=
  ∀ set output result world, ∃ value after,
    (onPass set output result).eval host world = (.ok value, after) ∧ after.calls = world.calls

variable {host remapper workspace onPass}

theorem chain_ok_iff {artifact : Artifact} {sets : List MappingSet} {world : World}
    {outputs : List (Artifact × α)} {after : World} :
    (chain remapper workspace onPass artifact sets).eval host world = (.ok outputs, after) ↔
      Chained host remapper workspace onPass artifact sets world outputs after := by
  constructor
  · intro hok
    induction sets generalizing artifact world outputs with
    | nil =>
      obtain ⟨⟨⟩, rfl⟩ := Prod.mk.inj hok
      exact .nil
    | cons set rest ih =>
      unfold chain at hok
      obtain ⟨⟨output, result⟩, called, hpass, hok⟩ := Action.of_eval_bind_ok hok
      obtain ⟨noted, noting, hnoted, hok⟩ := Action.of_eval_bind_ok hok
      obtain ⟨others, _, hrest, hpure⟩ := Action.of_eval_bind_ok hok
      obtain ⟨⟨⟩, rfl⟩ := Prod.mk.inj hpure
      have hends := pass_ends host remapper workspace artifact set world
      rw [hpass] at hends
      cases hends with
      | passed hpassed => exact .cons hpassed hnoted (ih hrest)
  · intro hchained
    induction hchained with
    | nil => rfl
    | cons hpassed hnoted _ ih =>
      unfold chain
      rw [Action.eval_bind_ok hpassed.eval, Action.eval_bind_ok hnoted, Action.eval_bind_ok ih]
      rfl

theorem Chained.outputs {artifact : Artifact} {sets : List MappingSet} {world : World}
    {outputs : List (Artifact × α)} {after : World}
    (hchained : Chained host remapper workspace onPass artifact sets world outputs after) :
    outputs.map Prod.fst = sets.map (passed workspace) := by
  induction hchained with
  | nil => rfl
  | cons _ _ _ ih => rw [List.map_cons, List.map_cons, ih]

section Quiet

variable (hquiet : Quiet host onPass)

include hquiet

theorem Chained.calls {artifact : Artifact} {sets : List MappingSet} {world : World}
    {outputs : List (Artifact × α)} {after : World}
    (hchained : Chained host remapper workspace onPass artifact sets world outputs after) :
    after.calls = world.calls ++ passCalls remapper workspace artifact sets := by
  induction hchained with
  | nil => exact (List.append_nil _).symm
  | @cons artifact set rest world result called noting after noted outputs hpassed hnoted _ ih =>
    obtain ⟨_, _, hnoted', hcalls⟩ := hquiet set (passed workspace set) result called
    obtain ⟨-, rfl⟩ := Prod.mk.inj (hnoted'.symm.trans hnoted)
    rw [ih, hcalls, hpassed.calls, List.append_assoc]
    rfl

/-- **Run.** A chain that stops has gone through good passes up to the set that it stops at. -/
theorem chain_stops {artifact : Artifact} {sets : List MappingSet} {world : World} {fault : Fault}
    {after : World}
    (hstops : (chain remapper workspace onPass artifact sets).eval host world = (.error fault, after)) :
    ∃ front set back outputs middle, sets = front ++ set :: back ∧
      Chained host remapper workspace onPass artifact front world outputs middle ∧
        (¬Ready workspace (final workspace artifact front) set middle.files ∧
            after.calls = middle.calls ∨
          Failed host remapper workspace (final workspace artifact front) set middle after) := by
  induction sets generalizing artifact world with
  | nil => cases hstops
  | cons set rest ih =>
    unfold chain at hstops
    rw [Action.eval_bind] at hstops
    have hends := pass_ends host remapper workspace artifact set world
    generalize (remapper.pass workspace artifact set).eval host world = ending at hends hstops
    cases hends with
    | refused hnot hcalls =>
      obtain ⟨-, rfl⟩ := Prod.mk.inj hstops
      exact ⟨[], set, rest, [], world, rfl, .nil, .inl ⟨hnot, hcalls⟩⟩
    | failed hfailed =>
      obtain ⟨-, rfl⟩ := Prod.mk.inj hstops
      exact ⟨[], set, rest, [], world, rfl, .nil, .inr hfailed⟩
    | @passed result called hpassed =>
      obtain ⟨noted, noting, hnoted, -⟩ := hquiet set (passed workspace set) result called
      dsimp only at hstops
      rw [Action.eval_bind_ok hnoted, Action.eval_bind] at hstops
      rcases hrest : (chain remapper workspace onPass (passed workspace set) rest).eval host noting with
        ⟨fault' | outputs, after'⟩ <;> rw [hrest] at hstops <;> cases hstops
      obtain ⟨front, stopped, back, outputs, middle, rfl, hchained, hends⟩ := ih hrest
      refine ⟨set :: front, stopped, back, _, middle, rfl, .cons hpassed hnoted hchained, ?_⟩
      rwa [CallPlan.final_cons]

/-- **Chains.** A chain returns exactly if every pass is good: its set goes on from the namespace
reached so far, its output is not its input, and the remapper, called when no file was in the place of
the output, exits with zero and leaves a file there. There is then one output for each set, and each
call started from the output before. A chain that stops has called the remapper for the sets before,
and once more if that exited badly or left no file. -/
theorem chain_chained (artifact : Artifact) (sets : List MappingSet) (world : World) :
    (∀ outputs after,
      (chain remapper workspace onPass artifact sets).eval host world = (.ok outputs, after) ↔
        Chained host remapper workspace onPass artifact sets world outputs after) ∧
    (∀ outputs after, Chained host remapper workspace onPass artifact sets world outputs after →
      outputs.map Prod.fst = sets.map (passed workspace) ∧
        after.calls = world.calls ++ passCalls remapper workspace artifact sets) ∧
    ∀ fault after,
      (chain remapper workspace onPass artifact sets).eval host world = (.error fault, after) →
        ∃ front set back outputs middle, sets = front ++ set :: back ∧
          Chained host remapper workspace onPass artifact front world outputs middle ∧
            (¬Ready workspace (final workspace artifact front) set middle.files ∧
                after.calls = world.calls ++ passCalls remapper workspace artifact front ∨
              Failed host remapper workspace (final workspace artifact front) set middle after ∧
                after.calls = world.calls ++
                  passCalls remapper workspace artifact (front ++ [set])) := by
  refine ⟨fun outputs after => chain_ok_iff, fun outputs after hchained =>
    ⟨hchained.outputs, hchained.calls hquiet⟩, fun fault after hstops => ?_⟩
  obtain ⟨front, set, back, outputs, middle, hsets, hchained, hends⟩ := chain_stops hquiet hstops
  refine ⟨front, set, back, outputs, middle, hsets, hchained, ?_⟩
  rcases hends with ⟨hnot, hcalls⟩ | hfailed
  · exact .inl ⟨hnot, hcalls.trans (hchained.calls hquiet)⟩
  · refine .inr ⟨hfailed, ?_⟩
    rw [hfailed.calls, hchained.calls hquiet, CallPlan.passCalls_concat, List.append_assoc]

end Quiet

end Chain

/-! ### A workspace with an old output -/

/-- A remapper that writes how many calls came before. -/
def counting : Host :=
  { Host.idle with
    tools := fun past call files =>
      (⟨call.argv, 0, "", "", 0⟩,
        files.put ((Path.ofString (call.argv.getD 4 "")).normal files.here)
          (.file [UInt8.ofNat past.length] 0o644)) }

/-- An earlier run left an output of the first pass. -/
def littered : World where
  files := ⟨[(["work"], .directory), (["work", "build"], .directory),
    (["work", "build", "a-mapped.jar"], .file [9] 0o644)], ["work"]⟩

/-- A chain of two passes in the current directory. -/
def twoPasses : Action (List (Artifact × Unit)) :=
  chain ⟨"java", ⟨"", ["remapper.jar"]⟩, [], none⟩ ⟨⟨"", []⟩⟩ (fun _ _ _ => pure ())
    ⟨"stripped", ⟨"", ["in.jar"]⟩, "official"⟩
    [⟨"a", ⟨"", ["a.tiny"]⟩, "official", "intermediary", .tiny, false⟩,
      ⟨"b", ⟨"", ["b.tiny"]⟩, "intermediary", "named", .tiny, false⟩]

theorem chain_chained_littered :
    Quiet counting (fun _ _ _ => pure ()) ∧ ∃ outputs after,
      twoPasses.eval counting littered = (.ok outputs, after) ∧
        outputs.map (fun output => output.1.space) = ["intermediary", "named"] ∧
          after.calls.length = 2 := by
  have hquiet : Quiet counting (fun _ _ _ => pure ()) := fun _ _ _ world => ⟨(), world, rfl, rfl⟩
  obtain ⟨hreturns, hreturned, -⟩ := @chain_chained Unit counting
    ⟨"java", ⟨"", ["remapper.jar"]⟩, [], none⟩ ⟨⟨"", []⟩⟩ (fun _ _ _ => pure ()) hquiet
    ⟨"stripped", ⟨"", ["in.jar"]⟩, "official"⟩
    [⟨"a", ⟨"", ["a.tiny"]⟩, "official", "intermediary", .tiny, false⟩,
      ⟨"b", ⟨"", ["b.tiny"]⟩, "intermediary", "named", .tiny, false⟩] littered
  have hok : (twoPasses.eval counting littered).1.isOk = true := by decide +kernel
  rcases hends : twoPasses.eval counting littered with ⟨fault | outputs, after⟩
  · rw [hends] at hok
    cases hok
  obtain ⟨houtputs, hcalls⟩ := hreturned outputs after ((hreturns outputs after).mp hends)
  refine ⟨hquiet, outputs, after, rfl, ?_, by rw [hcalls]; rfl⟩
  have hspaces := congrArg (List.map Artifact.space) houtputs
  rwa [List.map_map] at hspaces

/-- What an earlier run left is not taken for an output. -/
example : (twoPasses.eval .idle littered).1.isOk = false := by decide +kernel

end Remapper

end JarRefinery
