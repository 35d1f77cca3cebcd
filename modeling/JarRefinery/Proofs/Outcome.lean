import JarRefinery.Proofs.Opening

/-!
# What a run reports

All that is told of an outcome agrees: the results in its report, its status, its exit code, the
stage that failed and its last event. There is an outcome unless a directory is at the place of the
report when the stages have ended.
-/

namespace JarRefinery

open Action (any)

theorem RunReport.failedStage?_eq_none_iff (report : RunReport) :
    report.failedStage? = none ↔ RunReport.statusOf report.stages = .success := by
  simp [RunReport.failedStage?, RunReport.statusOf]

namespace Pipeline

/-! ### The end of a run -/

variable {run : Run} {world : World}

/-- The report can be written unless a directory is at its place. -/
theorem write_cases (host : Host) (hkept : Kept run world.files) (hfits : Fits run) (report : RunReport) :
    (world.files.node? ((reportPath run.workspace run.id).normal world.files.here) =
        some .directory ∧
      ∃ fault, (report.write (reportPath run.workspace run.id)).eval host world =
        (.error fault, world)) ∨
    (world.files.node? ((reportPath run.workspace run.id).normal world.files.here) ≠
        some .directory ∧
      ∃ written, (report.write (reportPath run.workspace run.id)).eval host world =
          (.ok (), written) ∧ Kept run written.files ∧
        written.files.here = world.files.here ∧
        written.files.node? (run.events.path.normal world.files.here) =
          world.files.node? (run.events.path.normal world.files.here)) := by
  have hparent : (reportPath run.workspace run.id).parent = runDirectory run.workspace run.id :=
    isName_report.parent_div
  have hensure : (Action.onFiles (FileTree.ensureDirectories
      (reportPath run.workspace run.id).parent)).eval host world = (.ok (), world) := by
    rw [hparent, Action.eval_onFiles, hkept.directory.eval_ensureDirectories]
    rfl
  unfold RunReport.write
  rw [Action.eval_bind_ok hensure, Action.eval_onFiles]
  rcases FileTree.writeFile_cases world.files (reportPath run.workspace run.id) _ with
    ⟨-, hwritable, mode, heval⟩ | ⟨hnot, error, heval⟩
  · rw [heval]
    have hchange : Change _ world.files
        (world.files.put _ (.file (Text.Utf8.encode report.toText) mode)) := .putFile hwritable.1
    refine .inr ⟨hwritable.1, _, rfl, hkept.mono hchange (Set.notMem_empty _), rfl, ?_⟩
    refine hchange.node?_eq ?_
    simp [Footprint.places, hfits.normal_events, normal_report]
  · rw [heval]
    refine .inl ⟨?_, _, rfl⟩
    by_contra hfree
    refine hnot ⟨hkept.reachable_report hfits, hfree, fun _ => ?_⟩
    rw [normal_report, List.dropLast_concat]
    exact hkept.directory.node

/-- What the event log holds in the end: what it held, and the last event. -/
def Told (host : Host) (run : Run) (before after : FileTree) (report : RunReport) : Prop :=
  ∃ contents mode, before.node? (run.events.path.normal before.here) = some (.file contents mode) ∧
    after.node? (run.events.path.normal before.here) =
      some (.file (contents ++ line host (finishEvent run report)) mode)

theorem eval_announceFinish (host : Host) (hkept : Kept run world.files) (hfits : Fits run)
    (report : RunReport) : ∃ after, (announceFinish run report).eval host world = (.ok (), after) ∧
      Told host run world.files after.files report := by
  obtain ⟨contents, mode, hnode, happend⟩ := hkept.eval_append hfits host (finishEvent run report)
  refine ⟨_, Action.eval_bind_ok happend, contents, mode, hnode, ?_⟩
  change (world.files.put _ _).node? _ = _
  rw [FileTree.node?_put, if_neg (by simp [hfits.normal_events]), if_pos rfl]

/-- There is an outcome unless a directory is at the place of the report; then nothing changes. -/
theorem finishRun_cases (host : Host) (hkept : Kept run world.files) (hfits : Fits run) (notes : Json.Fields)
    (startedAt : String) (results : List StageResult) :
    (world.files.node? ((reportPath run.workspace run.id).normal world.files.here) =
        some .directory ∧
      ∃ fault, (finishRun run notes startedAt results).eval host world = (.error fault, world)) ∨
    (world.files.node? ((reportPath run.workspace run.id).normal world.files.here) ≠
        some .directory ∧
      ∃ outcome after, (finishRun run notes startedAt results).eval host world =
          (.ok outcome, after) ∧
        Ends run results outcome ∧ Told host run world.files after.files outcome.report) := by
  unfold finishRun
  rw [Action.eval_bind_ok (Action.eval_read host world)]
  simp only
  rcases write_cases host hkept hfits (report run notes startedAt host.clock results) with
    ⟨hdirectory, fault, hwrite⟩ | ⟨hfree, written, hwrite, hwritten, hhere, hsame⟩
  · exact .inl ⟨hdirectory, fault, Action.eval_bind_error hwrite⟩
  · refine .inr ⟨hfree, ?_⟩
    obtain ⟨after, hannounce, contents, mode, hbefore, hafter⟩ :=
      eval_announceFinish host hwritten hfits (report run notes startedAt host.clock results)
    rw [hhere] at hbefore hafter
    rw [Action.eval_bind_ok hwrite, Action.eval_bind_ok hannounce]
    exact ⟨_, after, rfl, ⟨rfl, rfl, rfl, rfl⟩, contents, mode, hsame ▸ hbefore, hafter⟩

/-! ### What is told of an outcome -/

/-- All that is told of an outcome agrees. -/
structure Agreement (outcome : RunOutcome) : Prop where
  nonempty : outcome.report.stages ≠ []
  order : outcome.report.stages.map (·.stage) <+: Stage.all.map (·.name)
  passed : ∀ result ∈ outcome.report.stages.dropLast, result.status = .success
  stopped : outcome.report.stages.length < Stage.all.length →
    outcome.report.stages.getLast?.map (·.status) = some .failed
  complete : outcome.exitCode = 0 ↔ outcome.report.stages.length = Stage.all.length ∧
    ∀ result ∈ outcome.report.stages, result.status = .success
  status : outcome.exitCode = 0 ↔ outcome.report.status = .success
  failedStage : outcome.exitCode = 0 ↔ outcome.report.failedStage? = none
  event : outcome.exitCode = 0 ↔
    (finishEvent outcome.run outcome.report).data.get? "status" = some (.text "success")

namespace Settled

variable {stages : List Stage} {results : List StageResult} (hsettled : Settled stages results)

include hsettled

theorem order : results.map (·.stage) <+: stages.map (·.name) := by
  induction hsettled with
  | done => exact List.prefix_refl _
  | failed hname _ => simp [hname]
  | passed hname _ _ ih => simpa [hname] using ih

theorem passed_dropLast : ∀ result ∈ results.dropLast, result.status = .success := by
  induction hsettled with
  | done => simp
  | failed _ _ => simp
  | @passed _ _ result rest _ hsuccess _ ih =>
    cases rest with
    | nil => simp
    | cons other others => simpa [hsuccess] using ih

theorem stopped (hshort : results.length < stages.length) :
    results.getLast?.map (·.status) = some .failed := by
  induction hsettled with
  | done => simp at hshort
  | failed _ hfailed => simp [hfailed]
  | @passed _ _ result rest _ _ hrest ih =>
    have hlast := ih (by simpa using hshort)
    cases rest with
    | nil => simp at hlast
    | cons other others => simpa [List.getLast?_cons_cons] using hlast

/-- A run has succeeded if all of its stages have. -/
theorem status_iff : RunReport.statusOf results = .success ↔
    results.length = stages.length ∧ ∀ result ∈ results, result.status = .success := by
  constructor
  · intro hstatus
    have hall := hsettled.all_success hstatus
    refine ⟨?_, hall⟩
    by_contra hlength
    have hle : results.length ≤ stages.length := by simpa using hsettled.order.length_le
    have hlast := hsettled.stopped (Nat.lt_of_le_of_ne hle hlength)
    obtain ⟨result, hresult, hfailed⟩ := Option.map_eq_some_iff.mp hlast
    simp [hall result (List.mem_of_getLast? hresult)] at hfailed
  · rintro ⟨-, hall⟩
    refine (RunReport.statusOf_eq_success_iff results).mpr fun result hresult => ?_
    simp [hall result hresult]

end Settled

/-- The views of an outcome are computed apart and agree. -/
theorem Ends.agreement {results : List StageResult} {outcome : RunOutcome}
    (hends : Ends run results outcome) (hsettled : Settled Stage.all results) :
    Agreement outcome := by
  have hzero : outcome.exitCode = 0 ↔ RunReport.statusOf results = .success := by
    rw [hends.exitCode]
    split <;> simp_all
  have hword : (finishEvent outcome.run outcome.report).data.get? "status" =
      some (.text outcome.report.status.word) := rfl
  refine
    { nonempty := ?_
      order := hends.stages ▸ hsettled.order
      passed := hends.stages ▸ hsettled.passed_dropLast
      stopped := hends.stages ▸ hsettled.stopped
      complete := hends.stages ▸ hzero.trans hsettled.status_iff
      status := hends.status ▸ hzero
      failedStage := by rw [RunReport.failedStage?_eq_none_iff, hends.stages]; exact hzero
      event := ?_ }
  · rw [hends.stages]
    rintro rfl
    cases hsettled
  · rw [hword, hends.status, hzero]
    unfold RunReport.statusOf
    split <;> simp [StageStatus.word]

end Pipeline

end JarRefinery
