import JarRefinery.Proofs.Fetching
import JarRefinery.Release.Fetch

/-!
# Libraries

Every library that is asked for has its result, in the order in which it was asked for, and a result
that is a failure warns of it. Some faults are thrown all the same: those of requests that no further
attempt may mend, and names of files that are too long.
-/

namespace JarRefinery

open Action (any)

/-! ### Whether a file is there -/

namespace FileTree

open FileTree.Action (eval eval_bind eval_bind_ok eval_bind_error)

theorem of_follow_error {tree : FileTree} {location : Location} {parts : List String}
    {code : ErrorCode} (hfollow : tree.follow location parts = .error code) :
    code = .noEntry ∨ code = .notDirectory ∨ code = .nameTooLong := by
  induction parts generalizing location with
  | nil => cases hfollow
  | cons part rest ih =>
    unfold follow at hfollow
    split at hfollow
    · exact .inl (Except.error.inj hfollow).symm
    · exact .inr (.inl (Except.error.inj hfollow).symm)
    · split at hfollow
      · exact ih hfollow
      split at hfollow
      · exact .inr (.inr (Except.error.inj hfollow).symm)
      · exact ih hfollow

theorem of_locate_error {tree : FileTree} {path : Path} {code : ErrorCode}
    (hlocate : tree.locate path = .error code) :
    code = .noEntry ∨ code = .notDirectory ∨ code = .nameTooLong := by
  unfold locate at hlocate
  split at hlocate
  · exact .inr (.inr (Except.error.inj hlocate).symm)
  · exact of_follow_error hlocate

theorem of_eval_stat_error {tree after : FileTree} {path : Path} {failure : SystemError}
    (hstat : eval (stat path) tree = (.error (.system failure), after)) :
    failure.code = .noEntry ∨ failure.code = .notDirectory ∨ failure.code = .nameTooLong := by
  have hlocating := eval_locating_eq tree path
  unfold stat at hstat
  by_cases hnull : hasNull path = true
  · rw [if_pos hnull] at hlocating
    rw [eval_bind_error hlocating] at hstat
    cases hstat
  rw [if_neg hnull] at hlocating
  rcases hlocate : tree.locate path with code | location <;> rw [hlocate] at hlocating
  · rw [eval_bind_error hlocating] at hstat
    cases hstat
    exact of_locate_error hlocate
  · rw [eval_bind_ok hlocating, eval_bind_ok (Action.eval_get tree)] at hstat
    cases hnode : tree.node? location <;> simp only [hnode] at hstat <;> cases hstat
    exact .inl rfl

/-- Only for a name that is too long it is not told whether something is there. -/
theorem of_eval_doesExist_error {tree after : FileTree} {path : Path} {error : FileError}
    (hexists : eval (doesExist path) tree = (.error error, after)) :
    ∃ failure, error = .system failure ∧ failure.code = .nameTooLong := by
  unfold doesExist find? at hexists
  rw [eval_bind, eval_bind_ok (Action.eval_get tree)] at hexists
  rcases hstat : (stat path).run tree with ⟨(failure | _) | node, found⟩
  · have hcodes := of_eval_stat_error hstat
    by_cases hcode : failure.code = .noEntry ∨ failure.code = .notDirectory
    · simp [hstat, hcode] at hexists
    · have hthrown : (.error (.system failure), tree) =
          ((.error error, after) : Except FileError Bool × FileTree) := by
        simpa [hstat, hcode] using hexists
      obtain rfl := Except.error.inj (Prod.mk.inj hthrown).1
      exact ⟨failure, rfl, by tauto⟩
  · simp [hstat] at hexists
  · simp [hstat] at hexists

end FileTree

/-! ### Results -/

/-- The network by itself fails with this fault. -/
def Host.Raises (host : Host) (fault : Fault) : Prop :=
  (∃ past address, host.network past address = .failure fault) ∨
    ∃ past address status location body,
      host.network past address = .response status location body (some fault)

theorem Host.failsWith_raises {host : Host} {sort : Fault → Prop}
    (hsort : ∀ fault, host.Raises fault → sort fault) : Http.FailsWith host sort where
  failure := fun past address fault hreply => hsort fault (.inl ⟨past, address, hreply⟩)
  broken := fun past address status location body fault hreply =>
    hsort fault (.inr ⟨past, address, status, location, body, hreply⟩)

namespace Release

/-- The faults that fetching a library is not spared: what a request or the network fails with, unless
it is tried again or the download is given up for it, and places that no file can have. -/
inductive Escapes (host : Host) : Fault → Prop
  | request {fault : Fault} : Http.Misdirected fault ∨ host.Raises fault →
    Http.isRetried fault = false → isDownloadFault fault = false → Escapes host fault
  | tooLong {failure : SystemError} : failure.code = .nameTooLong → Escapes host (.system failure)
  | nullByte : Escapes host .nullByte

/-- The result is that of the dependency, and there is a warning exactly if it is a failure. -/
structure Reports (dependency : Dependency) (result : LibraryFetch) : Prop where
  dependency : result.dependency = dependency
  warning : result.status = .failed ↔ result.warning.isSome

variable {host : Host}

theorem isDownloadFault_system (failure : SystemError) :
    isDownloadFault (.system failure) = true := by
  obtain ⟨code, _⟩ := failure
  cases code <;> rfl

/-- What fails with the client's own faults or those of the system is given up. -/
theorem download_yields (maxAttempts : Int) (url : String) (target : Path) :
    (Http.download maxAttempts url target).Yields host any fun fault =>
      isDownloadFault fault = false → Escapes host fault := by
  have hown : ∀ fault, Http.Misdirected fault ∨ host.Raises fault → Http.isRetried fault = false →
      isDownloadFault fault = false → Escapes host fault := fun _ => .request
  have hfiles : ∀ error : FileError, Http.isRetried (.ofFile error) = false →
      isDownloadFault (.ofFile error) = false → Escapes host (.ofFile error)
    | .system failure, _, hnot => absurd hnot (by rw [Fault.ofFile, isDownloadFault_system]; simp)
    | .nullByte, _, _ => .nullByte
  refine (Http.download_yields (Host.failsWith_raises fun fault hraises => hown fault (.inr hraises))
    (fun fault hastray => hown fault (.inl hastray.misdirected)) hfiles maxAttempts url
    target).weaken (fun _ hvalue => hvalue) fun fault hfault hnot => ?_
  cases hfault with
  | status code body => cases hnot
  | retries attempts last => cases hnot
  | other hescapes hretried => exact hescapes hretried hnot

theorem fetchLibraryTo_yields (maxAttempts : Int) (dependency : Dependency) (target : Path) :
    (fetchLibraryTo maxAttempts dependency target).Yields host (Reports dependency)
      (Escapes host) := by
  unfold fetchLibraryTo
  have hlook : (Action.onFiles (FileTree.doesExist target)).Yields host any (Escapes host) := by
    intro world
    rw [Action.eval_onFiles]
    rcases hexists : (FileTree.doesExist target).eval world.files with ⟨error | found, files⟩
    · obtain ⟨failure, rfl, hcode⟩ := FileTree.of_eval_doesExist_error hexists
      exact .tooLong hcode
    · trivial
  refine hlook.andThen fun found => ?_
  cases found with
  | true => exact .pure ⟨rfl, by simp⟩
  | false =>
    refine .handle ((download_yields maxAttempts dependency.url target).andThen fun _ =>
      .pure ⟨rfl, by simp⟩) (fun fault _ => .pure ⟨rfl, by simp⟩) fun fault hnot hescapes => ?_
    exact hescapes hnot

theorem fetchLibrary_yields (maxAttempts : Int) (workspace : Workspace) (dependency : Dependency) :
    (fetchLibrary maxAttempts workspace dependency).Yields host (Reports dependency)
      (Escapes host) := by
  unfold fetchLibrary
  have hresolve : ∀ path, (Action.onFiles (FileTree.resolve path)).Yields host any
      fun fault => fault.isA .valueError = true := by
    intro path world
    rw [Action.eval_onFiles]
    unfold FileTree.resolve
    by_cases hnull : FileTree.hasNull path = true
    · simp only [hnull, if_true]
      rfl
    · simp only [hnull]
      trivial
  have hplace : (workspace.library dependency.path).Yields host any
      fun fault => fault.isA .valueError = true := by
    unfold Workspace.library
    refine (hresolve _).andThen fun place => (hresolve _).andThen fun base => ?_
    split
    · exact .pure trivial
    · exact .throw rfl
  have hcaught : (Except.ok <$> workspace.library dependency.path :
      Action (Except Fault Path)).Yields host any fun fault => fault.isA .valueError = true :=
    .map hplace
  refine .andThen (.handle hcaught (fun fault _ => .pure trivial) fun fault hnot hvalue => ?_)
    fun place => ?_
  · exact absurd hvalue (by simp [hnot])
  · cases place with
    | ok target => exact fetchLibraryTo_yields _ _ _
    | error fault => exact .pure ⟨rfl, by simp⟩

/-- **Libraries are advisory.** Either every library has its result, in order, or a fault was thrown
that escapes. -/
theorem fetchLibraries_yields (maxAttempts : Int) (workspace : Workspace)
    (dependencies : List Dependency) :
    (fetchLibraries maxAttempts workspace dependencies).Yields host
      (List.Forall₂ Reports dependencies) (Escapes host) :=
  .mapM fun dependency _ => fetchLibrary_yields maxAttempts workspace dependency

end Release

end JarRefinery
