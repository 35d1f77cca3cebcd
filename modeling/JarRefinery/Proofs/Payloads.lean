import Mathlib
import JarRefinery.Proofs.StageCalls
import JarRefinery.Proofs.Stripping

/-!
# Payloads of bundles

A bundle is run in the directory that it unpacks to, and the least of the jars below `versions` is
its payload then, whoever wrote it. So the payload is new exactly if no jar of an earlier run is left
that comes before every new one.
-/

namespace JarRefinery.Package

/-! ### The first jar -/

theorem foldl_least_le_start (start : List String) (rest : List (List String)) :
    rest.foldl (fun least names => if names < least then names else least) start ≤ start := by
  induction rest generalizing start with
  | nil => exact le_rfl
  | cons other others ih =>
    rw [List.foldl_cons]
    split
    · rename_i hless
      exact (ih other).trans hless.le
    · exact ih start

theorem foldl_least_le (start : List String) {rest : List (List String)} {names : List String}
    (hmem : names ∈ rest) :
    rest.foldl (fun least names => if names < least then names else least) start ≤ names := by
  induction rest generalizing start with
  | nil => cases hmem
  | cons other others ih =>
    rw [List.foldl_cons]
    rcases List.mem_cons.mp hmem with rfl | hothers
    · refine (foldl_least_le_start _ others).trans ?_
      split
      · exact le_rfl
      · rename_i hnot
        exact not_lt.mp hnot
    · exact ih _ hothers

theorem least?_le {lists : List (List String)} {least names : List String}
    (hleast : least? lists = some least) (hmem : names ∈ lists) : least ≤ names := by
  cases lists with
  | nil => cases hmem
  | cons first rest =>
    obtain rfl := Option.some.inj hleast
    rcases List.mem_cons.mp hmem with rfl | hrest
    · exact foldl_least_le_start names rest
    · exact foldl_least_le first hrest

theorem least?_eq_none_iff {lists : List (List String)} : least? lists = none ↔ lists = [] := by
  cases lists <;> simp [least?]

/-! ### Jars that were unpacked -/

/-- Where bundles unpack their jars. -/
def payloads (workspace : Workspace) : Path :=
  workspace.unpackDirectory / payloadsDirectory

/-- The jars there, by the names that lead to them. -/
def jarsIn (workspace : Workspace) (files : FileTree) : List (List String) :=
  match ((FileTree.isDirectory (payloads workspace)).eval files).1 with
  | .ok true => jarsBelow files ((payloads workspace).normal files.here)
  | _ => []

def payloadAt (workspace : Workspace) (package : Artifact) (names : List String) : Artifact :=
  package.derive "payload" ⟨(payloads workspace).root, (payloads workspace).parts ++ names⟩ none

/-- The call that runs a bundle. -/
def extraction (java : String) (timeout : Option Seconds) (workspace : Workspace)
    (here : Location) (package : Artifact) : ToolCall :=
  ⟨Tool.javaArgv java unpackOptions (.ofLocation (package.path.normal here)) [],
    some workspace.unpackDirectory, timeout⟩

variable {host : Host} {java : String} {timeout : Option Seconds} {workspace : Workspace}
  {package : Artifact} {world : World}

/-- The directory is searched, unless it cannot be asked for. -/
theorem findPayload_cases :
    (findPayload workspace.unpackDirectory).eval host world =
        (.ok ((least? (jarsIn workspace world.files)).map fun names =>
          ⟨(payloads workspace).root, (payloads workspace).parts ++ names⟩), world) ∨
      ∃ error, ((FileTree.isDirectory (payloads workspace)).eval world.files).1 = .error error ∧
        (findPayload workspace.unpackDirectory).eval host world = (.error (.ofFile error), world) := by
  have hsame := FileTree.eval_isDirectory_snd world.files (payloads workspace)
  have hpayloads : workspace.unpackDirectory / payloadsDirectory = payloads workspace := rfl
  unfold findPayload jarsIn
  rw [hpayloads, Action.eval_bind, Action.eval_onFiles]
  rcases hdirectory : (FileTree.isDirectory (payloads workspace)).eval world.files with
    ⟨error | _ | _, files⟩ <;> rw [hdirectory] at hsame <;> obtain rfl : files = world.files := hsame
  · exact .inr ⟨error, rfl, rfl⟩
  · exact .inl rfl
  · obtain ⟨hreach, -⟩ := FileTree.isDirectory_true _ _ hdirectory
    refine .inl ?_
    simp only [Except.mapError, if_true]
    rw [Action.eval_bind, Action.eval_onFiles, hreach.eval_locating]
    rfl

/-! ### Unpacking -/

section Unpacking

variable (host java timeout workspace package world)

/-- The world in which a bundle is run: the directory that it unpacks to has been made. -/
def laidOut : World :=
  { world with files := ((FileTree.ensureDirectories workspace.unpackDirectory).eval world.files).2 }

/-- The bundle was run with this result, and left this world. -/
def Ran (result : ToolResult) (after : World) : Prop :=
  Tool.answered host (extraction java timeout workspace world.files.here package)
    (laidOut workspace world) = (result, after)

/-- The ways in which unpacking ends. -/
inductive Unpacked : Except Fault Artifact × World → Prop
  | unmade {error : FileError} :
    ((FileTree.ensureDirectories workspace.unpackDirectory).eval world.files).1 = .error error →
      Unpacked (.error (.ofFile error), laidOut workspace world)
  | failed {result : ToolResult} {after : World} :
    Ran host java timeout workspace package world result after → result.status ≠ 0 →
      Unpacked (.error (.of .unpackError
        ("Bundler extraction exited with " ++ toString result.status ++ ": " ++ result.shown)), after)
  | unsearched {result : ToolResult} {after : World} {error : FileError} :
    Ran host java timeout workspace package world result after → result.status = 0 →
      ((FileTree.isDirectory (payloads workspace)).eval after.files).1 = .error error →
        Unpacked (.error (.ofFile error), after)
  | empty {result : ToolResult} {after : World} :
    Ran host java timeout workspace package world result after → result.status = 0 →
      jarsIn workspace after.files = [] →
        Unpacked (.error (.of .unpackError
          ("Bundler extraction produced no jar under " ++ (payloads workspace).toString)), after)
  | found {result : ToolResult} {after : World} {names : List String} :
    Ran host java timeout workspace package world result after → result.status = 0 →
      names ∈ jarsIn workspace after.files → (∀ other ∈ jarsIn workspace after.files, names ≤ other) →
        Unpacked (.ok (payloadAt workspace package names), after)

end Unpacking

/-- A bundle with a proper name is unpacked, if the directory for it can be made. -/
theorem unpack_unpacked (hnamed : FileTree.hasNull package.path = false) :
    Unpacked host java timeout workspace package world
      ((unpack java timeout workspace package).eval host world) := by
  have hhere : (laidOut workspace world).files.here = world.files.here :=
    (FileTree.ensureDirectories_spec world.files workspace.unpackDirectory).1.here
  unfold unpack
  rw [Action.eval_bind, Action.eval_onFiles]
  have hlaidOut : { world with files :=
      ((FileTree.ensureDirectories workspace.unpackDirectory).eval world.files).2 } =
        laidOut workspace world := rfl
  rw [hlaidOut]
  rcases hmade : ((FileTree.ensureDirectories workspace.unpackDirectory).eval world.files).1
    with error | _
  · exact .unmade hmade
  simp only [Except.mapError]
  rw [Action.eval_bind_ok (Action.eval_resolve hnamed), hhere, Action.eval_bind_ok (Tool.eval_call _ _ _)]
  have hcall : (⟨Tool.javaArgv java unpackOptions (.ofLocation (package.path.normal world.files.here)) [],
      some workspace.unpackDirectory, timeout⟩ : ToolCall) =
        extraction java timeout workspace world.files.here package := rfl
  rw [hcall]
  rcases hran : Tool.answered host (extraction java timeout workspace world.files.here package)
    (laidOut workspace world) with ⟨result, after⟩
  dsimp only
  by_cases hstatus : result.status = 0
  swap
  · rw [Action.eval_bind_error (Tool.eval_refuse_bad _ _ _ hstatus)]
    exact .failed hran hstatus
  rw [Action.eval_bind_ok (Tool.eval_refuse_good _ _ _ hstatus)]
  rcases @findPayload_cases host workspace after with hsearched | ⟨error, hunasked, hfailed⟩
  swap
  · rw [Action.eval_bind_error hfailed]
    exact .unsearched hran hstatus hunasked
  rw [Action.eval_bind_ok hsearched]
  rcases hleast : least? (jarsIn workspace after.files) with _ | names
  · exact .empty hran hstatus (least?_eq_none_iff.mp hleast)
  · exact .found hran hstatus (least?_mem hleast) fun other hother => least?_le hleast hother

/-! ### Inspecting a bundle -/

/-- A path that leads to a bundle is found to do so. -/
theorem isBundled_true {path : Path} (hreach : world.files.Reachable path)
    (hbundle : IsBundle world.files path) :
    (isBundled path).eval host world = (.ok true, world) := by
  obtain ⟨archive, mode, entries, hnode, hentries, hmarker⟩ := hbundle
  have hfound : (Archive.find? entries bundleMarker).isSome = true := by
    simpa [Archive.find?] using hmarker
  have hholds : world.files.Holds path archive := FileTree.holds_iff.mpr ⟨hreach, mode, hnode⟩
  have hlisted : (Action.ofExcept .archive (Archive.readDirectory archive)).eval host world =
      (.ok entries, world) := by
    rw [Action.eval_ofExcept, hentries]
    rfl
  unfold isBundled
  rw [Action.eval_explain, Action.eval_bind_ok (Action.eval_readFile hholds), Action.eval_bind_ok hlisted, hfound]
  rfl

theorem inspect_eq_unpack (hreach : world.files.Reachable package.path)
    (hbundle : IsBundle world.files package.path) :
    (inspect java timeout workspace package).eval host world =
      (((unpack java timeout workspace package).eval host world).1.map fun payload => (payload, true),
        ((unpack java timeout workspace package).eval host world).2) := by
  unfold inspect
  rw [Action.eval_bind_ok (isBundled_true hreach hbundle), ← Action.eval_map, map_eq_pure_bind]
  rfl

/-- The file that some names lead to from the place of the payloads. -/
def jarAt (workspace : Workspace) (files : FileTree) (names : List String) : Option Node :=
  files.node? ((payloads workspace).normal files.here ++ names)

/-- The jars that were not there, or not as they are now. -/
def writtenJars (workspace : Workspace) (before after : FileTree) : List (List String) :=
  (jarsIn workspace after).filter fun names => jarAt workspace before names ≠ jarAt workspace after names

/-- The first jar was written exactly if a written one comes before each jar that was left. -/
theorem first_written_iff {written jars : List (List String)} {first : List String}
    (hjars : written ⊆ jars) (hmem : first ∈ jars) (hfirst : ∀ names ∈ jars, first ≤ names) :
    first ∈ written ↔ ∀ left ∈ jars, left ∉ written → ∃ names ∈ written, names < left := by
  constructor
  · intro hwritten left hleft hnot
    exact ⟨first, hwritten, lt_of_le_of_ne (hfirst left hleft) fun heq => hnot (heq ▸ hwritten)⟩
  · refine fun hpreceded => by_contra fun hnot => ?_
    obtain ⟨names, hwritten, hless⟩ := hpreceded first hmem hnot
    exact absurd (hfirst names (hjars hwritten)) (not_le.mpr hless)

/-- **Payloads.** A bundle that exits badly or leaves no jar is an error. The payload is the first of
the jars that are there when the bundle has exited with zero. The bundle wrote it exactly if it wrote
one that comes before each jar that was left from an earlier run, so always if none was. -/
theorem inspect_payload (hreach : world.files.Reachable package.path)
    (hbundle : IsBundle world.files package.path) :
    (∃ ending, Unpacked host java timeout workspace package world ending ∧
      (inspect java timeout workspace package).eval host world =
        (ending.1.map fun payload => (payload, true), ending.2)) ∧
    ∀ payload bundled after,
      (inspect java timeout workspace package).eval host world = (.ok (payload, bundled), after) →
        bundled = true ∧ ∃ first ∈ jarsIn workspace after.files,
          payload = payloadAt workspace package first ∧
          (first ∈ writtenJars workspace (laidOut workspace world).files after.files ↔
            ∀ left ∈ jarsIn workspace after.files,
              left ∉ writtenJars workspace (laidOut workspace world).files after.files →
                ∃ names ∈ writtenJars workspace (laidOut workspace world).files after.files,
                  names < left) := by
  have hunpacked := @unpack_unpacked host java timeout workspace package world hreach.noNull
  have hinspect := @inspect_eq_unpack host java timeout workspace package world hreach hbundle
  refine ⟨⟨_, hunpacked, hinspect⟩, fun payload bundled after hreturned => ?_⟩
  rw [hinspect] at hreturned
  generalize (unpack java timeout workspace package).eval host world = ending at hunpacked hreturned
  cases hunpacked with
  | @found result after first hran hstatus hmem hfirst =>
    obtain ⟨⟨⟩, rfl⟩ := Prod.mk.inj hreturned
    exact ⟨rfl, first, hmem, rfl, first_written_iff (List.filter_subset_self _) hmem hfirst⟩
  | _ => cases (Prod.mk.inj hreturned).1

/-! ### A workspace that was used before -/

/-- A bundle that unpacks version `1.1`. -/
def newer : Host :=
  { Host.idle with
    tools := fun _ call files =>
      (⟨call.argv, 0, "", "", 0⟩,
        files.put ["work", "unpacked", "versions", "1.1.jar"] (.file [1] 0o644)) }

/-- An earlier run left the payload of version `1.0`. -/
def used : World where
  files := ⟨[(["work"], .directory), (["work", "unpacked"], .directory),
    (["work", "unpacked", "versions"], .directory),
    (["work", "unpacked", "versions", "1.0.jar"], .file [0] 0o644),
    (["work", "server.jar"], .file (Archive.write [Strip.smallMember bundleMarker]) 0o644)], ["work"]⟩

/-- The directory and the bundle that are inspected. -/
def usedBundle : Artifact :=
  ⟨"raw", ⟨"", ["server.jar"]⟩, officialNamespace⟩

/-- The payload that was left is taken though the bundle unpacked another. -/
theorem inspect_payload_used :
    used.files.Reachable usedBundle.path ∧ IsBundle used.files usedBundle.path ∧
      ∃ after,
        (inspect "java" none ⟨⟨"", []⟩⟩ usedBundle).eval newer used =
          (.ok (payloadAt ⟨⟨"", []⟩⟩ usedBundle ["1.0.jar"], true), after) ∧
        writtenJars ⟨⟨"", []⟩⟩ used.files after.files = [["1.1.jar"]] ∧
        ∃ first ∈ jarsIn ⟨⟨"", []⟩⟩ after.files,
          payloadAt ⟨⟨"", []⟩⟩ usedBundle ["1.0.jar"] = payloadAt ⟨⟨"", []⟩⟩ usedBundle first ∧
          (first ∈ writtenJars ⟨⟨"", []⟩⟩ used.files after.files ↔
            ∀ left ∈ jarsIn ⟨⟨"", []⟩⟩ after.files,
              left ∉ writtenJars ⟨⟨"", []⟩⟩ used.files after.files →
                ∃ names ∈ writtenJars ⟨⟨"", []⟩⟩ used.files after.files, names < left) := by
  have hholds : used.files.Holds usedBundle.path (Archive.write [Strip.smallMember bundleMarker]) := by
    decide +kernel
  obtain ⟨hreach, -⟩ := FileTree.holds_iff.mp hholds
  have hentries : Archive.readDirectory (Archive.write [Strip.smallMember bundleMarker]) =
      .ok (Archive.foundMembers 0 [Strip.smallMember bundleMarker]) := by decide +kernel
  have hbundle : IsBundle used.files usedBundle.path :=
    ⟨_, 0o644, _, rfl, hentries, by decide +kernel⟩
  have hvalue : ((inspect "java" none ⟨⟨"", []⟩⟩ usedBundle).eval newer used).1.toOption =
      some (payloadAt ⟨⟨"", []⟩⟩ usedBundle ["1.0.jar"], true) := by decide +kernel
  have hreturned := Action.eq_of_value hvalue
  obtain ⟨-, hpayload⟩ := @inspect_payload newer "java" none ⟨⟨"", []⟩⟩ usedBundle used hreach hbundle
  obtain ⟨-, hnames⟩ := hpayload _ _ _ hreturned
  exact ⟨hreach, hbundle, _, hreturned, by decide +kernel, hnames⟩

end JarRefinery.Package
