import JarRefinery.Proofs.Archive.Names
import JarRefinery.Proofs.Json.Printing
import JarRefinery.Proofs.RunDirectory

/-!
# Records are read back

A run leaves two records: its event log, with a line for each event, and its report. Events and reports
whose data are plain are read back from the bytes of these files. An event goes to the end of its log,
so what stood there before still begins it.
-/

namespace JarRefinery

open FileTree.Action (eval eval_bind_ok eval_bind_error)
open Json (Plain ReadsAs)

/-! ### Plain records -/

namespace Json

theorem Plain.ofFields {fields : Fields} (hnodup : (fields.map (·.1)).Nodup)
    (hvalues : fields.Forall fun field => Plain field.2) : Plain (.object fields) :=
  .object hnodup (List.forall_iff_forall_mem.mp hvalues)

theorem Plain.ofOption (text : Option String) : Plain (.ofOption text) := by
  cases text with
  | none => exact .null
  | some text => exact .text text

theorem Plain.ofTexts (texts : List String) : Plain (.ofTexts texts) := by
  refine .list fun item hitem => ?_
  obtain ⟨text, -, rfl⟩ := List.mem_map.mp hitem
  exact .text text

end Json

/-- An event whose stage and data are plain. -/
structure Event.Plain (event : Event) : Prop where
  stage : event.stage.Plain
  data : (Json.object event.data).Plain

theorem Event.Plain.toJson {event : Event} (hplain : event.Plain) (time : String) :
    (event.toJson time).Plain := by
  exact .ofFields (by simp) ⟨.text _, .text _, .text _, hplain.stage, hplain.data⟩

theorem StageError.plain_toJson (error : StageError) : error.toJson.Plain := by
  exact .ofFields (by simp) ⟨.text _, .text _, .text _⟩

theorem ArtifactRef.plain_toJson (ref : ArtifactRef) : ref.toJson.Plain := by
  exact .ofFields (by simp) ⟨.text _, .integer _, .text _, .ofOption _⟩

/-- A result whose outputs and metrics are plain. -/
structure StageResult.Plain (result : StageResult) : Prop where
  outputs : (Json.object result.output.outputs).Plain
  metrics : (Json.object result.output.metrics).Plain

theorem StageResult.Plain.toJson {result : StageResult} (hplain : result.Plain) :
    result.toJson.Plain := by
  have hartifacts : (Json.list (result.output.artifacts.map ArtifactRef.toJson)).Plain := by
    refine .list fun item hitem => ?_
    obtain ⟨ref, -, rfl⟩ := List.mem_map.mp hitem
    exact ref.plain_toJson
  refine .ofFields (by simp) ⟨.text _, .text _, .text _, .text _, .integer _, hplain.outputs,
    hplain.metrics, .ofTexts _, hartifacts, ?_⟩
  cases result.error with
  | none => exact .null
  | some error => exact error.plain_toJson

/-- A report whose results and notes are plain. -/
structure RunReport.Plain (report : RunReport) : Prop where
  stages : ∀ result ∈ report.stages, result.Plain
  notes : (Json.object report.notes).Plain

theorem RunReport.Plain.toFields {report : RunReport} (hplain : report.Plain) :
    (Json.object report.toFields).Plain := by
  have hstages : (Json.list (report.stages.map StageResult.toJson)).Plain := by
    refine .list fun item hitem => ?_
    obtain ⟨result, hresult, rfl⟩ := List.mem_map.mp hitem
    exact (hplain.stages result hresult).toJson
  exact .ofFields (by simp [RunReport.toFields]) ⟨.text _, .text _, .text _, .text _, .integer _,
    hstages, .ofOption _, hplain.notes⟩

/-! ### Lines -/

namespace Json

/-- The bytes hold the values, each on a line of its own that a line feed ends. -/
def AreLines (bytes : Bytes) (values : List Json) : Prop :=
  ∃ chars lines, Text.Utf8.decode bytes = .ok chars ∧ chars.splitOn '\n' = lines ++ [[]] ∧
    List.Forall₂ ReadsAs lines values

/-- The bytes hold the value and nothing else. -/
def IsDocument (bytes : Bytes) (value : Json) : Prop :=
  ∃ chars, Text.Utf8.decode bytes = .ok chars ∧ ReadsAs chars value

end Json

/-- Lines without line feeds come back from the text that has one after each of them. -/
theorem splitOn_lines {lines : List (List Char)} (hlines : ∀ line ∈ lines, '\n' ∉ line) :
    (lines.flatMap (· ++ ['\n'])).splitOn '\n' = lines ++ [[]] := by
  have hjoined : lines.flatMap (· ++ ['\n']) = ['\n'].intercalate (lines ++ [[]]) := by
    clear hlines
    induction lines with
    | nil => rfl
    | cons line rest ih =>
      rw [List.flatMap_cons, ih]
      cases rest <;> simp [List.intercalate]
  rw [hjoined]
  refine List.splitOn_intercalate '\n' ?_ (by simp)
  simpa [or_imp, forall_and] using hlines

namespace Pipeline

theorem areLines_events (host : Host) {events : List Event} (hplain : ∀ event ∈ events, event.Plain) :
    Json.AreLines (events.flatMap (line host)) (events.map (Event.toJson host.clock)) := by
  let text : Event → List Char := fun event => (event.toJson host.clock).print.toList
  have hbytes : events.flatMap (line host) =
      Text.Utf8.encode (String.ofList ((events.map text).flatMap (· ++ ['\n']))) := by
    have hline : line host = fun event => Text.Utf8.encode ((event.toJson host.clock).print ++ "\n") :=
      rfl
    simp [hline, Text.Utf8.encode, text, List.flatMap_map, List.flatMap_assoc]
  have hlines : ∀ chars ∈ events.map text, '\n' ∉ chars := by
    intro chars hchars
    obtain ⟨event, hevent, rfl⟩ := List.mem_map.mp hchars
    exact ((hplain event hevent).toJson host.clock).lineFeed_notMem_print
  refine ⟨_, events.map text, ?_, splitOn_lines hlines, ?_⟩
  · rw [hbytes, Text.Utf8.decode_encode, String.toList_ofList]
  · rw [List.forall₂_map_left_iff, List.forall₂_map_right_iff, List.forall₂_same]
    exact fun event hevent => ((hplain event hevent).toJson host.clock).reads_print

end Pipeline

/-! ### Files that go on -/

namespace FileTree

variable {tree : FileTree} {path : Path}

/-- What the file that a path names holds; nothing if there is none. -/
def held (tree : FileTree) (path : Path) : Bytes :=
  (opened (tree.node? (path.normal tree.here))).1

theorem Holds.held (contents : Bytes) (hholds : tree.Holds path contents) :
    tree.held path = contents := by
  obtain ⟨-, mode, hnode⟩ := holds_iff.mp hholds
  unfold FileTree.held
  rw [hnode]
  rfl

/-- A file that was put is read. -/
theorem Reachable.holds_put (hreach : tree.Reachable path)
    (hnode : tree.node? (path.normal tree.here) ≠ some .directory) (contents : Bytes) (mode : Nat) :
    (tree.put (path.normal tree.here) (.file contents mode)).Holds path contents := by
  have hroot : path.normal tree.here ≠ [] := fun heq => hnode (by rw [heq, node?_root])
  refine holds_iff.mpr ⟨(Change.putFile hnode).reachable hreach, mode, ?_⟩
  change (tree.put _ _).node? (path.normal tree.here) = _
  simp [node?_put, hroot]

/-- A file that was written is read as it was written. -/
theorem holds_of_eval_writeFile {contents : Bytes} {value : Unit} {after : FileTree}
    (heval : eval (writeFile path contents) tree = (.ok value, after)) : after.Holds path contents := by
  rcases writeFile_cases tree path contents with ⟨hreach, hwrite, mode, hput⟩ | ⟨-, error, herror⟩
  · obtain rfl : tree.put (path.normal tree.here) (.file contents mode) = after :=
      congrArg Prod.snd (hput.symm.trans heval)
    exact hreach.holds_put hwrite.1 contents mode
  · cases herror.symm.trans heval

/-- What is appended follows what was held. -/
theorem holds_of_eval_appendFile {contents : Bytes} {value : Unit} {after : FileTree}
    (heval : eval (appendFile path contents) tree = (.ok value, after)) :
    tree.node? (path.normal tree.here) ≠ some .directory ∧
      after.Holds path (tree.held path ++ contents) := by
  unfold appendFile at heval
  rcases opening_cases tree path with ⟨hreach, hwrite, hopening⟩ | ⟨-, error, herror⟩
  · rw [eval_bind_ok hopening] at heval
    obtain ⟨-, rfl⟩ := Prod.mk.inj heval
    exact ⟨hwrite.1, hreach.holds_put hwrite.1 _ _⟩
  · rw [eval_bind_error herror] at heval
    cases heval

end FileTree

/-! ### The event log -/

namespace EventLog

variable {host : Host} {log : EventLog} {path : Path} {world begun : World}

/-- An event that was told of follows what the log held. -/
theorem holds_of_eval_append {event : Event} {after : World}
    (heval : (log.append event).eval host world = (.ok (), after)) :
    world.files.node? (log.path.normal world.files.here) ≠ some .directory ∧
      after.files.Holds log.path (world.files.held log.path ++ Pipeline.line host event) := by
  unfold append at heval
  rw [Action.eval_bind_ok (Action.eval_read host world)] at heval
  obtain ⟨files, happend, rfl⟩ := Action.of_eval_onFiles_ok heval
  exact FileTree.holds_of_eval_appendFile happend

/-- Where the log is a file, an event goes to its end. -/
theorem eval_append {contents : Bytes} (hholds : world.files.Holds log.path contents) (event : Event) :
    ∃ after, (log.append event).eval host world = (.ok (), after) ∧
      after.files.Holds log.path (contents ++ Pipeline.line host event) := by
  obtain ⟨hreach, mode, hnode⟩ := FileTree.holds_iff.mp hholds
  have heval : (log.append event).eval host world = (.ok (), { world with
      files := world.files.put (log.path.normal world.files.here)
        (.file (contents ++ Pipeline.line host event) mode) }) := by
    unfold append
    rw [Action.eval_bind_ok (Action.eval_read host world), Action.eval_onFiles,
      hreach.eval_appendFile hnode]
    rfl
  have hafter := (holds_of_eval_append heval).2
  rw [hholds.held] at hafter
  exact ⟨_, heval, hafter⟩

/-- Where the log is a file, all events go to its end, one after the other. -/
theorem eval_appends (events : List Event) {contents : Bytes}
    (hholds : world.files.Holds log.path contents) :
    ∃ after, (events.forM log.append).eval host world = (.ok (), after) ∧
      after.files.Holds log.path (contents ++ events.flatMap (Pipeline.line host)) := by
  induction events generalizing world contents with
  | nil => exact ⟨world, rfl, by simpa using hholds⟩
  | cons event rest ih =>
    obtain ⟨middle, happend, hmiddle⟩ := eval_append hholds event
    obtain ⟨after, hrest, hafter⟩ := ih hmiddle
    refine ⟨after, ?_, by simpa using hafter⟩
    rw [List.forM_eq_forM] at hrest ⊢
    rw [List.forM_cons, Action.eval_bind_ok happend]
    exact hrest

/-- The event that a log begins with where the run takes place at `here`. -/
def place (host : Host) (here : Location) : Event :=
  ⟨"run.env", "__init__", .null, [("hostname", .text host.hostName), ("pid", .ofNat host.processId),
    ("cwd", .text (Path.ofLocation here).toString)]⟩

theorem eval_placeEvent (host : Host) (world : World) :
    placeEvent.eval host world = (.ok (place host world.files.here), world) :=
  rfl

theorem plain_place (host : Host) (here : Location) : (place host here).Plain where
  stage := .null
  data := .ofFields (by simp [place]) ⟨.text _, .integer _, .text _⟩

/-- A log begins after what was there before, with the event that tells where the run takes place. -/
theorem holds_of_eval_start (hstart : (start path).eval host world = (.ok log, begun)) :
    log.path = path ∧ begun.files.Holds path
      (world.files.held path ++ Pipeline.line host (place host world.files.here)) := by
  unfold start at hstart
  obtain ⟨_, ready, hready, hstart⟩ := Action.of_eval_bind_ok hstart
  obtain ⟨files, hmade, rfl⟩ := Action.of_eval_onFiles_ok hready
  have hchange : Change { made := path.parent.trail world.files.here } world.files files := by
    simpa [hmade] using (FileTree.ensureDirectories_spec world.files path.parent).1
  have hplace : placeEvent.eval host { world with files } =
      (.ok (place host world.files.here), { world with files }) :=
    hchange.here ▸ eval_placeEvent host { world with files }
  simp only [Action.eval_bind_ok hplace] at hstart
  obtain ⟨_, after, happend, hstart⟩ := Action.of_eval_bind_ok hstart
  obtain ⟨hlog, rfl⟩ := Prod.mk.inj hstart
  obtain rfl := Except.ok.inj hlog
  obtain ⟨hnode, hholds⟩ := holds_of_eval_append happend
  -- Only a directory may have been made at the path, and none can be appended to.
  have hheld : files.held path = world.files.held path := by
    unfold FileTree.held
    rw [hchange.here] at hnode ⊢
    rcases hchange.same_or_made (Set.notMem_empty _) (Set.notMem_empty _) with hsame | ⟨-, -, hmade⟩
    · rw [hsame]
    · exact absurd hmade hnode
  exact ⟨rfl, hheld ▸ hholds⟩

end EventLog

/-! ### Both records -/

theorem RunReport.holds_of_eval_write {host : Host} {path : Path} {report : RunReport}
    {world after : World} (hwrite : (report.write path).eval host world = (.ok (), after)) :
    after.files.Holds path (Text.Utf8.encode report.toText) := by
  unfold write at hwrite
  obtain ⟨_, ready, -, hwrite⟩ := Action.of_eval_bind_ok hwrite
  obtain ⟨files, hwritten, rfl⟩ := Action.of_eval_onFiles_ok hwrite
  exact FileTree.holds_of_eval_writeFile hwritten

/-- An event with nested data, and a text in it that has to be escaped. -/
def notedEvent : Event :=
  ⟨"note", "1", .null, [("text", .text "\"\n"), ("items", .list [.integer (-1), .object []])]⟩

theorem plain_notedEvent : notedEvent.Plain where
  stage := .null
  data := .ofFields (by decide)
    ⟨.text _, .list (by simpa using ⟨.integer _, .object (by decide) (by simp)⟩)⟩

/-- A report with the same data for its notes. -/
def notedReport : RunReport :=
  ⟨"1", "", "", .success, 0, [], none, notedEvent.data⟩

end JarRefinery
