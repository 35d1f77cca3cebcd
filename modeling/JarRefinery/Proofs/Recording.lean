import Mathlib.Data.Bool.AllAny
import Mathlib.Data.List.Nodup
import JarRefinery.Proofs.Digests
import JarRefinery.Proofs.StageFrames

/-!
# What the stages record

A stage records a file once it is complete, and changes nothing afterwards that it recorded. So the
references that it gives still name the files that were read for them when it ends.
-/

namespace JarRefinery

open Action (any Leads)
open FileTree (IsDocument IsFileName Named)

/-! ### References -/

/-- Seen from this directory the path of the reference leads to the place, where there is a file with
the bytes that the reference tells of. -/
structure ArtifactRef.StandsAt (ref : ArtifactRef) (root : Path) (files : FileTree)
    (location : Location) : Prop where
  path : Path.normal files.here (root / ref.path) = location
  file : ∃ contents mode, files.node? location = some (.file contents mode) ∧
    ref.bytes = contents.length ∧ ref.sha256 = Bytes.hex (Sha256.hash.digest contents)

theorem ArtifactRef.StandsAt.after {ref : ArtifactRef} {root : Path} {files after : FileTree}
    {location : Location} (hstands : ref.StandsAt root files location) (hhere : after.here = files.here)
    (hkept : ∀ contents mode, files.node? location = some (.file contents mode) →
      after.node? location = some (.file contents mode)) : ref.StandsAt root after location := by
  obtain ⟨contents, mode, hnode, hdigest⟩ := hstands.file
  exact ⟨hhere ▸ hstands.path, contents, mode, hkept _ _ hnode, hdigest⟩

/-- The path goes on from the directory by these names. -/
def Path.GoesOn (root path : Path) (names : List String) : Prop :=
  path = ⟨root.root, root.parts ++ names⟩

namespace Path.GoesOn

variable {root path : Path} {names more : List String}

theorem trans {other : Path} (hpath : root.GoesOn path names) (hother : path.GoesOn other more) :
    root.GoesOn other (names ++ more) := by
  obtain rfl : path = _ := hpath
  obtain rfl : other = _ := hother
  rw [GoesOn, List.append_assoc]

theorem normal (hpath : root.GoesOn path names) (hnamed : Named names) (here : Location) :
    path.normal here = root.normal here ++ names := by
  obtain rfl : path = _ := hpath
  rw [normal_eq, walk_append, walk_eq_append hnamed.noDots]
  rfl

theorem below? (hpath : root.GoesOn path names) : root.below? path = some ⟨"", names⟩ := by
  obtain rfl : path = _ := hpath
  unfold Path.below?
  by_cases hempty : root.root = "" ∧ root.parts = []
  · simp [hempty]
  · simp [hempty]

/-- The text of the names leads back to the path. -/
theorem div_toString (hpath : root.GoesOn path names) (hnamed : Named names) :
    root / Path.toString ⟨"", names⟩ = path := by
  change root.join (ofString (toString ⟨"", names⟩)) = path
  rw [ofString_toString_of_named hnamed]
  exact Eq.symm hpath

end Path.GoesOn

theorem FileTree.IsDocument.goesOn {name : String} (hname : IsDocument name) (root : Path) :
    root.GoesOn (root / name) [name] :=
  hname.div_eq root

/-! ### Jars of a bundle -/

/-- The path leads from the directory to a jar below it. -/
def Package.IsJarBelow (directory path : Path) : Prop :=
  ∃ front last, Named (front ++ [last]) ∧ Text.endsWith ".jar" last = true ∧
    directory.GoesOn path (front ++ [last])

theorem Package.findPayload_jar {d : Discipline} (hwell : ∀ world, d.inv world → world.files.WellNamed)
    (directory : Path) :
    (findPayload directory).Keeps d fun found => ∀ path ∈ found, IsJarBelow directory path := by
  unfold findPayload
  refine (isDirectory_keeps _).andThen fun found => ?_
  cases found with
  | false => exact .pure (by simp)
  | true =>
    refine (locating_keeps _).andThen fun location => ?_
    refine .bind (.get fun world _ hinv => hwell world hinv) fun world hworld => .pure ?_
    intro path hpath
    obtain ⟨names, hleast, rfl⟩ := Option.map_eq_some_iff.mp hpath
    obtain ⟨⟨contents, mode, hbelow⟩, front, last, rfl, hjar⟩ := of_mem_jarsBelow (least?_mem hleast)
    have hnamed : Named ("versions" :: front ++ [last]) := by
      rintro name (_ | ⟨_, hmem⟩)
      · exact ⟨by decide, by decide, by decide⟩
      · exact (hworld.of_mem_below hbelow).2 name hmem
    refine ⟨"versions" :: front, last, hnamed, hjar, ?_⟩
    have hversions : directory / payloadsDirectory = ⟨directory.root, directory.parts ++ ["versions"]⟩ :=
      Path.div_of_single (by decide) directory
    rw [hversions]
    simp [Path.GoesOn]

/-! ### Places -/

namespace Stage

/-- The first names of the places in the workspace that the stages touch. -/
def owners (side : String) : List (String × String) :=
  [("fetch", side ++ ".jar"), ("unpack", "unpacked"), ("sanitize", side ++ "-stripped.jar"),
    ("mappings", "mappings"), ("remap", "build"), ("decompile", "sources")]

/-- No two stages have the same first name, and none has the one of the libraries. -/
theorem owners_unique {side first stage : String} (hside : side ∈ Settings.sides)
    (hstage : (stage, first) ∈ owners side) :
    first ≠ "libraries" ∧ ∀ other, (other, first) ∈ owners side → stage = other := by
  have hkeys : ∀ side ∈ Settings.sides, ((owners side).map (·.2)).Nodup ∧
      "libraries" ∉ (owners side).map (·.2) := by decide
  obtain ⟨hnodup, hlibraries⟩ := hkeys side hside
  refine ⟨?_, fun other hother => ?_⟩
  · rintro rfl
    exact hlibraries (List.mem_map_of_mem hstage)
  · exact congrArg Prod.fst (List.inj_on_of_nodup_map hnodup hstage hother rfl)

variable {workspace : Workspace} {side : String} {here location : Location}

theorem isDocument_side (hside : side ∈ Settings.sides) :
    IsDocument (side ++ ".jar") ∧ IsDocument (side ++ "-stripped.jar") := by
  simp only [Settings.sides, List.mem_cons, List.not_mem_nil, or_false] at hside
  rcases hside with rfl | rfl
  · exact ⟨⟨by decide, 'a', by decide, by decide⟩, ⟨by decide, 'a', by decide, by decide⟩⟩
  · exact ⟨⟨by decide, 'a', by decide, by decide⟩, ⟨by decide, 'a', by decide, by decide⟩⟩

theorem isDocument_mapped {name : String}
    (hname : name = intermediaryNamespace ∨ name = namedNamespace) :
    IsDocument (name ++ "-mapped." ++ "jar") := by
  rcases hname with rfl | rfl
  · exact ⟨by decide, 'a', by decide, by decide⟩
  · exact ⟨by decide, 'a', by decide, by decide⟩

/-- Each stage keeps to its own first names. -/
theorem Touches.owned (hside : side ∈ Settings.sides) {documents : List String} {stage : String}
    (htouches : Touches workspace side documents here stage location) :
    ∃ first rest, (stage, first) ∈ owners side ∧
      location = workspace.root.normal here ++ first :: rest := by
  have hdirectory : ∀ {name : String}, Path.ofString name = ⟨"", [name]⟩ → name ≠ ".." →
      ∀ rest : List String, Path.normal here (workspace.root / name) ++ rest =
        workspace.root.normal here ++ name :: rest := by
    intro name hsingle hdots rest
    rw [Path.normal_div_of_single hsingle hdots, List.append_assoc, List.singleton_append]
  cases htouches with
  | primary =>
    exact ⟨_, [], by simp [owners], (isDocument_side hside).1.normal_div _ _⟩
  | unpacked hbelow =>
    obtain ⟨rest, rfl⟩ := hbelow
    exact ⟨_, rest, by simp [owners], hdirectory (by decide) (by decide) rest⟩
  | stripped =>
    exact ⟨_, [], by simp [owners], (isDocument_side hside).2.normal_div _ _⟩
  | document hmem =>
    exact ⟨_, _, by simp [owners], hdirectory (by decide) (by decide) _⟩
  | @mapped name hname =>
    refine ⟨"build", [name ++ "-mapped." ++ "jar"], by simp [owners], ?_⟩
    rw [Workspace.mapped, (isDocument_mapped hname).normal_div]
    exact hdirectory (by decide) (by decide) _
  | source hbelow =>
    obtain ⟨rest, rfl⟩ := hbelow
    exact ⟨_, rest, by simp [owners], hdirectory (by decide) (by decide) rest⟩

/-- What two stages touch is apart. -/
theorem Touches.unique (hside : side ∈ Settings.sides) {documents others : List String}
    {stage other : String} (htouches : Touches workspace side documents here stage location)
    (hother : Touches workspace side others here other location) : stage = other := by
  obtain ⟨first, rest, hfirst, rfl⟩ := htouches.owned hside
  obtain ⟨second, rest', hsecond, heq⟩ := hother.owned hside
  obtain ⟨rfl, -⟩ := List.cons.inj (List.append_cancel_left heq)
  exact (owners_unique hside hfirst).2 other hsecond

/-- No stage touches a library. -/
theorem Touches.not_library (hside : side ∈ Settings.sides) {documents : List String}
    {stage : String} (htouches : Touches workspace side documents here stage location) :
    ¬workspace.librariesDirectory.normal here <+: location := by
  rintro ⟨rest, rfl⟩
  obtain ⟨first, rest', hfirst, heq⟩ := htouches.owned hside
  rw [Workspace.librariesDirectory, Path.normal_div_of_single (by decide) (by decide),
    List.append_assoc] at heq
  exact (owners_unique hside hfirst).1
    (List.cons.inj (List.append_cancel_left heq)).1.symm

/-- The files that a stage may record. -/
inductive Makes (workspace : Workspace) (side : String) : String → Path → Prop
  | primary : Makes workspace side "fetch" (workspace.primary side)
  | payload {path : Path} : Package.IsJarBelow workspace.unpackDirectory path →
    Makes workspace side "unpack" path
  | stripped : Makes workspace side "sanitize" (workspace.stripped side)
  | document {name : String} : IsDocument name →
    Makes workspace side "mappings" (workspace.mapping name)
  | mapped {name : String} : name = intermediaryNamespace ∨ name = namedNamespace →
    Makes workspace side "remap" (workspace.mapped name "jar")

/-- They stand in the workspace and have names that neither event logs nor reports have. -/
theorem Makes.goesOn (hside : side ∈ Settings.sides) {stage : String} {path : Path}
    (hmakes : Makes workspace side stage path) : ∃ front last,
      workspace.root.GoesOn path (front ++ [last]) ∧ Named (front ++ [last]) ∧
        ∃ c ∈ ['a', 'y', 'z'], c ∈ last.toList := by
  have hsingle : ∀ {name : String}, IsDocument name → Named [name] := by
    rintro name hname _ (_ | ⟨_, ⟨⟩⟩)
    exact hname.isFileName
  have hplain : ∀ name : String, Path.ofString name = ⟨"", [name]⟩ → IsFileName name →
      workspace.root.GoesOn (workspace.root / name) [name] ∧ Named [name] := by
    intro name hname hfile
    refine ⟨Path.div_of_single hname _, ?_⟩
    rintro _ (_ | ⟨_, ⟨⟩⟩)
    exact hfile
  cases hmakes with
  | primary =>
    have hname := (isDocument_side hside).1
    exact ⟨[], _, hname.goesOn _, hsingle hname, hname.letter⟩
  | payload hjar =>
    obtain ⟨front, last, hnamed, hends, hpath⟩ := hjar
    have hunpacked := hplain "unpacked" (by decide) ⟨by decide, by decide, by decide⟩
    refine ⟨"unpacked" :: front, last, hunpacked.1.trans hpath, hunpacked.2.append hnamed,
      'a', by decide, ?_⟩
    obtain ⟨rest, hrest⟩ := List.isSuffixOf_iff_suffix.mp hends
    rw [← hrest]
    exact List.mem_append_right _ (by decide)
  | stripped =>
    have hname := (isDocument_side hside).2
    exact ⟨[], _, hname.goesOn _, hsingle hname, hname.letter⟩
  | document hname =>
    have hmappings := hplain "mappings" (by decide) ⟨by decide, by decide, by decide⟩
    exact ⟨["mappings"], _, hmappings.1.trans (hname.goesOn _), hmappings.2.append (hsingle hname),
      hname.letter⟩
  | mapped hname =>
    have hbuild := hplain "build" (by decide) ⟨by decide, by decide, by decide⟩
    have hname := isDocument_mapped hname
    exact ⟨["build"], _, hbuild.1.trans (hname.goesOn _), hbuild.2.append (hsingle hname),
      hname.letter⟩

theorem Makes.touches {stage : String} {path : Path} (hmakes : Makes workspace side stage path) :
    ∃ documents, Touches workspace side documents here stage (path.normal here) := by
  cases hmakes with
  | primary => exact ⟨[], .primary⟩
  | payload hjar =>
    obtain ⟨front, last, hnamed, -, hpath⟩ := hjar
    exact ⟨[], .unpacked (hpath.normal hnamed here ▸ List.prefix_append _ _)⟩
  | stripped => exact ⟨[], .stripped⟩
  | @document name hname =>
    exact ⟨[name], hname.normal_div workspace.mappingsDirectory here ▸ .document List.mem_cons_self⟩
  | mapped hname => exact ⟨[], .mapped hname⟩

/-- A name without such a letter is none of a file that a stage may record. -/
theorem Makes.normal_ne (hside : side ∈ Settings.sides) {stage : String} {path : Path}
    (hmakes : Makes workspace side stage path) {name : String}
    (hname : ∀ c ∈ ['a', 'y', 'z'], c ∉ name.toList) (front : Location) :
    path.normal here ≠ front ++ [name] := by
  obtain ⟨names, last, hpath, hnamed, c, hletter, hlast⟩ := hmakes.goesOn hside
  rw [hpath.normal hnamed here, ← List.append_assoc]
  intro heq
  obtain rfl : last = name := List.singleton_inj.mp (List.append_inj_right' heq rfl)
  exact hname c hletter hlast

end Stage

/-! ### Recording -/

/-- Every reference names a file that stands at one of the places. -/
structure Recorded (host : Host) (here : Location) (run : Run) (place : Set Location)
    (refs : List ArtifactRef) (world : World) : Prop where
  ready : (framed host here run ∅).Ready world
  stands : ∀ ref ∈ refs, ∃ location ∈ place, ref.StandsAt run.workspace.root world.files location

/-- Nothing at these places is touched, and no library is there. -/
def Clear (run : Run) (here : Location) (touched place : Set Location) : Prop :=
  ∀ location ∈ place, location ∉ touched ∧
    ¬run.workspace.librariesDirectory.normal here <+: location

variable {host : Host} {here : Location} {run : Run} {touched place larger : Set Location}
  {refs : List ArtifactRef}

theorem Clear.mono (hclear : Clear run here larger place) (hsubset : touched ⊆ larger) :
    Clear run here touched place :=
  fun location hmem => ⟨fun htouched => (hclear location hmem).1 (hsubset htouched),
    (hclear location hmem).2⟩

theorem Clear.union {other : Set Location} (hclear : Clear run here touched place)
    (hother : Clear run here touched other) : Clear run here touched (place ∪ other) :=
  fun location hmem => hmem.elim (hclear location) (hother location)

namespace Recorded

variable {before after world : World}

theorem start (hready : (framed host here run touched).Ready world) :
    Recorded host here run place [] world :=
  ⟨⟨hready.here, hready.inv⟩, by simp⟩

theorem mono (hrecorded : Recorded host here run place refs world) (hsubset : place ⊆ larger) :
    Recorded host here run larger refs world where
  ready := hrecorded.ready
  stands ref href := by
    obtain ⟨location, hmem, hstands⟩ := hrecorded.stands ref href
    exact ⟨location, hsubset hmem, hstands⟩

/-- References stay right while nothing is touched at their places. -/
theorem after_step (hrecorded : Recorded host here run place refs before)
    (hstep : (framed host here run touched).step before after) (hhere : after.files.here = here)
    (hclear : refs = [] ∨ Clear run here touched place) :
    Recorded host here run place refs after where
  ready := ⟨hhere, (framed host here run touched).keep hstep hrecorded.ready.inv⟩
  stands ref href := by
    obtain ⟨location, hmem, hstands⟩ := hrecorded.stands ref href
    have hkept := hclear.resolve_left (List.ne_nil_of_mem href) location hmem
    exact ⟨location, hmem, hstands.after (hhere.trans hrecorded.ready.here.symm)
      fun contents mode => hstep.1.node hkept.1 hkept.2⟩

end Recorded

/-- The references are right afterwards if those given before were. -/
def Action.Records {α : Type} (host : Host) (here : Location) (run : Run) (place : Set Location)
    (refs : List ArtifactRef) (action : Action α) (larger : Set Location)
    (after : α → List ArtifactRef) : Prop :=
  Leads host (Recorded host here run place refs) action
    (fun value => Recorded host here run larger (after value)) fun _ => True

namespace Action.Records

variable {α β : Type} {after : α → List ArtifactRef} {last : β → List ArtifactRef}

theorem pure {value : α} (hafter : after value = refs) :
    Records host here run place refs (Pure.pure value) place after :=
  Leads.pure fun _ hrecorded => hafter ▸ hrecorded

theorem throw {fault : Fault} :
    Records host here run place refs (MonadExcept.throw fault : Action α) larger after :=
  Leads.throw fun _ _ => trivial

theorem bind {middle : Set Location} {action : Action α} {next : α → Action β}
    (haction : Records host here run place refs action middle after)
    (hnext : ∀ value, Records host here run middle (after value) (next value) larger last) :
    Records host here run place refs (action >>= next) larger last :=
  Leads.bind haction hnext

/-- Where nothing is recorded nothing has to stand anywhere. -/
theorem of_keeps {action : Action α}
    (hkeeps : action.Keeps (framed host here run touched) fun value => after value = []) :
    Records host here run place [] action larger after := by
  refine ⟨fun {world ending value} hrecorded heval => ?_, fun _ _ => trivial⟩
  have hready : (framed host here run touched).Ready world :=
    ⟨hrecorded.ready.here, hrecorded.ready.inv⟩
  rw [hkeeps.value hready.here hready.inv heval]
  exact .start (hready.evaluated hkeeps heval).1

/-- What keeps to a frame leaves alone what was recorded outside of it. -/
theorem thenKeeps {action : Action α} {next : α → Action β} {gives : α → Prop}
    (hclear : refs = [] ∨ Clear run here touched place)
    (hkeeps : action.Keeps (framed host here run touched) gives)
    (hnext : ∀ value, gives value → Records host here run place refs (next value) larger last) :
    Records host here run place refs (action >>= next) larger last := by
  have haction : Leads host (Recorded host here run place refs) action
      (fun value world => gives value ∧ Recorded host here run place refs world) fun _ => True := by
    refine ⟨fun {world after value} hrecorded heval => ?_, fun _ _ => trivial⟩
    have hready : (framed host here run touched).Ready world :=
      ⟨hrecorded.ready.here, hrecorded.ready.inv⟩
    obtain ⟨hafter, hstep⟩ := hready.evaluated hkeeps heval
    exact ⟨hkeeps.value hready.here hready.inv heval, hrecorded.after_step hstep hafter.here hclear⟩
  exact Leads.bind haction fun value => .known (hnext value)

/-- What was handed on is known to be of the run. -/
theorem thenHanded {next : RunState → Action β}
    (hnext : ∀ state, Handed run state → Records host here run place [] (next state) larger last) :
    Records host here run place [] (Run.handed >>= next) larger last := by
  have hhanded : Run.handed.Keeps (framed host here run ∅) (Handed run) :=
    Stage.handed_keeps framed.hands
  exact thenKeeps (.inl rfl) hhanded hnext

theorem weaken {action : Action α} {smaller more : Set Location}
    (haction : Records host here run place refs action larger after) (hsmaller : smaller ⊆ place)
    (hmore : larger ⊆ more) : Records host here run smaller refs action more after :=
  Leads.weaken haction (fun _ hrecorded => hrecorded.mono hsmaller)
    fun _ _ hrecorded => hrecorded.mono hmore

/-- Before anything is recorded it does not matter where. -/
theorem fresh {action : Action α} {other : Set Location}
    (haction : Records host here run other [] action larger after) :
    Records host here run place [] action larger after :=
  Leads.weaken haction (fun _ hrecorded => ⟨hrecorded.ready, by simp⟩) fun _ _ hrecorded => hrecorded

theorem mapM {items : List α} {action : α → Action ArtifactRef}
    (haction : ∀ item ∈ items, ∀ refs, Records host here run place refs (action item) place
      fun ref => refs ++ [ref]) :
    Records host here run place refs (items.mapM action) place fun found => refs ++ found := by
  induction items generalizing refs with
  | nil => exact .pure (List.append_nil refs)
  | cons item rest ih =>
    rw [List.mapM_cons]
    refine (haction item List.mem_cons_self refs).bind fun first => ?_
    refine (ih fun item hitem => haction item (List.mem_cons_of_mem _ hitem)).bind fun others => ?_
    exact .pure (List.append_cons refs first others)

variable (hrun : run.IsWritten here)

include hrun

/-- Events are told beside what is recorded. -/
theorem emit_framed (stage kind : String) (data : Json.Fields) :
    (run.emit stage kind data).Keeps (framed host here run {run.events.path.normal here}) any :=
  Run.emit_keeps (Discipline.framing.allowsWritten hrun.here hrun.events (Set.mem_singleton _)) stage kind data

/-- A file in the workspace is recorded. -/
theorem record {path : Path} {names : List String} (hpath : run.workspace.root.GoesOn path names)
    (hnamed : Named names) (hclear : Clear run here {run.events.path.normal here} place)
    (hmem : path.normal here ∈ place) (stage : String) (contentType : Option String) :
    Records host here run place refs (run.recordArtifact stage contentType path) place
      fun ref => refs ++ [ref] := by
  refine ⟨fun {world after ref} hrecorded heval => ?_, fun _ _ => trivial⟩
  unfold Run.recordArtifact at heval
  obtain ⟨digest, middle, hdigest, htells⟩ := of_eval_bind_ok heval
  obtain ⟨_, told, htold, hends⟩ := of_eval_bind_ok htells
  obtain ⟨rfl, contents, mode, hnode, hbytes, hsha256⟩ := FileDigest.of_eval_ofFile_ok hdigest
  obtain ⟨hvalue, rfl⟩ := Prod.mk.inj hends
  obtain rfl := Except.ok.inj hvalue
  have href : (Run.artifactRef run.workspace path digest contentType).StandsAt run.workspace.root
      middle.files (path.normal here) := by
    have hhere : middle.files.here = here := hrecorded.ready.here
    rw [hhere] at hnode
    refine ⟨?_, contents, mode, hnode, hbytes, hsha256⟩
    change Path.normal middle.files.here
      (run.workspace.root / ((run.workspace.root.below? path).getD path).toString) = _
    rw [hpath.below?, Option.getD_some, hpath.div_toString hnamed, hhere]
  have hmore : Recorded host here run place
      (refs ++ [Run.artifactRef run.workspace path digest contentType]) middle := by
    refine ⟨hrecorded.ready, fun other hother => ?_⟩
    rcases List.mem_append.mp hother with hbefore | hlast
    · exact hrecorded.stands other hbefore
    · exact ⟨_, hmem, List.mem_singleton.mp hlast ▸ href⟩
  have hready : (framed host here run {run.events.path.normal here}).Ready middle :=
    ⟨hmore.ready.here, hmore.ready.inv⟩
  obtain ⟨hafter, hstep⟩ := hready.evaluated (emit_framed hrun _ _ _) htold
  exact hmore.after_step hstep hafter.here (.inr hclear)

end Action.Records

/-! ### The stages -/

namespace Stage

open Action (Records)
open Action.Records (emit_framed)

/-- The places of the files that a stage may record. -/
def stores (run : Run) (here : Location) (stage : String) : Set Location :=
  {location | ∃ path, Makes run.workspace run.side stage path ∧ path.normal here = location}

theorem stores_touches {stage : String} {location : Location}
    (hmem : location ∈ stores run here stage) :
    ∃ documents, Touches run.workspace run.side documents here stage location := by
  obtain ⟨path, hmakes, rfl⟩ := hmem
  exact hmakes.touches

variable (hrun : run.IsWritten here) (hside : run.side ∈ Settings.sides)

include hside

/-- What is only touched elsewhere leaves alone what a stage records. -/
theorem stores_clear {stage : String} (htouched : ∀ location ∈ stores run here stage,
    location ∉ touched) : Clear run here touched (stores run here stage) := by
  intro location hmem
  obtain ⟨documents, htouches⟩ := stores_touches hmem
  exact ⟨htouched location hmem, htouches.not_library hside⟩

include hrun

theorem stores_clear_events (stage : String) :
    Clear run here {run.events.path.normal here} (stores run here stage) := by
  refine stores_clear hside ?_
  rintro _ ⟨path, hmakes, rfl⟩ heq
  have hevents : run.events.path.normal here =
      (Pipeline.runDirectory run.workspace run.id).normal here ++ ["events.jsonl"] := by
    rw [hrun.log]
    exact Path.normal_div_of_single (by decide) (by decide) _ _
  exact hmakes.normal_ne hside (List.all_iff_forall_prop.mp (by decide)) _
    ((Set.mem_singleton_iff.mp heq).trans hevents)

/-- A file that the stage may record is recorded. -/
theorem record_made {stage : String} {path : Path}
    (hmakes : Makes run.workspace run.side stage path) (contentType : Option String) :
    Records host here run (stores run here stage) refs (run.recordArtifact stage contentType path)
      (stores run here stage) fun ref => refs ++ [ref] := by
  obtain ⟨front, last, hpath, hnamed, -⟩ := hmakes.goesOn hside
  exact .record hrun hpath hnamed (stores_clear_events hrun hside stage) ⟨path, hmakes, rfl⟩ _ _

omit hrun hside in
theorem hand_framed {change : RunState → RunState}
    (hchange : ∀ state, Handed run state → Handed run (change state)) :
    (Run.hand change).Keeps (framed host here run ∅) any :=
  Run.hand_keeps (framed.hands.hand _ hchange)

theorem fetch_records : Records host here run (stores run here "fetch") [] (fetch run) (stores run here "fetch")
    fun output => output.artifacts := by
  have hprimary : (framed host here run Set.univ).Produces (run.workspace.primary run.side) :=
    framed.produces hrun.here (hrun.root.div _) (Set.mem_univ _)
  unfold fetch
  refine .thenHanded fun state _ => ?_
  split
  · exact .throw
  refine .thenKeeps (.inl rfl) (Release.fetchPrimary_keeps _ _ _ _ hprimary)
    fun fetched hfetched => ?_
  have hresult : (Action.ofResult fetched).Keeps (framed host here run ∅)
      (· = CallPlan.primary run.workspace run.side) := .ofResult (fun _ _ => trivial) hfetched.2
  refine .thenKeeps (.inl rfl) hresult fun primary hprimary => ?_
  obtain rfl := hprimary
  refine .thenKeeps (.inl rfl) (hand_framed fun state hstate => hstate.setPrimary rfl)
    fun _ _ => ?_
  refine .bind (record_made hrun hside .primary _)
    fun ref => ?_
  -- what follows touches nothing but libraries that are not there yet, and the event log
  refine .thenKeeps (.inr (stores_clear hside fun _ _ => Set.notMem_empty _))
    (Release.fetchLibraries_keeps _ _ (fun rest hrest dependency =>
      Release.fetchLibraryTo_framing hrun.here (hrun.named_library hrest) (List.prefix_append _ _) _
        dependency) _) fun libraries _ => ?_
  refine .thenKeeps (.inr (stores_clear_events hrun hside _)) (.forM fun library _ =>
    announceLibrary_keeps (Discipline.framing.allowsWritten hrun.here hrun.events
      (Set.mem_singleton _)) library) fun _ _ => ?_
  exact .pure rfl

theorem unpack_records
    (hwell : ∀ calls call files, files.WellNamed → (host.tools calls call files).2.WellNamed) :
    Records host here run (stores run here "unpack") [] (unpack run) (stores run here "unpack")
      fun output => output.artifacts := by
  unfold unpack
  refine .thenHanded fun state hstate => ?_
  split
  · exact .throw
  rename_i primary hprimary
  obtain rfl := hstate.primary primary hprimary
  have hinspect := package_inspect_keeps (d := framed host here run Set.univ)
    (Discipline.framing.allowsMade hrun.here (hrun.root.div _))
    (Discipline.framing.allowsCall (fun _ _ _ _ _ hout => absurd (Set.mem_univ _) hout)
      fun calls files => hwell calls _ files)
    (Package.findPayload_jar (fun _ hinv => And.left hinv) _)
  refine .thenKeeps (.inl rfl) hinspect fun inspected hinspected => ?_
  refine .thenKeeps (.inl rfl) (hand_framed fun state hstate => hstate.setPayload hinspected.1)
    fun _ _ => ?_
  dsimp only
  split
  · rename_i hbundled
    refine .thenKeeps (.inl rfl) (emit_framed hrun _ _ _) fun _ _ => ?_
    have hjar := hinspected.2
    rw [if_pos hbundled] at hjar
    exact .bind (record_made hrun hside (.payload (hjar _ rfl)) _) fun ref => .pure rfl
  · exact .pure rfl

theorem sanitize_records : Records host here run (stores run here "sanitize") [] (sanitize run) (stores run here "sanitize")
    fun output => output.artifacts := by
  have htarget : (framed host here run Set.univ).Produces (run.workspace.stripped run.side) :=
    framed.produces hrun.here (hrun.root.div _) (Set.mem_univ _)
  unfold sanitize Strip.artifact
  refine .thenHanded fun state hstate => ?_
  split
  · exact .throw
  rename_i payload hpayload
  have hstripped : payload.derive "stripped" (run.workspace.stripped run.side) none =
      CallPlan.stripped run.workspace run.side :=
    congrArg (Artifact.mk "stripped" _) (hstate.payload payload hpayload)
  simp only [bind_assoc, pure_bind]
  refine .thenKeeps (.inl rfl) (htarget.strip _) fun counts _ => ?_
  refine .thenKeeps (.inl rfl) (hand_framed fun state hstate => hstate.setStripped hstripped)
    fun _ _ => ?_
  exact .bind (record_made hrun hside .stripped _)
    fun ref => .pure rfl

theorem mappings_records (hfixed : ∀ word sets, run.provider ≠ .fixed word sets)
    (hversions : ∀ metaUrl mavenUrl, run.provider = .chained metaUrl mavenUrl →
      ∀ release, host.Lists release → '/' ∉ release.version.toList) :
    Records host here run (stores run here "mappings") [] (mappings run) (stores run here "mappings")
      fun output => output.artifacts := by
  unfold mappings
  refine .thenHanded fun state hstate => ?_
  split
  · exact .throw
  rename_i stripped hstripped
  rw [show stripped.space = officialNamespace from
    congrArg Artifact.space (hstate.stripped stripped hstripped)]
  have hchain : (providedChain run officialNamespace).Keeps (framed host here run Set.univ)
      fun sets => run.provider.Chain sets ∧ ∀ set ∈ sets, Documented run here Set.univ set :=
    (providedChain_frames hrun hside hfixed hversions).keeps (fun _ _ => Set.subset_univ _)
      fun touched _ sets hsets => ⟨hsets.1, fun set hset =>
        (hsets.2 set hset).mono (Set.subset_univ _)⟩
  refine .thenKeeps (.inl rfl) hchain fun sets hsets => ?_
  refine .thenKeeps (.inl rfl) (normalizedSets_framed hrun hsets.1 hsets.2) fun others hothers => ?_
  refine .thenKeeps (.inl rfl) (hand_framed fun state hstate => hstate.setSets hothers.1)
    fun _ _ => ?_
  refine .thenKeeps (.inl rfl) (emit_framed hrun _ _ _) fun _ _ => ?_
  refine .bind (.mapM fun set hset refs => ?_) fun artifacts => .pure rfl
  obtain ⟨name, hname, -, hpath⟩ := hothers.2 set hset
  exact record_made hrun hside (hpath ▸ .document hname) _

/-! ### Passes -/

/-- The places of the outputs of passes. -/
def outputs (run : Run) (here : Location) (sets : List MappingSet) : Set Location :=
  {location | ∃ set ∈ sets, (Remapper.passOutput run.workspace set).normal here = location}

/-- An output is at the place of no event and of no output of another name. -/
theorem output_clear {set : MappingSet} {rest : List MappingSet}
    (hset : set.name = intermediaryNamespace ∨ set.name = namedNamespace)
    (hrest : ∀ other ∈ rest, other.name = intermediaryNamespace ∨ other.name = namedNamespace)
    (hname : ∀ other ∈ rest, other.name ≠ set.name) :
    Clear run here (insert (run.events.path.normal here) (outputs run here rest))
      {(Remapper.passOutput run.workspace set).normal here} := by
  rintro _ rfl
  have hmakes : Makes run.workspace run.side "remap" (Remapper.passOutput run.workspace set) :=
    .mapped hset
  obtain ⟨hevents, hlibrary⟩ := stores_clear_events hrun hside "remap" _ ⟨_, hmakes, rfl⟩
  refine ⟨?_, hlibrary⟩
  rintro (heq | ⟨other, hother, heq⟩)
  · exact hevents heq
  · change Path.normal here (run.workspace.buildDirectory / (other.name ++ "-mapped." ++ "jar")) =
      Path.normal here (run.workspace.buildDirectory / (set.name ++ "-mapped." ++ "jar")) at heq
    rw [(isDocument_mapped (hrest other hother)).normal_div, (isDocument_mapped hset).normal_div] at heq
    have hends := List.singleton_inj.mp (List.append_cancel_left heq)
    exact hname other hother (by simpa [String.append_left_inj] using hends)

section Passes

variable (htidy : host.Tidy run.settings run.workspace here)

include htidy

omit htidy in
theorem announcePass_records {set : MappingSet} {result : ToolResult}
    (hset : set.name = intermediaryNamespace ∨ set.name = namedNamespace)
    (hclear : Clear run here {run.events.path.normal here} place)
    (hmem : (Remapper.passOutput run.workspace set).normal here ∈ place) :
    Records host here run place refs
      (announcePass run set (CallPlan.passed run.workspace set) result) place
      fun ref => refs ++ [ref] := by
  have hmakes : Makes run.workspace run.side "remap" (Remapper.passOutput run.workspace set) :=
    .mapped hset
  obtain ⟨front, last, hpath, hnamed, -⟩ := hmakes.goesOn hside
  unfold announcePass
  exact .thenKeeps (.inr hclear) (emit_framed hrun _ _ _) fun _ _ =>
    .record hrun hpath hnamed hclear hmem _ _

/-- No pass touches what the ones before recorded. -/
theorem chain_records (artifact : Artifact) {sets : List MappingSet}
    (hsets : ∀ set ∈ sets, set.name = intermediaryNamespace ∨ set.name = namedNamespace)
    (hnodup : (sets.map (·.name)).Nodup)
    (hclear : Clear run here (insert (run.events.path.normal here) (outputs run here sets)) place) :
    Records host here run place refs
      ((remapper run.settings).chain run.workspace (announcePass run) artifact sets)
      (place ∪ outputs run here sets) fun passes => refs ++ passes.map (·.2) := by
  induction sets generalizing artifact place refs with
  | nil => exact (Records.pure (by simp)).weaken subset_rfl Set.subset_union_left
  | cons set rest ih =>
    have hset := hsets set List.mem_cons_self
    have hrest := fun other hother => hsets other (List.mem_cons_of_mem set hother)
    rw [List.map_cons, List.nodup_cons] at hnodup
    have hfirst : outputs run here (set :: rest) =
        {(Remapper.passOutput run.workspace set).normal here} ∪ outputs run here rest := by
      ext location
      simp [outputs, eq_comm]
    rw [hfirst] at hclear ⊢
    -- the output of this pass is clear of those that follow
    have hmore : Clear run here (insert (run.events.path.normal here) (outputs run here rest))
        (place ∪ {(Remapper.passOutput run.workspace set).normal here}) :=
      (hclear.mono (Set.insert_subset_insert Set.subset_union_right)).union
        (output_clear hrun hside hset hrest fun other hother heq =>
          hnodup.1 (heq ▸ List.mem_map_of_mem hother))
    have hpass : Clear run here {(Remapper.passOutput run.workspace set).normal here} place :=
      hclear.mono (Set.subset_union_left.trans (Set.subset_insert _ _))
    unfold Remapper.chain
    refine .thenKeeps (.inr hpass) (pass_keeps (allowsPass hrun htidy hset (Set.mem_singleton _)))
      fun output houtput => ?_
    obtain ⟨output, result⟩ := output
    obtain rfl : output = CallPlan.passed run.workspace set := houtput
    refine (Records.bind (announcePass_records hrun hside hset (hmore.mono (by simp)) (by simp))
      fun ref => ?_).weaken Set.subset_union_left (Set.union_assoc _ _ _).subset
    refine (ih _ hrest hnodup.2 hmore).bind fun passes => .pure ?_
    simp

theorem remap_records : Records host here run (stores run here "remap") [] (remap run)
    (stores run here "remap") fun output => output.artifacts := by
  unfold remap
  refine .thenHanded fun state _ => ?_
  dsimp only
  split
  · exact .throw
  rename_i stripped _
  refine .thenHanded fun state hstate => ?_
  have hsets : (∀ set ∈ state.mappingSets,
      set.name = intermediaryNamespace ∨ set.name = namedNamespace) ∧
        (state.mappingSets.map (·.name)).Nodup := by
    rcases hstate.sets with hnil | hchain
    · simp [hnil]
    · exact ⟨fun set hset => hchain.name_eq hset, hchain.nodup⟩
  have hstored : ∅ ∪ outputs run here state.mappingSets ⊆ stores run here "remap" := by
    rintro location (hmem | ⟨set, hset, rfl⟩)
    · exact absurd hmem (Set.notMem_empty _)
    · exact ⟨_, .mapped (hsets.1 set hset), rfl⟩
  have hempty : ∀ touched, Clear run here touched ∅ := fun _ _ hmem => absurd hmem (Set.notMem_empty _)
  have hchain : Records host here run ∅ [] ((remapper run.settings).chain run.workspace
      (announcePass run) stripped state.mappingSets) (∅ ∪ outputs run here state.mappingSets)
      fun passes => passes.map (·.2) :=
    chain_records hrun hside htidy stripped hsets.1 hsets.2 (hempty _)
  refine .bind (hchain.weaken subset_rfl hstored).fresh fun passes => ?_
  split
  · exact .throw
  · rename_i final ref _
    exact .thenKeeps (.inr (stores_clear hside fun _ _ => Set.notMem_empty _))
      (hand_framed fun state hstate => hstate.setMapped final) fun _ _ => .pure rfl

/-- **References.** The references that a stage gives name files that stand where the stage may record
them. -/
theorem perform_records (hfixed : ∀ word sets, run.provider ≠ .fixed word sets)
    (hversions : ∀ metaUrl mavenUrl, run.provider = .chained metaUrl mavenUrl →
      ∀ release, host.Lists release → '/' ∉ release.version.toList) {stage : Stage}
    (hstage : stage ∈ all) : Records host here run (stores run here stage.name) []
      (stage.perform run) (stores run here stage.name) fun output => output.artifacts := by
  have hevents : (framed host here run Set.univ).AllowsFiles
      { written := {run.events.path.normal here} } :=
    Discipline.framing.allowsWritten hrun.here hrun.events (Set.mem_univ _)
  have hcall : ∀ call, (framed host here run Set.univ).AllowsCall call := fun call =>
    Discipline.framing.allowsCall (fun _ _ _ _ _ hout => absurd (Set.mem_univ _) hout)
      fun calls files => htidy.names calls call files
  simp only [all, List.mem_cons, List.not_mem_nil, or_false] at hstage
  rcases hstage with rfl | rfl | rfl | rfl | rfl | rfl | rfl
  · exact .of_keeps (resolve_keeps framed.hands hevents Discipline.framing.allowsNetwork)
  · exact fetch_records hrun hside
  · exact unpack_records hrun hside htidy.names
  · exact sanitize_records hrun hside
  · exact mappings_records hrun hside hfixed hversions
  · exact remap_records hrun hside htidy
  · exact .of_keeps (decompile_keeps framed.hands hevents
      (Discipline.framing.allowsMade hrun.here (hrun.root.div _)) fun _ => hcall _)

end Passes

end Stage

end JarRefinery
