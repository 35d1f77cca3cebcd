import JarRefinery.Proofs.Archive.Content
import JarRefinery.Proofs.Contents

/-!
# Stripping

A stripped archive has the entries of its source that are not reserved, in their order, and they are
what they were in the source.
-/

namespace JarRefinery.Strip

open Archive (Entry Member)
open JarRefinery.Action (any)

/-! ### Entries -/

/-- An entry that has a name, and whose local header can tell how long its name and its extra field
are. -/
structure Portable (entry : Entry) : Prop where
  named : entry.name ≠ ""
  name : (Text.Utf8.encode entry.name).length ≤ Member.lengthLimit
  extra : entry.isDirectory = false → (Member.headerExtra ⟨entry, []⟩).length ≤ Member.lengthLimit

/-- An entry and its contents, as they are written again. -/
def rewritten (source : Entry × Bytes) : Member :=
  if source.1.isDirectory then ⟨{ source.1 with size := 0 }, []⟩ else ⟨source.1, source.2⟩

variable {archive content : Bytes} {entry : Entry}

theorem isSupported_of_openEntry {data : Bytes}
    (hopen : Archive.openEntry archive entry = .ok data) :
    Archive.isSupported entry.method = true := by
  unfold Archive.openEntry at hopen
  iterate 5 replace hopen := (Result.of_guard_eq_ok hopen).2
  dsimp only at hopen
  split at hopen
  · cases hopen
  iterate 3 replace hopen := (Result.of_guard_eq_ok hopen).2
  simpa using (Result.of_guard_eq_ok hopen).1

/-- A member that fits an archive is let through. -/
theorem checkHeader_ok {member : Member} (hfits : member.Fits) :
    Member.checkHeader member.entry = .ok () := by
  have hextra := hfits.headerExtra
  rw [Member.length_headerExtra] at hextra
  exact if_neg (not_or.mpr ⟨Nat.not_lt.mpr hfits.name, Nat.not_lt.mpr hextra⟩)

section Rewritten

variable (hlisted : entry.Listed) (hportable : Portable entry)
  (hread : Archive.readContent Strip.window archive entry = .ok content)

include hlisted hportable hread

/-- What is written again of a portable entry fits an archive. -/
theorem rewritten_fits : (rewritten (entry, content)).Fits := by
  obtain ⟨data, hopen, -⟩ := Result.bind_eq_ok.mp hread
  have hsupported := isSupported_of_openEntry hopen
  unfold rewritten
  split
  · have hextra : Member.headerExtra ⟨{ entry with size := 0 }, []⟩ = entry.extra :=
      List.append_nil _
    exact ⟨{ hlisted with }, hsupported, hportable.name, hextra ▸ Nat.le_of_lt_succ hlisted.extra⟩
  · rename_i hfile
    refine ⟨hlisted, hsupported, hportable.name, ?_⟩
    rw [Member.length_headerExtra]
    exact hportable.extra (by simpa using hfile)

/-- A portable entry that can be read is written again. -/
theorem member_eq_ok : member archive entry = .ok (rewritten (entry, content)) := by
  obtain ⟨data, hopen, -⟩ := Result.bind_eq_ok.mp hread
  have hsupported := isSupported_of_openEntry hopen
  have hnamed : ¬entry.name.isEmpty = true := by simpa using hportable.named
  have hheader := checkHeader_ok (rewritten_fits hlisted hportable hread)
  unfold member
  unfold rewritten at hheader ⊢
  cases hdirectory : entry.isDirectory with
  | true =>
    simp only [hdirectory, if_true] at hheader
    simp only [hnamed, if_false, if_true, hsupported, Bool.not_true, Bool.false_eq_true, hheader]
    rfl
  | false =>
    simp only [hdirectory, Bool.false_eq_true, if_false] at hheader
    simp only [hnamed, if_false, Bool.false_eq_true, hopen, hheader, hread]
    rfl

end Rewritten

/-! ### Archives -/

/-- Stripping keeps the entry. -/
def isKept (source : Entry × Bytes) : Bool :=
  !isReserved source.1.name

/-- The copy has what the source has: its name, its method, its date, its extra field, its comment and
its contents. A directory has no contents. -/
structure Copies (source copy : Entry × Bytes) : Prop where
  name : copy.1.name = source.1.name
  method : copy.1.method = source.1.method
  date : copy.1.date = source.1.date
  time : copy.1.time = source.1.time
  extra : copy.1.extra = source.1.extra
  comment : copy.1.comment = source.1.comment
  content : copy.2 = if source.1.isDirectory then [] else source.2

theorem copies_of_gives {source copy : Entry × Bytes}
    (hgives : Archive.Gives (rewritten source) copy) : Copies source copy := by
  obtain ⟨offset, limit, rfl⟩ := hgives
  unfold rewritten
  split
  · rename_i hdirectory
    exact ⟨Archive.cutName_cutName _, rfl, rfl, rfl, rfl, rfl, (if_pos hdirectory).symm⟩
  · rename_i hfile
    exact ⟨Archive.cutName_cutName _, rfl, rfl, rfl, rfl, rfl, (if_neg hfile).symm⟩

variable {sources : List (Entry × Bytes)}

/-- Stripping the bytes of an archive writes the entries that are kept and counts both kinds. -/
theorem stripBytes_eq_ok (hread : Archive.readAll Strip.window archive = .ok sources)
    (hportable : ∀ source ∈ sources.filter isKept, Portable source.1) :
    stripBytes archive = .ok ⟨Archive.write ((sources.filter isKept).map rewritten),
      (sources.filter isKept).length, sources.countP fun source => isReserved source.1.name⟩ := by
  obtain ⟨hdirectory, hcontents⟩ := Archive.of_readAll_ok hread
  have hkept : (sources.map (·.1)).filter (fun entry => !isReserved entry.name) =
      (sources.filter isKept).map (·.1) := by
    unfold isKept
    rw [List.filter_map, Function.comp_def]
  have hmembers : ((sources.filter isKept).map (·.1)).mapM (member archive) =
      .ok ((sources.filter isKept).map rewritten) := by
    rw [Result.mapM_eq_ok, List.forall₂_map_left_iff, List.forall₂_map_right_iff, List.forall₂_same]
    intro source hmem
    obtain ⟨hlisted, hcontent⟩ := hcontents source (List.mem_of_mem_filter hmem)
    exact member_eq_ok hlisted (hportable source hmem) hcontent
  have hdropped : (sources.map (·.1)).length - (sources.filter isKept).length =
      sources.countP fun source => isReserved source.1.name := by
    have hlength := List.length_eq_countP_add_countP isKept (l := sources)
    rw [List.countP_eq_length_filter] at hlength
    have hreserved : sources.countP (fun source => decide ¬isKept source = true) =
        sources.countP fun source => isReserved source.1.name := by simp [isKept]
    rw [List.length_map]
    omega
  refine Result.bind_eq_ok.mpr ⟨_, hdirectory, ?_⟩
  dsimp only
  rw [hkept]
  refine Result.bind_eq_ok.mpr ⟨_, hmembers, ?_⟩
  rw [List.length_map, hdropped]
  rfl

/-- A stripped archive is read as the entries that were kept. -/
theorem readAll_stripped (hread : Archive.readAll Strip.window archive = .ok sources)
    (hportable : ∀ source ∈ sources.filter isKept, Portable source.1)
    (hnarrow : Archive.IsNarrow (Archive.write ((sources.filter isKept).map rewritten)))
    (window : Nat) :
    ∃ copies,
      Archive.readAll window (Archive.write ((sources.filter isKept).map rewritten)) = .ok copies ∧
        List.Forall₂ Copies (sources.filter isKept) copies := by
  obtain ⟨-, hcontents⟩ := Archive.of_readAll_ok hread
  have hfits : ∀ member ∈ (sources.filter isKept).map rewritten, member.Fits := by
    rw [List.forall_mem_map]
    intro source hmem
    obtain ⟨hlisted, hcontent⟩ := hcontents source (List.mem_of_mem_filter hmem)
    exact rewritten_fits hlisted (hportable source hmem) hcontent
  obtain ⟨copies, hcopies, hgives⟩ := Archive.readAll_write hfits hnarrow window
  rw [List.forall₂_map_left_iff] at hgives
  exact ⟨copies, hcopies, hgives.imp fun _ _ => copies_of_gives⟩

/-! ### Files -/

variable {host : Host} {source target : Path} {world after : World} {stripped : Stripped}
variable {counts : Nat × Nat}

/-- Filling the temporary file needs the source and a place for the file. -/
theorem eval_fill_ok {file : Path} (hsource : world.files.Holds source archive)
    (hstripped : stripBytes archive = .ok stripped) (hfile : world.files.Reachable file)
    (hplace : world.files.Writable (file.normal world.files.here)) :
    ∃ after, (fill source file).eval host world = (.ok (stripped.kept, stripped.dropped), after) := by
  rcases FileTree.writeFile_cases world.files file stripped.archive with
    ⟨-, -, mode', hwrite⟩ | ⟨hnot, -⟩
  swap
  · exact absurd ⟨hfile, hplace⟩ hnot
  unfold fill
  rw [Action.eval_bind_ok (Action.eval_readFile hsource), hstripped,
    Action.eval_bind_ok (Action.eval_ofExcept _ _ _ _),
    Action.eval_bind, Action.eval_onFiles, hwrite]
  exact ⟨_, rfl⟩

/-- A temporary file that was filled holds the stripped archive. -/
theorem of_eval_fill_ok {file : Path}
    (heval : (fill source file).eval host world = (.ok counts, after)) :
    ∃ archive stripped mode, world.files.Holds source archive ∧
      stripBytes archive = .ok stripped ∧ counts = (stripped.kept, stripped.dropped) ∧
      after.files.node? (file.normal world.files.here) = some (.file stripped.archive mode) := by
  unfold fill at heval
  obtain ⟨archive, read, hread, heval⟩ := Action.of_eval_bind_ok heval
  obtain ⟨stripped, made, hstripped, heval⟩ := Action.of_eval_bind_ok heval
  obtain ⟨_, written, hwrite, hpure⟩ := Action.of_eval_bind_ok heval
  obtain ⟨rfl, rfl⟩ : (stripped.kept, stripped.dropped) = counts ∧ written = after := by
    simpa using hpure
  obtain ⟨files, hreadFile, rfl⟩ := Action.of_eval_onFiles_ok hread
  obtain rfl : files = world.files := by
    rw [← FileTree.eval_readFile_snd world.files source, hreadFile]
  rw [Action.eval_ofExcept] at hstripped
  obtain ⟨hbytes, rfl⟩ := Prod.mk.inj hstripped
  obtain ⟨_, hwriteFile, rfl⟩ := Action.of_eval_onFiles_ok hwrite
  obtain ⟨mode, hfile, -⟩ := FileTree.of_eval_writeFile_ok hwriteFile
  refine ⟨archive, stripped, mode, congrArg Prod.fst hreadFile, ?_, rfl, hfile⟩
  rcases hresult : stripBytes archive with flaw | found
  · simp [hresult, Except.mapError] at hbytes
  · simpa [hresult, Except.mapError] using hbytes

theorem of_eval_resolve_ok {path found : Path}
    (heval : (Action.onFiles (FileTree.resolve path)).eval host world = (.ok found, after)) :
    found = .ofLocation (path.normal world.files.here) ∧ after = world := by
  obtain ⟨files, hresolve, rfl⟩ := Action.of_eval_onFiles_ok heval
  obtain rfl : files = world.files := by
    rw [← FileTree.eval_resolve_snd world.files path, hresolve]
  exact ⟨FileTree.resolve_ok world.files path hresolve, rfl⟩

section Rooted

variable (hrooted : ".." ∉ world.files.here)

include hrooted

/-- A source that can be stripped is, into any other target that can be written. -/
theorem eval_strip_ok (hsource : world.files.Holds source archive)
    (hother : target.normal world.files.here ≠ source.normal world.files.here)
    (hreceives : world.files.Receives target) (hstripped : stripBytes archive = .ok stripped) :
    ∃ after, (strip source target).eval host world =
      (.ok (stripped.kept, stripped.dropped), after) := by
  obtain ⟨hreach, -⟩ := FileTree.holds_iff.mp hsource
  obtain ⟨-, -, -, -, -, hnull, -⟩ := hreceives.rename hrooted
  have hdifferent : ¬Path.ofLocation (source.normal world.files.here) =
      .ofLocation (target.normal world.files.here) := fun heq => hother (congrArg Path.parts heq).symm
  have hfilling : ∀ ready sibling place, FileTree.Beside target world.files ready sibling place →
      ∃ filled, (fill source sibling).eval host
        { world with files := ready.put place (.file [] 0o600) } =
          (.ok (stripped.kept, stripped.dropped), filled) := by
    intro ready sibling place hbeside
    obtain ⟨hfound, hwrite⟩ := hbeside.writable (.refl _ (ready.put place (.file [] 0o600)))
    exact eval_fill_ok (hbeside.holds hsource) hstripped hfound hwrite
  unfold strip
  rw [Action.eval_bind_ok (Action.eval_resolve hreach.noNull),
    Action.eval_bind_ok (Action.eval_resolve hnull),
    decide_eq_false hdifferent, Action.eval_bind_ok rfl]
  refine Action.eval_withSibling_ok hrooted hreceives (fun sibling start after hmoving => ?_)
    (fun sibling => fill_keeps (Discipline.filling.allowsFiles hrooted) source) hfilling
  rw [Action.eval_explain, hmoving]

/-- What was stripped is another file, and what the source held is stripped in the target. -/
theorem of_eval_strip_ok (hsource : world.files.Holds source archive)
    (heval : (strip source target).eval host world = (.ok counts, after)) :
    target.normal world.files.here ≠ source.normal world.files.here ∧
      ∃ stripped, stripBytes archive = .ok stripped ∧ counts = (stripped.kept, stripped.dropped) ∧
        after.files.Holds target stripped.archive := by
  have hreplaces := @Replaces.strip host _ target hrooted source world rfl
  rw [heval] at hreplaces
  have hhere : after.files.here = world.files.here := hreplaces.1.here
  unfold strip at heval
  obtain ⟨from_, first, hfrom, hrest⟩ := Action.of_eval_bind_ok heval
  obtain ⟨to_, second, hto, hchecked⟩ := Action.of_eval_bind_ok hrest
  obtain ⟨_, third, hrefuse, hproduced⟩ := Action.of_eval_bind_ok hchecked
  obtain ⟨rfl, hfirst⟩ := of_eval_resolve_ok hfrom
  obtain ⟨rfl, hsecond⟩ := of_eval_resolve_ok hto
  obtain ⟨hdifferent, hthird⟩ := Action.of_eval_refuse_ok hrefuse
  rw [hthird, hsecond, hfirst] at hproduced
  rw [hfirst, decide_eq_false_iff_not] at hdifferent
  refine ⟨fun heq => hdifferent (congrArg Path.ofLocation heq.symm), ?_⟩
  obtain ⟨sibling, start, filled, hfilled⟩ := Action.of_eval_withSibling_ok hrooted
    (fun _ _ _ _ hmoving => Action.of_eval_explain_ok hmoving)
    (fun sibling => fill_keeps (Discipline.filling.allowsFiles hrooted) source) hproduced
  obtain ⟨ready, place, hbeside, rfl⟩ := hfilled.beside
  obtain ⟨found, stripped, mode, hfound, hstripped, hcounts, hnode⟩ := of_eval_fill_ok hfilled.fill
  obtain rfl := hfound.unique (hbeside.holds hsource)
  obtain ⟨contents, mode', hsibling, htarget⟩ := hfilled.contents
  have hplace : (ready.put place (.file [] 0o600)).here = world.files.here := hbeside.made.here
  simp only [hplace, hsibling, Option.some.injEq, Node.file.injEq] at hnode
  refine ⟨stripped, hstripped, hcounts, FileTree.holds_iff.mpr ⟨hfilled.reachable, mode', ?_⟩⟩
  rw [hhere, htarget, hnode.1]

/-- Stripping leaves the source as it was. -/
theorem holds_source (hsource : world.files.Holds source archive)
    (heval : (strip source target).eval host world = (.ok counts, after)) :
    after.files.Holds source archive := by
  have hreplaces := @Replaces.strip host _ target hrooted source world rfl
  rw [heval] at hreplaces
  obtain ⟨hother, -⟩ := of_eval_strip_ok hrooted hsource heval
  exact hsource.change hreplaces.1 (by simpa using hother.symm) (Set.notMem_empty _)

end Rooted

/-- A stored file of one byte. -/
def smallMember (name : String) : Member where
  entry := {
    listedName := name, made := 20, system := 3, need := 20, reserved := 0, flags := 0
    method := Archive.storedMethod, time := 0, date := 33, crc := 0x8cdc1683, packedSize := 1
    size := 1, internalAttributes := 0, externalAttributes := 0, extra := [], comment := []
    offset := 0, limit := 0 }
  content := [0x78]

/-- An archive of one file that is reserved and one that is not. -/
def smallArchive : Bytes :=
  Archive.write [smallMember "META-INF/a", smallMember "b"]

def smallSources : List (Entry × Bytes) :=
  (Archive.foundMembers 0 [smallMember "META-INF/a", smallMember "b"]).map fun entry =>
    (entry, [0x78])

def smallWorld : World where
  files := FileTree.bare.put ["work", "in"] (.file smallArchive 0o644)

end JarRefinery.Strip
