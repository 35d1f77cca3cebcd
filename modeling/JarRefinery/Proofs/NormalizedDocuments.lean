import JarRefinery.Proofs.Archive.Names
import JarRefinery.Proofs.Contents
import JarRefinery.Proofs.HeaderLines

/-!
# Documents with their header

A document that gets its header has the lines that it had, at whatever characters they ended, and the
header among them. That the ends of its lines are made line feeds where it is read makes no difference,
so a file of it comes to the same as the document itself.
-/

namespace JarRefinery.Text

/-! ### Lines and their ends -/

/-- A character of joined lines is one of a line or the line feed after it. -/
theorem mem_joined {lines : List String} {c : Char}
    (hc : c ∈ ("\n".intercalate lines ++ "\n").toList) : c = '\n' ∨ ∃ line ∈ lines, c ∈ line.toList := by
  induction lines with
  | nil => exact .inl (by simpa using hc)
  | cons first rest ih =>
    cases rest with
    | nil =>
      rcases (by simpa using hc : c ∈ first.toList ∨ c = '\n') with hfirst | hfeed
      · exact .inr ⟨first, List.mem_cons_self, hfirst⟩
      · exact .inl hfeed
    | cons second rest =>
      rw [String.intercalate_cons_cons, String.append_assoc, String.append_assoc, String.toList_append,
        String.toList_append, List.mem_append, List.mem_append] at hc
      rcases hc with hfirst | hfeed | hrest
      · exact .inr ⟨first, List.mem_cons_self, hfirst⟩
      · exact .inl (by simpa using hfeed)
      · rcases ih hrest with hfeed | ⟨line, hline, hmem⟩
        · exact .inl hfeed
        · exact .inr ⟨line, List.mem_cons_of_mem _ hline, hmem⟩

/-- Making the ends of lines line feeds leaves the lines. -/
theorem splitLines_unifyLineEnds (chars : List Char) :
    splitLines (unifyLineEnds chars) = splitLines chars := by
  have hfeed : ∀ rest, splitLines ('\n' :: rest) = [] :: splitLines rest := fun rest => by
    rw [splitLines.eq_3 _ _ (fun _ h _ => absurd h (by decide)), if_pos (by decide)]
  fun_induction unifyLineEnds chars with
  | case1 => rfl
  | case2 rest ih => rw [hfeed, ih, splitLines]
  | case3 rest hlone ih =>
    rw [hfeed, ih, splitLines.eq_3 _ _ fun tail _ htail => hlone tail htail, if_pos (by decide)]
  | case4 c rest _ hother ih =>
    rw [splitLines.eq_3 _ _ (fun _ hreturn _ => hother hreturn),
      splitLines.eq_3 _ _ (fun _ hreturn _ => hother hreturn), ih]

theorem lines_withUnifiedLineEnds (text : String) : lines (withUnifiedLineEnds text) = lines text := by
  rw [lines, withUnifiedLineEnds, String.toList_ofList, splitLines_unifyLineEnds, lines]

end JarRefinery.Text

namespace JarRefinery

open FileTree.Action (eval)

/-! ### Text files -/

namespace TextFile

variable {host : Host}

/-- A file in UTF-8 is read as its text, but for the ends of lines. -/
theorem eval_read {path : Path} {text : String} {world : World}
    (hholds : world.files.Holds path (Text.Utf8.encode text)) :
    (read path).eval host world = (.ok (Text.withUnifiedLineEnds text), world) := by
  unfold read
  rw [Action.eval_bind_ok (Action.eval_readFile hholds), Action.eval_bind, Action.eval_ofExcept,
    Text.Utf8.decode_encode]
  rfl

theorem encode_defaultStyle (text : String) :
    encode defaultStyle text = .ok (Text.Utf8.encode text) := by
  have hname : Text.Encoding.ofName? defaultStyle.encoding = some (.unicode .utf8) := by decide
  unfold encode
  simp only [hname]
  change Except.ok (Text.Utf8.encode (String.ofList text.toList)) = _
  rw [String.ofList_toList]

section Write

variable {target : Path} {world : World} (text : String)

/-- A temporary file is filled with the text in UTF-8. -/
theorem eval_fill {sibling : Path} {ready : FileTree} {place : Location}
    (hbeside : FileTree.Beside target world.files ready sibling place) :
    (fill defaultStyle text sibling).eval host
        { world with files := ready.put place (.file [] 0o600) } =
      (.ok (), { world with files := ready.put place (.file (Text.Utf8.encode text) 0o644) }) := by
  have hwritten : eval (FileTree.writeFile sibling (Text.Utf8.encode text))
      (ready.put place (.file [] 0o600)) =
        (.ok (), ready.put place (.file (Text.Utf8.encode text) 0o600)) := by
    obtain ⟨hreach, hnode⟩ := hbeside.found [] 0o600
    rw [hreach.eval_writeFile hnode, hbeside.normal, FileTree.put_put]
  have hmode : eval (FileTree.setMode sibling 0o644)
      (ready.put place (.file (Text.Utf8.encode text) 0o600)) =
        (.ok (), ready.put place (.file (Text.Utf8.encode text) 0o644)) := by
    obtain ⟨hreach, hnode⟩ := hbeside.found (Text.Utf8.encode text) 0o600
    rw [hreach.eval_setMode hnode, hbeside.normal, FileTree.put_put]
  have hencode : ∀ start, (Action.ofResult (encode defaultStyle text)).eval host start =
      (.ok (Text.Utf8.encode text), start) := by simp [encode_defaultStyle]
  unfold fill
  rw [Action.eval_bind_ok (hencode _), Action.eval_bind, Action.eval_onFiles, hwritten]
  change (Action.onFiles (FileTree.setMode sibling 0o644)).eval host _ = _
  rw [Action.eval_onFiles, hmode]
  rfl

variable (hrooted : ".." ∉ world.files.here)

include hrooted

theorem fill_filling (sibling : Path) : (fill defaultStyle text sibling).Keeps
    (.filling host world.files.here (sibling.normal world.files.here)) Action.any :=
  fill_keeps (Discipline.filling.allowsFiles hrooted) defaultStyle text

/-- What was written is the text in UTF-8. -/
theorem of_eval_write_ok {value : Unit} {after : World}
    (heval : (write defaultStyle target text).eval host world = (.ok value, after)) :
    after.files.Holds target (Text.Utf8.encode text) := by
  have hreplaces : Replaces host world.files.here target (write defaultStyle target text) :=
    .write hrooted defaultStyle text
  have hreplaced := hreplaces world rfl
  rw [heval] at hreplaced
  obtain ⟨sibling, _, filled, ⟨⟨ready, place, hbeside, rfl⟩, hfill, -, hreach, contents, mode,
    hsibling, htarget⟩⟩ := Action.of_eval_withSibling_ok hrooted (fun _ _ _ _ hmoving => hmoving)
      (fill_filling text hrooted) heval
  obtain rfl : _ = filled := congrArg Prod.snd ((eval_fill text hbeside).symm.trans hfill)
  obtain ⟨-, hfound⟩ := hbeside.found (Text.Utf8.encode text) 0o644
  rw [hbeside.normal] at hfound hsibling
  obtain ⟨rfl, rfl⟩ : Text.Utf8.encode text = contents ∧ 0o644 = mode := by
    simpa using hfound.symm.trans hsibling
  exact FileTree.holds_iff.mpr ⟨hreach, _, by rw [hreplaced.1.here]; exact htarget⟩

/-- A text can be written wherever a file can. -/
theorem eval_write (hreceives : world.files.Receives target) :
    ∃ after, (write defaultStyle target text).eval host world = (.ok (), after) :=
  Action.eval_withSibling_ok hrooted hreceives (fun _ _ _ hmoving => hmoving)
    (fill_filling text hrooted) fun _ _ _ hbeside => ⟨_, eval_fill text hbeside⟩

end Write

end TextFile

namespace Mapping

open Text (isLineEnd)

variable {source target : String}

/-! ### Normalised documents -/

/-- Only what the lines of a text are matters for its document. -/
theorem normalizeText_unified (source target text : String) :
    normalizeText source target (Text.withUnifiedLineEnds text) = normalizeText source target text := by
  rw [normalizeText, Text.lines_withUnifiedLineEnds, normalizeText]

/-- The lines of a document with its header are those that it was put together from. -/
theorem lines_normalizeText (hsource : ∀ c ∈ source.toList, isLineEnd c = false)
    (htarget : ∀ c ∈ target.toList, isLineEnd c = false) (text : String) :
    Text.lines (normalizeText source target text) = insertHeader source target (Text.lines text) := by
  have hline : ∀ line ∈ insertHeader source target (Text.lines text), ∀ c ∈ line.toList,
      isLineEnd c = false := by
    intro line hline c hc
    rcases mem_insertHeader hline with rfl | hline
    · exact (mem_headerLine hc).elim (hsource c) fun hc => hc.elim (htarget c) id
    · obtain ⟨chars, hchars, rfl⟩ := List.mem_map.mp hline
      rw [String.toList_ofList] at hc
      exact Text.not_isLineEnd_of_mem_splitLines hchars hc
  have hreturn : ∀ {name : String}, (∀ c ∈ name.toList, isLineEnd c = false) →
      ∀ c ∈ name.toList, Text.isReturn c = false := fun hname c hc =>
    Text.isReturn_eq_false (hname c hc)
  -- nothing but the line feeds that were put in ends a line
  rw [(Text.lines_eq_readLines_iff _).mpr, readLines_normalizeText (hreturn hsource) (hreturn htarget)]
  intro c hc hend
  rcases Text.mem_joined hc with rfl | ⟨line, hmem, hc⟩
  · rfl
  · simp [hline line hmem c hc] at hend

section File

variable {host : Host} {world : World} {document output : Path} (hrooted : ".." ∉ world.files.here)
  {text : String} (hholds : world.files.Holds document (Text.Utf8.encode text))

include hholds

/-- A document at another place is read and written with its header. -/
theorem eval_normalizeFile (hnull : FileTree.hasNull output = false)
    (hother : document.normal world.files.here ≠ output.normal world.files.here) :
    (normalizeFile source target document output).eval host world =
      (do
        TextFile.write TextFile.defaultStyle output (normalizeText source target text)
        pure output : Action Path).eval host world := by
  have hnamed := (FileTree.holds_iff.mp hholds).1.noNull
  have hne : decide (Path.ofLocation (document.normal world.files.here) =
      Path.ofLocation (output.normal world.files.here)) = false :=
    decide_eq_false fun hsame => hother (congrArg Path.parts hsame)
  unfold normalizeFile
  rw [Action.eval_bind_ok (Action.eval_resolve hnamed), Action.eval_bind_ok (Action.eval_resolve hnull),
    hne, Action.eval_bind_ok (Action.eval_refuse_false _ _ _),
    Action.eval_bind_ok (TextFile.eval_read hholds), normalizeText_unified]

include hrooted

/-- The output of a document that was normalised holds it with its header. -/
theorem of_eval_normalizeFile_ok {path : Path} {after : World}
    (heval : (normalizeFile source target document output).eval host world = (.ok path, after)) :
    path = output ∧
      after.files.Holds output (Text.Utf8.encode (normalizeText source target text)) := by
  have hnamed := (FileTree.holds_iff.mp hholds).1.noNull
  have hrun := heval
  unfold normalizeFile at hrun
  rw [Action.eval_bind_ok (Action.eval_resolve hnamed)] at hrun
  cases hnull : FileTree.hasNull output with
  | true => cases (Action.eval_bind_error (Action.eval_resolve_null hnull)).symm.trans hrun
  | false =>
    rw [Action.eval_bind_ok (Action.eval_resolve hnull)] at hrun
    obtain ⟨_, _, hrefuse, -⟩ := Action.of_eval_bind_ok hrun
    have hother : document.normal world.files.here ≠ output.normal world.files.here := fun hsame =>
      absurd (congrArg Path.ofLocation hsame) (of_decide_eq_false (Action.of_eval_refuse_ok hrefuse).1)
    rw [eval_normalizeFile hholds hnull hother] at heval
    obtain ⟨_, written, hwrite, hpure⟩ := Action.of_eval_bind_ok heval
    obtain ⟨rfl, rfl⟩ : output = path ∧ written = after := by simpa using hpure
    exact ⟨rfl, TextFile.of_eval_write_ok _ hrooted hwrite⟩

/-- A document is normalised to any other place where a file can be written. -/
theorem normalizeFile_returns
    (hother : document.normal world.files.here ≠ output.normal world.files.here)
    (hreceives : world.files.Receives output) :
    ∃ after, (normalizeFile source target document output).eval host world = (.ok output, after) := by
  rw [eval_normalizeFile hholds (hreceives.noNull hrooted) hother]
  obtain ⟨after, hwrite⟩ :=
    @TextFile.eval_write host _ _ (normalizeText source target text) hrooted hreceives
  exact ⟨after, by rw [Action.eval_bind_ok hwrite]; rfl⟩

end File

/-- **Normalised documents.** With labels of one line each, the lines of a document that got its header
are the lines that it had and the header, after the first of them if there is one. A file of the
document is normalised to any other place where a file can be written, and the output of a file that was
normalised holds the document with its header, byte for byte. -/
theorem normalizeText_lines_and_file (source target text : String)
    (hsource : ∀ c ∈ source.toList, isLineEnd c = false)
    (htarget : ∀ c ∈ target.toList, isLineEnd c = false) :
    Text.lines (normalizeText source target text) = insertHeader source target (Text.lines text) ∧
      (Text.lines (normalizeText source target text)).length = (Text.lines text).length + 1 ∧
      (Text.lines text ≠ [] →
        (Text.lines (normalizeText source target text)).eraseIdx 1 = Text.lines text) ∧
      ∀ host world document output, ".." ∉ world.files.here →
        world.files.Holds document (Text.Utf8.encode text) →
        (∀ path after,
          (normalizeFile source target document output).eval host world = (.ok path, after) →
            path = output ∧
              after.files.Holds output (Text.Utf8.encode (normalizeText source target text))) ∧
        (document.normal world.files.here ≠ output.normal world.files.here →
          world.files.Receives output → ∃ after,
            (normalizeFile source target document output).eval host world = (.ok output, after)) := by
  have hlines := lines_normalizeText hsource htarget text
  refine ⟨hlines, ?_, ?_, fun host world document output hrooted hholds => ⟨?_, ?_⟩⟩
  · rw [hlines]
    cases Text.lines text <;> rfl
  · intro hne
    rw [hlines]
    obtain ⟨first, rest, hcons⟩ := List.exists_cons_of_ne_nil hne
    rw [hcons]
    rfl
  · exact fun path after heval => of_eval_normalizeFile_ok hrooted hholds heval
  · exact normalizeFile_returns hrooted hholds

/-- A document whose lines end in four ways, one of them empty, and the last of them not at all. -/
def mixedEnds : String := "v1\r\na\rb\u2028\nc"

/-- The directory with that document in it. -/
def mixedWorld : World :=
  { files := FileTree.bare.put ["work", "in.tiny"] (.file (Text.Utf8.encode mixedEnds) 0o644) }

theorem normalizeText_lines_and_file_mixed :
    Text.lines (normalizeText "a" "b" mixedEnds) =
        ["v1", "tiny\t2\t0\ta\tb", "a", "b", "", "c"] ∧
      ∃ after, (normalizeFile "a" "b" ⟨"", ["in.tiny"]⟩ ⟨"", ["out.tiny"]⟩).eval .idle mixedWorld =
          (.ok ⟨"", ["out.tiny"]⟩, after) ∧
        after.files.Holds ⟨"", ["out.tiny"]⟩
          (Text.Utf8.encode "v1\ntiny\t2\t0\ta\tb\na\nb\n\nc\n") := by
  obtain ⟨hlines, -, -, hfile⟩ := normalizeText_lines_and_file "a" "b" mixedEnds
    (List.all_iff_forall_prop.mp (by decide)) (List.all_iff_forall_prop.mp (by decide))
  obtain ⟨hwritten, hreturns⟩ := hfile .idle mixedWorld ⟨"", ["in.tiny"]⟩ ⟨"", ["out.tiny"]⟩ (by decide)
    (by decide +kernel)
  obtain ⟨after, heval⟩ := hreturns (by decide) (by decide +kernel)
  refine ⟨hlines.trans (by decide), after, heval, ?_⟩
  have htext : normalizeText "a" "b" mixedEnds = "v1\ntiny\t2\t0\ta\tb\na\nb\n\nc\n" := by decide
  exact htext ▸ (hwritten _ _ heval).2

end Mapping

end JarRefinery
