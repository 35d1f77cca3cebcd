import JarRefinery.Proofs.Files.Sparing
import JarRefinery.Proofs.Mappings
import JarRefinery.Proofs.Splitting

/-!
# Names of mapping documents

A version may bring slashes into the names of its documents, but the last part of each name ends as
the name does. Without slashes the name is one part.
-/

namespace JarRefinery

namespace Path

open FileTree (IsFileName Named)

theorem isWritten_ofString (text : String) : (ofString text).IsWritten := by
  intro part hpart
  obtain ⟨hmem, hnamed⟩ := List.mem_filter.mp hpart
  exact ⟨hnamed, Text.notMem_of_mem_split hmem⟩

theorem IsWritten.div {path : Path} (hpath : path.IsWritten) (text : String) :
    IsWritten (path / text) := by
  change (path.join (ofString text)).IsWritten
  unfold join
  split
  · exact isWritten_ofString text
  · intro part hpart
    exact (List.mem_append.mp hpart).elim (hpath part) (isWritten_ofString text part)

/-- A name with a letter is neither empty nor a row of dots. -/
theorem named_of_mem {name : String} {c : Char} (hmem : c ∈ name.toList) (hdot : c ≠ '.') :
    isNamed name = true ∧ name ≠ ".." := by
  have hne : ∀ other : String, c ∉ other.toList → name ≠ other :=
    fun other hother heq => hother (heq ▸ hmem)
  have hdots : name ≠ ".." := hne ".." (by simp [hdot])
  exact ⟨by simp [isNamed, hne "" (by simp), hne "." (by simp [hdot])], hdots⟩

/-- A text that leads from a directory to it or to something below it. -/
structure IsPlain (text : String) : Prop where
  relative : (ofString text).root = ""
  noDots : ".." ∉ (ofString text).parts

theorem root_ofString {text : String} (hhead : text.toList.head? ≠ some '/') :
    (ofString text).root = "" := by
  have hbegins : ∀ start : String, start.toList.head? = some '/' →
      Text.beginsWith start text = false := by
    intro start hstart
    rw [Text.beginsWith, Bool.eq_false_iff]
    intro hbegins
    obtain ⟨rest, hrest⟩ := List.isPrefixOf_iff_prefix.mp hbegins
    rw [← hrest, List.head?_append, hstart] at hhead
    exact hhead rfl
  change rootOf text = ""
  simp [rootOf, hbegins "///" rfl, hbegins "//" rfl, hbegins "/" rfl]

theorem isPlain_of_split {text : String} (hhead : text.toList.head? ≠ some '/')
    (hdots : ".." ∉ Text.split '/' text) : IsPlain text where
  relative := root_ofString hhead
  noDots := fun hmem => hdots (List.mem_of_mem_filter hmem)

/-- Names that files can have are read back from the text of their path. -/
theorem ofString_toString_of_named {names : List String} (hnamed : Named names) :
    ofString (toString ⟨"", names⟩) = ⟨"", names⟩ := by
  rcases names with _ | ⟨name, rest⟩
  · decide
  have htext : toString ⟨"", name :: rest⟩ = "/".intercalate (name :: rest) := by
    simp [toString]
  have hsplit : Text.split '/' ("/".intercalate (name :: rest)) = name :: rest :=
    Text.split_intercalate '/' (fun part hpart => (hnamed part hpart).noSlash) (by simp)
  have hhead : ("/".intercalate (name :: rest)).toList.head? ≠ some '/' := by
    intro hhead
    obtain ⟨tail, htail⟩ := List.head?_eq_some_iff.mp hhead
    rw [Text.split, htail, List.splitOn_cons_eq_if_modifyHead] at hsplit
    obtain rfl : "" = name := by simpa using (List.cons.inj hsplit).1
    exact absurd (hnamed "" List.mem_cons_self).named (by decide)
  have hplain := isPlain_of_split hhead (by rw [hsplit]; exact hnamed.noDots)
  have hparts : (ofString ("/".intercalate (name :: rest))).parts = name :: rest := by
    rw [ofString, hsplit]
    exact List.filter_eq_self.mpr fun part hpart => (hnamed part hpart).named
  rw [htext]
  exact congr (congrArg Path.mk hplain.relative) hparts

theorem isPlain_of_name {name : String} (hslash : '/' ∉ name.toList) (hdots : name ≠ "..") :
    IsPlain name := by
  refine isPlain_of_split (fun hhead => hslash (List.mem_of_head? hhead)) ?_
  rw [Text.split_eq_singleton hslash]
  simpa using hdots.symm

/-- A text between two names with a letter is plain if no part of it is double dots. -/
theorem isPlain_between {text beginning ending : String} (hdots : ".." ∉ Text.split '/' text)
    (hbeginning : '/' ∉ beginning.toList) (hending : '/' ∉ ending.toList)
    {c : Char} (hc : c ∈ beginning.toList) (hcDot : c ≠ '.') {e : Char} (he : e ∈ ending.toList)
    (heDot : e ≠ '.') : IsPlain (beginning ++ text ++ ending) := by
  obtain ⟨first, others, htext, hprepended⟩ := Text.split_prepend hbeginning text
  obtain ⟨front, rest, hfront, happended⟩ := Text.split_append hending (beginning ++ text)
  refine isPlain_of_split (fun hhead => hbeginning ?_) ?_
  · rw [String.append_assoc, String.toList_append, List.head?_append] at hhead
    cases hchars : beginning.toList with
    | nil => simp [hchars] at hc
    | cons head tail => simp_all
  · rw [happended, List.mem_append, List.mem_singleton, not_or]
    refine ⟨fun hmem => ?_, fun heq => (named_of_mem (by simp [he]) heDot).2 heq.symm⟩
    have hparts : ".." ∈ (beginning ++ first) :: others := by
      rw [← hprepended, hfront]
      exact List.mem_append_left _ hmem
    rcases List.mem_cons.mp hparts with heq | hothers
    · exact (named_of_mem (by simp [hc]) hcDot).2 heq.symm
    · exact hdots (htext ▸ List.mem_cons_of_mem _ hothers)

/-- A text leads to the same place with every ending that has a letter and no slash, but for the
ending. -/
theorem exists_parts_ofString (text : String) : ∃ front rest, '/' ∉ rest.toList ∧
    ∀ (ending : String) (c : Char), '/' ∉ ending.toList → c ∈ ending.toList → c ≠ '.' →
      (ofString (text ++ ending)).parts = front ++ [rest ++ ending] := by
  obtain ⟨front, rest, htext, -⟩ := Text.split_append (by decide : '/' ∉ "".toList) text
  have hpart : rest ∈ Text.split '/' text := by simp [htext]
  refine ⟨front.filter isNamed, rest, Text.notMem_of_mem_split hpart,
    fun ending c hslash hmem hdot => ?_⟩
  obtain ⟨front', rest', htext', hsplit⟩ := Text.split_append hslash text
  obtain ⟨rfl, hrest⟩ := List.append_inj' (htext'.symm.trans htext) rfl
  obtain rfl := List.singleton_inj.mp hrest
  have hnamed : c ∈ (rest' ++ ending).toList := by simp [hmem]
  rw [ofString, hsplit, List.filter_append]
  simp [(named_of_mem hnamed hdot).1]

/-- A text that ends in a name with a letter leads to something that ends so. -/
theorem parts_ofString (text ending : String) (c : Char) (hslash : '/' ∉ ending.toList)
    (hmem : c ∈ ending.toList) (hdot : c ≠ '.') : ∃ front rest, '/' ∉ rest.toList ∧
      (ofString (text ++ ending)).parts = front ++ [rest ++ ending] := by
  obtain ⟨front, rest, hrest, hparts⟩ := exists_parts_ofString text
  exact ⟨front, rest, hrest, hparts ending c hslash hmem hdot⟩

theorem parts_div (path : Path) {text : String} {front : List String} {name : String}
    (hparts : (ofString text).parts = front ++ [name]) :
    ∃ front, (path / text).parts = front ++ [name] := by
  change ∃ front, (path.join (ofString text)).parts = front ++ [name]
  unfold join
  split
  · exact ⟨front, hparts⟩
  · exact ⟨path.parts ++ front, by simp [hparts]⟩

/-- The name is split where its ending begins. -/
theorem stem_and_suffix {path : Path} {text : String} (hname : path.name = text ++ ".tiny")
    (htext : text ≠ "") : path.stem = text ∧ path.suffix = ".tiny" := by
  have hchars : path.name.toList = text.toList ++ ".tiny".toList := by rw [hname, String.toList_append]
  have hlength : path.name.length = text.length + 5 := by
    rw [hname, String.length_append]
    rfl
  have hpositive : 0 < text.length :=
    Nat.pos_of_ne_zero fun hzero => htext (String.length_eq_zero_iff.mp hzero)
  have hindex : dotIndex? path.name = some text.length := by
    have htail : (path.name.toList.reverse.takeWhile (· != '.')).length = 4 := by simp [hchars]
    simp only [dotIndex?, htail, hlength]
    rw [if_pos (by omega)]
    exact congrArg some (by omega)
  have hfront : text.length = text.toList.length := String.length_toList.symm
  unfold stem suffix
  simp [hindex, hchars, hfront]

theorem stem_append_suffix (path : Path) : path.stem ++ path.suffix = path.name := by
  unfold stem suffix
  split
  · rw [← String.ofList_append, List.take_append_drop, String.ofList_toList]
  · exact String.append_empty

theorem name_of_parts {path : Path} {front : List String} {name : String}
    (hparts : path.parts = front ++ [name]) : path.name = name := by
  simp [Path.name, hparts]

end Path

/-! ### Documents -/

/-- A text that names a file. It has a letter that the names of event logs and reports have not. -/
structure FileTree.IsDocument (name : String) : Prop where
  single : '/' ∉ name.toList
  letter : ∃ c ∈ ['a', 'y', 'z'], c ∈ name.toList

namespace FileTree.IsDocument

variable {name : String} (hname : IsDocument name)

include hname

theorem named : Path.isNamed name = true ∧ name ≠ ".." := by
  obtain ⟨c, hletter, hmem⟩ := hname.letter
  exact Path.named_of_mem hmem (by rintro rfl; simp at hletter)

theorem ofString_eq : Path.ofString name = ⟨"", [name]⟩ := by
  have hparts : (Path.ofString name).parts = [name] := by
    simp [Path.ofString, Text.split_eq_singleton hname.single, hname.named]
  exact congr (congrArg Path.mk (Path.isPlain_of_name hname.single hname.named.2).relative) hparts

theorem isFileName : IsFileName name :=
  ⟨hname.named.1, hname.named.2, hname.single⟩

theorem div_eq (path : Path) : path / name = ⟨path.root, path.parts ++ [name]⟩ :=
  Path.div_of_single hname.ofString_eq path

theorem normal_div (path : Path) (here : Location) :
    (path / name).normal here = path.normal here ++ [name] :=
  Path.normal_div_of_single hname.ofString_eq hname.named.2 path here

theorem endsIn (path : Path) : (path / name).EndsIn name :=
  Path.endsIn_of_parts (congrArg Path.parts (hname.div_eq path)) hname.named.2

end FileTree.IsDocument

namespace MappingProvider.Chained

variable (workspace : Workspace) (version : String)

/-- A document of a workspace is named by the end of its name. -/
theorem parts_mapping (text ending : String) (c : Char) (hslash : '/' ∉ ending.toList)
    (hmem : c ∈ ending.toList) (hdot : c ≠ '.') : ∃ front rest, '/' ∉ rest.toList ∧
      (workspace.mapping (text ++ ending)).parts = front ++ [rest ++ ending] := by
  obtain ⟨front, rest, hrest, hparts⟩ := Path.parts_ofString text ending c hslash hmem hdot
  obtain ⟨front', hparts'⟩ := Path.parts_div workspace.mappingsDirectory hparts
  exact ⟨front', rest, hrest, hparts'⟩

theorem plainName_append (rest : String) : plainName (rest ++ ".tiny.gz") = rest ++ ".tiny" := by
  have hends : Text.endsWith ".gz" (rest ++ ".tiny.gz") = true := by
    rw [Text.endsWith, List.isSuffixOf_iff_suffix]
    exact ⟨rest.toList ++ ".tiny".toList, by simp⟩
  have hchars : (rest ++ ".tiny.gz").toList = (rest ++ ".tiny").toList ++ ".gz".toList := by simp
  have hlength : (rest ++ ".tiny.gz").length - 3 = (rest ++ ".tiny").toList.length := by
    rw [← String.length_toList, hchars, List.length_append]
    rfl
  rw [plainName, if_pos hends, hchars, hlength, List.take_left, String.ofList_toList]

theorem parts_compressedPath : ∃ front rest, '/' ∉ rest.toList ∧
    (compressedPath workspace version).parts = front ++ [rest ++ ".tiny.gz"] :=
  parts_mapping workspace _ _ 'y' (by decide) (by decide) (by decide)

/-- Whatever the version, the decompressed document stands in the directory of mappings itself. -/
theorem exists_decompressedPath : ∃ rest, '/' ∉ (rest ++ ".tiny").toList ∧
    decompressedPath workspace version = workspace.mapping (rest ++ ".tiny") := by
  obtain ⟨front, rest, hslash, hparts⟩ := parts_compressedPath workspace version
  refine ⟨rest, ?_, by rw [decompressedPath, Path.name_of_parts hparts, plainName_append]⟩
  rw [String.toList_append, List.mem_append, not_or]
  exact ⟨hslash, by decide⟩

theorem parts_decompressedPath : ∃ front rest,
    (decompressedPath workspace version).parts = front ++ [rest ++ ".tiny"] := by
  obtain ⟨rest, -, heq⟩ := exists_decompressedPath workspace version
  rw [heq]
  obtain ⟨front, rest, -, hparts⟩ :=
    parts_mapping workspace rest ".tiny" 'y' (by decide) (by decide) (by decide)
  exact ⟨front, rest, hparts⟩

variable {version} in
theorem isDocument_between {beginning ending : String} (hversion : '/' ∉ version.toList)
    (hbeginning : '/' ∉ beginning.toList) (hending : '/' ∉ ending.toList) {c : Char}
    (hletter : c ∈ ['a', 'y', 'z']) (hmem : c ∈ ending.toList) :
    FileTree.IsDocument (beginning ++ version ++ ending) where
  single := by simp [hversion, hbeginning, hending]
  letter := ⟨c, hletter, by simp [hmem]⟩

section

variable {version} (hversion : '/' ∉ version.toList)

include hversion

theorem decompressedPath_eq :
    decompressedPath workspace version = workspace.mapping ("yarn-" ++ version ++ ".tiny") := by
  have hname : FileTree.IsDocument ("yarn-" ++ version ++ ".tiny.gz") :=
    isDocument_between hversion (by decide) (by decide) (c := 'y') (by decide) (by decide)
  have hpath : (compressedPath workspace version).name = "yarn-" ++ version ++ ".tiny.gz" :=
    Path.name_of_parts (congrArg Path.parts (hname.div_eq workspace.mappingsDirectory))
  rw [decompressedPath, hpath, plainName_append]

theorem headedPath_decompressedPath : headedPath (decompressedPath workspace version) =
    workspace.mapping ("yarn-" ++ version ++ "-normalized.tiny") := by
  have hplain : FileTree.IsDocument ("yarn-" ++ version ++ ".tiny") :=
    isDocument_between hversion (by decide) (by decide) (c := 'y') (by decide) (by decide)
  have hheaded : FileTree.IsDocument ("yarn-" ++ version ++ "-normalized.tiny") :=
    isDocument_between hversion (by decide) (by decide) (c := 'y') (by decide) (by decide)
  have hparts := hplain.div_eq workspace.mappingsDirectory
  have hname : (workspace.mapping ("yarn-" ++ version ++ ".tiny")).name =
      "yarn-" ++ version ++ ".tiny" := Path.name_of_parts (congrArg Path.parts hparts)
  obtain ⟨hstem, hsuffix⟩ := Path.stem_and_suffix hname (by simp)
  rw [decompressedPath_eq workspace hversion, headedPath, hstem, hsuffix, Workspace.mapping,
    Workspace.mapping, hparts, hheaded.div_eq, Path.withName]
  simp [String.append_assoc]

end

/-- Every document is named by something with one of these letters, which no event log has. -/
theorem DocumentOf.endsIn {path : Path} (hpath : DocumentOf workspace version path) :
    ∃ name, path.EndsIn name ∧ ∃ c ∈ ['a', 'y', 'z'], c ∈ name.toList := by
  have hends : ∀ {path : Path} {front : List String} {rest ending : String} (c : Char),
      path.parts = front ++ [rest ++ ending] → c ∈ ending.toList → c ∈ ['a', 'y', 'z'] →
      ∃ name, path.EndsIn name ∧ ∃ c ∈ ['a', 'y', 'z'], c ∈ name.toList := by
    intro path front rest ending c hparts hmem hletter
    have hname : c ∈ (rest ++ ending).toList := by simp [hmem]
    have hdot : c ≠ '.' := by rintro rfl; simp at hletter
    exact ⟨_, Path.endsIn_of_parts hparts (Path.named_of_mem hname hdot).2, c, hletter, hname⟩
  cases hpath with
  | intermediary =>
    obtain ⟨front, rest, -, hparts⟩ := parts_mapping workspace ("intermediary-" ++ version)
      ".tiny" 'y' (by decide) (by decide) (by decide)
    exact hends 'y' hparts (by decide) (by decide)
  | archive =>
    obtain ⟨front, rest, -, hparts⟩ := parts_mapping workspace ("intermediary-" ++ version)
      "-v2.jar" 'a' (by decide) (by decide) (by decide)
    exact hends 'a' hparts (by decide) (by decide)
  | compressed =>
    obtain ⟨front, rest, -, hparts⟩ := parts_compressedPath workspace version
    exact hends 'y' hparts (by decide) (by decide)
  | decompressed =>
    obtain ⟨front, rest, hparts⟩ := parts_decompressedPath workspace version
    exact hends 'y' hparts (by decide) (by decide)
  | headed =>
    have hparts : (headedPath (decompressedPath workspace version)).parts =
        (decompressedPath workspace version).parts.dropLast ++
          [(decompressedPath workspace version).stem ++
            ("-normalized" ++ (decompressedPath workspace version).suffix)] := by
      rw [headedPath, Path.withName, String.append_assoc]
    exact hends 'z' hparts (by simp) (by decide)

end MappingProvider.Chained

end JarRefinery
