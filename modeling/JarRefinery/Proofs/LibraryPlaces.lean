import JarRefinery.Proofs.Producers
import JarRefinery.Proofs.Splitting
import JarRefinery.Workspace

/-!
# Places of libraries

A path is read part by part as it is written: an empty part and a single dot stay where they are, a
double dot goes up, any other part goes down, and a text that begins with a slash begins at the root.
The path of a library is admitted exactly if it leads below the directory of the libraries in this
sense, however often it leaves and enters it on the way.
-/

namespace JarRefinery

namespace Text

/-- A text that goes on begins as before. -/
theorem beginsWith_append {text : String} (hne : text ≠ "") (more : String) :
    beginsWith "/" (text ++ more) = beginsWith "/" text := by
  have hchars : text.toList ≠ [] := fun hnil => hne (String.toList_eq_nil_iff.mp hnil)
  obtain ⟨c, rest, hcons⟩ := List.exists_cons_of_ne_nil hchars
  rw [beginsWith, beginsWith, String.toList_append, hcons]
  rfl

end Text

namespace Path

/-! ### Paths as they are written -/

/-- Where a part of a path leads from a location. -/
def step (location : Location) (part : String) : Location :=
  if part = "" ∨ part = "." then location
  else if part = ".." then location.dropLast
  else location ++ [part]

/-- Where a path leads from the directory `here`, as it is written. -/
def placeOf (here : Location) (text : String) : Location :=
  (Text.split '/' text).foldl step (if Text.beginsWith "/" text then [] else here)

/-- One path after another, as they are written. -/
def joinText (base text : String) : String :=
  if Text.beginsWith "/" text then text
  else if base = "" ∨ Text.endsWith "/" base then base ++ text
  else base ++ "/" ++ text

/-- The path has been read from the text, or from another that leads the same way. -/
structure Reads (path : Path) (text : String) : Prop where
  parts : path.parts = (Text.split '/' text).filter isNamed
  absolute : path.isAbsolute = Text.beginsWith "/" text

theorem reads_ofString (text : String) : (ofString text).Reads text := by
  refine ⟨rfl, ?_⟩
  have hmore : ∀ start : String, Text.beginsWith start text = true →
      Text.beginsWith "/" start = true → Text.beginsWith "/" text = true := fun start hstart hslash =>
    List.isPrefixOf_iff_prefix.mpr ((List.isPrefixOf_iff_prefix.mp hslash).trans
      (List.isPrefixOf_iff_prefix.mp hstart))
  simp only [ofString, isAbsolute, rootOf]
  split_ifs with hthree htwo hone
  · exact (hmore _ hthree (by decide)).symm
  · exact (hmore _ htwo (by decide)).symm
  · exact hone.symm
  · exact (Bool.eq_false_iff.mpr hone).symm

namespace Reads

variable {path : Path} {base : String} (hreads : path.Reads base)

include hreads

/-- A path goes on as its text does. -/
theorem div (text : String) : (path / text).Reads (joinText base text) := by
  change (path.join (ofString text)).Reads _
  have htext := reads_ofString text
  unfold joinText join
  rw [htext.absolute]
  split
  · exact htext
  rename_i hrelative
  rw [Bool.not_eq_true] at hrelative
  split
  · rename_i hbase
    rcases hbase with rfl | hends
    · refine ⟨?_, ?_⟩
      · have hparts : path.parts = [] := hreads.parts
        simp [hparts, htext.parts]
      · rw [String.empty_append, hrelative]
        exact hreads.absolute
    · obtain ⟨front, hfront⟩ := List.isSuffixOf_iff_suffix.mp hends
      obtain rfl : base = String.ofList front ++ String.singleton '/' := by
        rw [← String.toList_inj, ← hfront]
        simp
      refine ⟨?_, ?_⟩
      · have hempty := Text.split_mark '/' (String.ofList front) ""
        rw [String.append_empty] at hempty
        change path.parts ++ _ = _
        rw [hreads.parts, htext.parts, Text.split_mark, hempty, List.filter_append, List.filter_append,
          show (Text.split '/' "").filter isNamed = [] from rfl, List.append_nil]
      · rw [Text.beginsWith_append (by simp)]
        exact hreads.absolute
  · rename_i hbase
    refine ⟨?_, ?_⟩
    · change path.parts ++ _ = _
      rw [hreads.parts, htext.parts, show "/" = String.singleton '/' from rfl, Text.split_mark,
        List.filter_append]
    · rw [String.append_assoc, Text.beginsWith_append fun hempty => hbase (.inl hempty)]
      exact hreads.absolute

/-- The names of a path lead where the parts of its text do. -/
theorem normal_eq (here : Location) : path.normal here = placeOf here base := by
  have hfold : ∀ (parts : List String) (location : Location),
      walk location (parts.filter isNamed) = parts.foldl step location := by
    intro parts
    induction parts with
    | nil => exact fun _ => rfl
    | cons part rest ih =>
      intro location
      by_cases hempty : part = "" ∨ part = "."
      · have hnamed : isNamed part = false := by rcases hempty with rfl | rfl <;> rfl
        rw [List.filter_cons_of_neg (by simp [hnamed]), ih, List.foldl_cons, step, if_pos hempty]
      · have hnamed : isNamed part = true := by simpa [isNamed] using hempty
        rw [List.filter_cons_of_pos hnamed, List.foldl_cons, step, if_neg hempty]
        exact ih _
  rw [Path.normal, hreads.parts, hreads.absolute]
  exact hfold _ _

theorem hasNull_iff : FileTree.hasNull path = true ↔ '\x00' ∈ base.toList := by
  rw [FileTree.hasNull, hreads.parts, List.any_eq_true,
    ← Text.exists_mem_split_iff (show '\x00' ≠ '/' by decide)]
  constructor
  · rintro ⟨part, hpart, hnull⟩
    exact ⟨part, (List.mem_filter.mp hpart).1, by simpa using hnull⟩
  · rintro ⟨part, hpart, hnull⟩
    have hnamed : isNamed part = true := by
      have hne : ∀ other : String, '\x00' ∉ other.toList → part ≠ other :=
        fun other hother heq => hother (heq ▸ hnull)
      simp [isNamed, hne "" (by decide), hne "." (by decide)]
    exact ⟨part, List.mem_filter.mpr ⟨hpart, hnamed⟩, by simpa using hnull⟩

end Reads

theorem mem_joinText {base text : String} {c : Char} (hc : c ≠ '/') :
    c ∈ (joinText base text).toList ↔
      c ∈ text.toList ∨ Text.beginsWith "/" text = false ∧ c ∈ base.toList := by
  unfold joinText
  split_ifs <;> simp_all [or_comm]

/-- Something of its own lies between the location and what is above it. -/
def StrictlyBelow (base location : Location) : Prop :=
  ∃ names, names ≠ [] ∧ location = base ++ names

theorem strictlyBelow_iff {base location : Location} :
    StrictlyBelow base location ↔ base.isPrefixOf location ∧ base ≠ location := by
  rw [List.isPrefixOf_iff_prefix]
  constructor
  · rintro ⟨names, hnames, rfl⟩
    exact ⟨List.prefix_append _ _, by simpa using hnames⟩
  · rintro ⟨⟨names, rfl⟩, hne⟩
    exact ⟨names, by simpa using hne, rfl⟩

instance (base location : Location) : Decidable (StrictlyBelow base location) :=
  decidable_of_iff _ strictlyBelow_iff.symm

end Path

namespace Workspace

open Path (joinText placeOf StrictlyBelow)

/-- Where the directory of the libraries of a workspace is. -/
def librariesPlace (here : Location) (root : String) : Location :=
  placeOf here (joinText root "libraries")

/-- Where the path of a library leads from there. -/
def libraryPlace (here : Location) (root relative : String) : Location :=
  placeOf here (joinText (joinText root "libraries") relative)

/-- A library is taken or refused by the places that its path and the directory lead to. -/
theorem eval_library (root relative : String) (host : Host) (world : World) :
    (library ⟨.ofString root⟩ relative).eval host world =
      (if '\x00' ∈ root.toList ∨ '\x00' ∈ relative.toList then .error .nullByte
      else if StrictlyBelow (librariesPlace world.files.here root)
          (libraryPlace world.files.here root relative) then
        .ok (.ofLocation (libraryPlace world.files.here root relative))
      else .error (.value ("Library path escapes libraries dir: " ++ relative)), world) := by
  have hbase := (Path.reads_ofString root).div "libraries"
  have hplace := hbase.div relative
  have hbaseNull : FileTree.hasNull (Path.ofString root / "libraries") = true ↔
      '\x00' ∈ root.toList := by
    have hrelative : Text.beginsWith "/" "libraries" = false := by decide
    rw [hbase.hasNull_iff, Path.mem_joinText (by decide)]
    simp [hrelative]
  have hplaceNull := hplace.hasNull_iff.trans (Path.mem_joinText (by decide))
  rw [← hbase.hasNull_iff, hbaseNull] at hplaceNull
  unfold library librariesDirectory
  by_cases hnull : FileTree.hasNull (Path.ofString root / "libraries" / relative) = true
  · rw [Action.eval_bind_error (Action.eval_resolve_null hnull),
      if_pos ((hplaceNull.mp hnull).elim .inr fun hroot => .inl hroot.2)]
    rfl
  rw [Bool.not_eq_true] at hnull
  rw [Action.eval_bind_ok (Action.eval_resolve hnull)]
  by_cases hroot : FileTree.hasNull (Path.ofString root / "libraries") = true
  · rw [Action.eval_bind_error (Action.eval_resolve_null hroot), if_pos (.inl (hbaseNull.mp hroot))]
    rfl
  have hfree : ¬('\x00' ∈ root.toList ∨ '\x00' ∈ relative.toList) := by
    rintro (hmem | hmem)
    · exact hroot (hbaseNull.mpr hmem)
    · simp [hplaceNull.mpr (.inl hmem)] at hnull
  rw [Bool.not_eq_true] at hroot
  rw [Action.eval_bind_ok (Action.eval_resolve hroot), if_neg hfree,
    show (Path.ofString root / "libraries").normal _ = librariesPlace world.files.here root from
      hbase.normal_eq _,
    show (Path.ofString root / "libraries" / relative).normal _ =
      libraryPlace world.files.here root relative from hplace.normal_eq _]
  generalize librariesPlace world.files.here root = base
  generalize libraryPlace world.files.here root relative = place
  change Action.eval (if base.isPrefixOf place ∧ base ≠ place then _ else _) host world = _
  by_cases hbelow : StrictlyBelow base place
  · rw [if_pos hbelow, if_pos (Path.strictlyBelow_iff.mp hbelow)]
    rfl
  · rw [if_neg hbelow, if_neg fun hboth => hbelow (Path.strictlyBelow_iff.mpr hboth)]
    rfl

/-- **Places of libraries.** The path of a library is taken exactly if it leads strictly below the
directory of the libraries, and its place is where it leads. All other paths are refused as values
that are not admitted, and so are those that no file can have. -/
theorem library_ok_iff (root relative : String) (host : Host) (world : World) :
    (∀ path after, (library ⟨.ofString root⟩ relative).eval host world = (.ok path, after) ↔
      ('\x00' ∉ root.toList ∧ '\x00' ∉ relative.toList) ∧
      StrictlyBelow (librariesPlace world.files.here root)
        (libraryPlace world.files.here root relative) ∧
      path = .ofLocation (libraryPlace world.files.here root relative) ∧ after = world) ∧
    ∀ fault after, (library ⟨.ofString root⟩ relative).eval host world = (.error fault, after) →
      fault.kind = .valueError ∧ after = world := by
  rw [eval_library]
  constructor
  · intro path after
    split_ifs with hnull hbelow
    · simp only [Prod.mk.injEq, reduceCtorEq, false_and, false_iff]
      exact fun hall => hnull.elim hall.1.1 hall.1.2
    · simp [not_or.mp hnull, hbelow, eq_comm]
    · simp [hbelow]
  · intro fault after
    split_ifs
    · rintro ⟨⟩
      exact ⟨rfl, rfl⟩
    · rintro ⟨⟩
    · rintro ⟨⟩
      exact ⟨rfl, rfl⟩

/-- A path that leaves the directory is taken if it enters it again, and not if it goes on to another
whose name begins the same. -/
theorem library_ok_iff_entered :
    (library ⟨.ofString "ws/."⟩ "../libraries//a/../b.jar").eval .idle { files := .bare } =
        (.ok (.ofLocation ["work", "ws", "libraries", "b.jar"]), { files := .bare }) ∧
      ∀ path after, (library ⟨.ofString "ws/."⟩ "../libraries-old/b.jar").eval .idle { files := .bare } ≠
        (.ok path, after) := by
  obtain ⟨htaken, -⟩ := library_ok_iff "ws/." "../libraries//a/../b.jar" .idle { files := .bare }
  obtain ⟨hother, -⟩ := library_ok_iff "ws/." "../libraries-old/b.jar" .idle { files := .bare }
  refine ⟨(htaken _ _).mpr ⟨by decide, by decide, by decide, rfl⟩, fun path after hok => ?_⟩
  obtain ⟨-, hbelow, -⟩ := (hother path after).mp hok
  revert hbelow
  decide

end Workspace

end JarRefinery
