import JarRefinery.Mapping.Coordinate
import JarRefinery.Proofs.Splitting
import JarRefinery.Tool.Published

/-!
# Coordinates and places in a repository

A file is kept in a directory for each part of its group, then for its artifact, then for its version.
No two coordinates share a place, since the last three names on the way to a file tell its artifact
and its version, and those before them its group. The jar of a published tool is where the place of
its coordinate says.
-/

namespace JarRefinery

namespace Coordinate

variable {coordinate other : Coordinate} {classifier extension : String}

/-! ### Texts -/

/-- A coordinate as it is written. -/
def text (coordinate : Coordinate) : String :=
  ":".intercalate [coordinate.group, coordinate.artifact, coordinate.version]

/-- The mark is in no part of the coordinate. -/
structure Lacks (coordinate : Coordinate) (mark : Char) : Prop where
  group : mark ∉ coordinate.group.toList
  artifact : mark ∉ coordinate.artifact.toList
  version : mark ∉ coordinate.version.toList

/-- A text of exactly three parts, none of them empty or with a slash. -/
def IsWhole (text : String) : Prop :=
  (Text.split ':' text).length = 3 ∧
    ∀ part ∈ Text.split ':' text, part ≠ "" ∧ '/' ∉ part.toList

instance (text : String) : Decidable (IsWhole text) :=
  inferInstanceAs (Decidable (_ ∧ _))

theorem parse_text (hcolon : coordinate.Lacks ':') : parse coordinate.text = .ok coordinate := by
  have hsplit : Text.split ':' coordinate.text =
      [coordinate.group, coordinate.artifact, coordinate.version] := by
    refine Text.split_intercalate ':' ?_ (by simp)
    simp [hcolon.group, hcolon.artifact, hcolon.version]
  rw [parse, hsplit]

/-- A text of exactly three parts is that of the coordinate that it gives. -/
theorem parse_of_isWhole {text : String} (hwhole : IsWhole text) :
    ∃ coordinate, parse text = .ok coordinate ∧ coordinate.text = text ∧ coordinate.Lacks '/' := by
  obtain ⟨hlength, hparts⟩ := hwhole
  obtain ⟨group, artifact, version, hsplit⟩ := List.length_eq_three.mp hlength
  have htext := Text.intercalate_split ':' text
  rw [hsplit] at hparts htext
  exact ⟨⟨group, artifact, version⟩, by rw [parse, hsplit], htext, (hparts group (by simp)).2,
    (hparts artifact (by simp)).2, (hparts version (by simp)).2⟩

/-! ### Places -/

/-- The names on the way to the files of a coordinate, and how their own names begin. -/
def places (coordinate : Coordinate) : List String :=
  Text.split '.' coordinate.group ++
    [coordinate.artifact, coordinate.version, coordinate.artifact ++ "-" ++ coordinate.version]

/-- How the names of files end. -/
def ending (classifier extension : String) : String :=
  (if classifier.isEmpty then "" else "-" ++ classifier) ++ "." ++ extension

theorem path_eq (coordinate : Coordinate) (classifier extension : String) :
    coordinate.path classifier extension =
      "/".intercalate coordinate.places ++ ending classifier extension := by
  have hgroup : Text.split '.' coordinate.group ≠ [] := by simp [Text.split]
  rw [places, String.intercalate_append_of_ne_nil hgroup (by simp)]
  simp [path, fileName, ending, String.append_assoc]

theorem places_injective : Function.Injective places := by
  intro coordinate other hplaces
  obtain ⟨hgroup, hnames⟩ := List.append_inj' hplaces rfl
  obtain ⟨hartifact, hversion, -⟩ : coordinate.artifact = other.artifact ∧
      coordinate.version = other.version ∧ _ := by simpa using hnames
  have hgroup := Text.split_injective '.' hgroup
  cases coordinate
  cases other
  simp_all

/-- The names on the way are the parts of the path. -/
theorem split_places (hslash : coordinate.Lacks '/') :
    Text.split '/' ("/".intercalate coordinate.places) = coordinate.places := by
  refine Text.split_intercalate '/' ?_ (by simp [places])
  have hgroup : ∀ part ∈ Text.split '.' coordinate.group, '/' ∉ part.toList := fun part hpart hmem =>
    hslash.group ((Text.exists_mem_split_iff (by decide) _).mp ⟨part, hpart, hmem⟩)
  simpa [places, or_imp, forall_and, hslash.artifact, hslash.version] using hgroup

/-- Files of two coordinates with the same ending have different places. -/
theorem path_injective (hslash : coordinate.Lacks '/') (hother : other.Lacks '/')
    (hpath : coordinate.path classifier extension = other.path classifier extension) :
    coordinate = other := by
  rw [path_eq, path_eq, String.append_left_inj] at hpath
  apply places_injective
  calc coordinate.places = Text.split '/' ("/".intercalate coordinate.places) :=
        (split_places hslash).symm
    _ = Text.split '/' ("/".intercalate other.places) := by rw [hpath]
    _ = other.places := split_places hother

end Coordinate

namespace PublishedTool

variable {tool : PublishedTool} {version : String}

/-- The coordinate of a version of a tool: dots stand in its group where slashes do in the path. -/
def coordinate (tool : PublishedTool) (version : String) : Coordinate where
  group := ".".intercalate (Text.split '/' tool.groupPath)
  artifact := tool.artifact
  version := version

/-- The parts of the group are those of its path. -/
theorem split_group (hdot : '.' ∉ tool.groupPath.toList) :
    Text.split '.' (tool.coordinate version).group = Text.split '/' tool.groupPath := by
  refine Text.split_intercalate '.' (fun part hpart hmem => hdot ?_) (by simp [Text.split])
  exact (Text.exists_mem_split_iff (by decide) _).mp ⟨part, hpart, hmem⟩

theorem lacks_colon (hdot : '.' ∉ tool.groupPath.toList) (hgroup : ':' ∉ tool.groupPath.toList)
    (hartifact : ':' ∉ tool.artifact.toList) (hversion : ':' ∉ version.toList) :
    (tool.coordinate version).Lacks ':' where
  group := by
    intro hmem
    obtain ⟨part, hpart, hcolon⟩ :=
      (Text.exists_mem_split_iff (show ':' ≠ '.' by decide) _).mpr hmem
    rw [split_group hdot] at hpart
    exact hgroup ((Text.exists_mem_split_iff (by decide) _).mp ⟨part, hpart, hcolon⟩)
  artifact := hartifact
  version := hversion

/-- The jar of a tool is where the place of its coordinate says. -/
theorem jarUrl_eq (hdot : '.' ∉ tool.groupPath.toList) :
    tool.jarUrl version = Text.stripEnd (· == '/') tool.repository ++ "/" ++
      (tool.coordinate version).path tool.classifier "jar" := by
  have hgroup : "/".intercalate (Text.split '/' tool.groupPath) = tool.groupPath :=
    Text.intercalate_split '/' tool.groupPath
  rw [Coordinate.path, split_group hdot, hgroup]
  simp [jarUrl, baseUrl, Coordinate.fileName, coordinate, String.append_assoc]

end PublishedTool

namespace Coordinate

/-- **Places in a repository.** Texts of exactly three parts that no slash is in give files of the
same ending in different places, unless they are the same. The jar of a version of a tool is below
the address of its repository where the place of its coordinate is, and the text of the coordinate
gives it. -/
theorem layout_unambiguous :
    (∀ classifier extension first second : String, IsWhole first → IsWhole second →
      ∃ coordinate other, parse first = .ok coordinate ∧ parse second = .ok other ∧
        (coordinate.path classifier extension = other.path classifier extension →
          first = second)) ∧
    ∀ (tool : PublishedTool) (version : String), '.' ∉ tool.groupPath.toList →
      ':' ∉ tool.groupPath.toList → ':' ∉ tool.artifact.toList → ':' ∉ version.toList →
        parse (tool.coordinate version).text = .ok (tool.coordinate version) ∧
        tool.jarUrl version = Text.stripEnd (· == '/') tool.repository ++ "/" ++
          (tool.coordinate version).path tool.classifier "jar" := by
  constructor
  · intro classifier extension first second hfirst hsecond
    obtain ⟨coordinate, hparse, rfl, hslash⟩ := parse_of_isWhole hfirst
    obtain ⟨other, hother, rfl, hotherSlash⟩ := parse_of_isWhole hsecond
    exact ⟨coordinate, other, hparse, hother, fun hpath =>
      congrArg text (path_injective hslash hotherSlash hpath)⟩
  · intro tool version hdot hgroup hartifact hversion
    exact ⟨parse_text (PublishedTool.lacks_colon hdot hgroup hartifact hversion),
      PublishedTool.jarUrl_eq hdot⟩

/-- Two coordinates whose files have the same name but not the same place, and a tool whose version
has a dash, a dot and a plus sign. -/
theorem layout_unambiguous_dashes :
    (IsWhole "a.b:c-1:2" ∧ IsWhole "a.b:c:1-2" ∧
      parse "a.b:c-1:2" = .ok ⟨"a.b", "c-1", "2"⟩ ∧ parse "a.b:c:1-2" = .ok ⟨"a.b", "c", "1-2"⟩ ∧
      fileName ⟨"a.b", "c-1", "2"⟩ "" "jar" = fileName ⟨"a.b", "c", "1-2"⟩ "" "jar" ∧
      path ⟨"a.b", "c-1", "2"⟩ "" "jar" ≠ path ⟨"a.b", "c", "1-2"⟩ "" "jar") ∧
    '.' ∉ PublishedTool.remapper.groupPath.toList ∧ ':' ∉ PublishedTool.remapper.groupPath.toList ∧
      ':' ∉ PublishedTool.remapper.artifact.toList ∧ ':' ∉ "0.10-rc.2+build.7".toList ∧
      parse "net.fabricmc:tiny-remapper:0.10-rc.2+build.7" =
        .ok ⟨"net.fabricmc", "tiny-remapper", "0.10-rc.2+build.7"⟩ ∧
      PublishedTool.remapper.jarUrl "0.10-rc.2+build.7" = "https://maven.fabricmc.net" ++ "/" ++
        path ⟨"net.fabricmc", "tiny-remapper", "0.10-rc.2+build.7"⟩ "fat" "jar" := by
  obtain ⟨hunambiguous, hshared⟩ := layout_unambiguous
  have hfirst : parse "a.b:c-1:2" = .ok ⟨"a.b", "c-1", "2"⟩ := rfl
  have hsecond : parse "a.b:c:1-2" = .ok ⟨"a.b", "c", "1-2"⟩ := rfl
  refine ⟨⟨by decide, by decide, hfirst, hsecond, by decide, ?_⟩, by decide, by decide, by decide,
    by decide, ?_⟩
  · obtain ⟨coordinate, other, hcoordinate, hother, hpath⟩ :=
      hunambiguous "" "jar" "a.b:c-1:2" "a.b:c:1-2" (by decide) (by decide)
    obtain rfl := Except.ok.inj (hfirst.symm.trans hcoordinate)
    obtain rfl := Except.ok.inj (hsecond.symm.trans hother)
    exact fun heq => absurd (hpath heq) (by decide)
  · have hremapper := hshared PublishedTool.remapper "0.10-rc.2+build.7" (by decide) (by decide)
      (by decide) (by decide)
    have hcoordinate : PublishedTool.remapper.coordinate "0.10-rc.2+build.7" =
        ⟨"net.fabricmc", "tiny-remapper", "0.10-rc.2+build.7"⟩ := by decide
    have hrepository : Text.stripEnd (· == '/') PublishedTool.remapper.repository =
        "https://maven.fabricmc.net" := by decide
    rw [hcoordinate, hrepository] at hremapper
    exact hremapper

end Coordinate

end JarRefinery
