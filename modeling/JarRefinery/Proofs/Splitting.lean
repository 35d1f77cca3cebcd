import JarRefinery.Text.Split
import Mathlib.Data.List.Basic

/-!
# Splitting texts

The parts of a text tell the text, and the texts without the mark, one or more, are the parts of one
text. What is written at either end of a text goes to the part there.
-/

namespace JarRefinery.Text

variable {mark : Char}

/-- The parts on both sides of a mark are split apart from each other. -/
theorem split_mark (mark : Char) (front back : String) :
    split mark (front ++ String.singleton mark ++ back) = split mark front ++ split mark back := by
  have hchars : (front ++ String.singleton mark ++ back).toList =
      front.toList ++ mark :: back.toList := by simp
  rw [split, hchars, List.splitOn_append_cons_self, List.map_append]
  rfl

/-- Nothing but marks is lost when a text is split. -/
theorem exists_mem_split_iff {mark c : Char} (hne : c ≠ mark) (text : String) :
    (∃ part ∈ split mark text, c ∈ part.toList) ↔ c ∈ text.toList := by
  have hsplit : ∀ chars : List Char, (∃ piece ∈ chars.splitOn mark, c ∈ piece) ↔ c ∈ chars := by
    intro chars
    induction chars with
    | nil => simp
    | cons d chars ih =>
      obtain ⟨first, rest, hfirst⟩ := List.exists_cons_of_ne_nil (List.splitOn_ne_nil mark chars)
      rw [List.splitOn_cons_eq_if_modifyHead, List.mem_cons, ← ih, hfirst]
      by_cases hmark : d = mark
      · simp [hmark, hne]
      · simp [hmark, or_assoc]
  simp [split, hsplit]

/-- A text is what its parts make, joined by the mark. -/
theorem intercalate_split (mark : Char) (text : String) :
    (String.singleton mark).intercalate (split mark text) = text := by
  have hparts : (split mark text).map String.toList = text.toList.splitOn mark := by
    simp [split, List.map_map, Function.comp_def]
  rw [← String.toList_inj, String.toList_intercalate, hparts, String.toList_singleton,
    List.intercalate_splitOn]

theorem split_injective (mark : Char) : Function.Injective (split mark) := by
  intro text other hsplit
  calc text = (String.singleton mark).intercalate (split mark text) :=
        (intercalate_split mark text).symm
    _ = (String.singleton mark).intercalate (split mark other) := by rw [hsplit]
    _ = other := intercalate_split mark other

/-- Texts without the mark are read back from what they make, joined by it. -/
theorem split_intercalate (mark : Char) {parts : List String}
    (hmark : ∀ part ∈ parts, mark ∉ part.toList) (hne : parts ≠ []) : split mark ((String.singleton mark).intercalate parts) = parts := by
  have hchars : ∀ chars ∈ parts.map String.toList, mark ∉ chars := by
    rintro _ hchars
    obtain ⟨part, hpart, rfl⟩ := List.mem_map.mp hchars
    exact hmark part hpart
  rw [split, String.toList_intercalate, String.toList_singleton,
    List.splitOn_intercalate mark hchars (by simpa using hne)]
  simp [List.map_map, Function.comp_def]

/-- What follows the last mark stays together. -/
theorem split_append {ending : String} (hmark : mark ∉ ending.toList) (text : String) :
    ∃ front rest, split mark text = front ++ [rest] ∧
      split mark (text ++ ending) = front ++ [rest ++ ending] := by
  have hsplit : ∀ chars : List Char, ∃ front rest, chars.splitOn mark = front ++ [rest] ∧
      (chars ++ ending.toList).splitOn mark = front ++ [rest ++ ending.toList] := by
    intro chars
    induction chars with
    | nil => exact ⟨[], [], by simp, by simpa using List.splitOn_eq_singleton hmark⟩
    | cons c chars ih =>
      obtain ⟨front, rest, hchars, hrest⟩ := ih
      rw [List.splitOn_cons_eq_if_modifyHead, hchars, List.cons_append,
        List.splitOn_cons_eq_if_modifyHead, hrest]
      split
      · exact ⟨[] :: front, rest, rfl, rfl⟩
      · cases front with
        | nil => exact ⟨[], c :: rest, rfl, rfl⟩
        | cons first front => exact ⟨(c :: first) :: front, rest, rfl, rfl⟩
  obtain ⟨front, rest, htext, hrest⟩ := hsplit text.toList
  refine ⟨front.map String.ofList, String.ofList rest, by simp [split, htext], ?_⟩
  rw [split, String.toList_append, hrest, List.map_append, List.map_singleton]
  simp

/-- What comes before the first mark stays together. -/
theorem split_prepend {beginning : String} (hmark : mark ∉ beginning.toList)
    (text : String) : ∃ first rest, split mark text = first :: rest ∧
      split mark (beginning ++ text) = (beginning ++ first) :: rest := by
  have hsplit : ∀ chars : List Char, mark ∉ chars → ∃ first rest,
      text.toList.splitOn mark = first :: rest ∧
        (chars ++ text.toList).splitOn mark = (chars ++ first) :: rest := by
    intro chars hchars
    induction chars with
    | nil =>
      obtain ⟨first, rest, hfirst⟩ := List.exists_cons_of_ne_nil
        (List.splitOn_ne_nil mark text.toList)
      exact ⟨first, rest, hfirst, hfirst⟩
    | cons c chars ih =>
      simp only [List.mem_cons, not_or] at hchars
      obtain ⟨first, rest, htext, hrest⟩ := ih hchars.2
      have hc : (c == mark) = false := by simpa using fun heq => hchars.1 heq.symm
      refine ⟨first, rest, htext, ?_⟩
      rw [List.cons_append, List.splitOn_cons_eq_if_modifyHead, hrest, hc]
      rfl
  obtain ⟨first, rest, htext, hrest⟩ := hsplit _ hmark
  refine ⟨String.ofList first, rest.map String.ofList, by simp [split, htext], ?_⟩
  rw [split, String.toList_append, hrest, List.map_cons]
  simp

theorem notMem_of_mem_split {text part : String} (hpart : part ∈ split mark text) :
    mark ∉ part.toList := by
  have hsplit : ∀ chars : List Char, ∀ piece ∈ chars.splitOn mark, mark ∉ piece := by
    intro chars
    induction chars with
    | nil => simp
    | cons c chars ih =>
      rw [List.splitOn_cons_eq_if_modifyHead]
      obtain ⟨first, rest, hfirst⟩ := List.exists_cons_of_ne_nil (List.splitOn_ne_nil mark chars)
      rw [hfirst] at ih ⊢
      split
      · simpa using ih
      · rename_i hc
        have hne : mark ≠ c := fun heq => hc (by simp [heq])
        simpa [hne] using ih
  obtain ⟨piece, hpiece, rfl⟩ := List.mem_map.mp hpart
  simpa using hsplit _ piece hpiece

theorem split_eq_singleton {text : String} (hmark : mark ∉ text.toList) :
    split mark text = [text] := by
  rw [split, List.splitOn_eq_singleton hmark, List.map_singleton, String.ofList_toList]

end JarRefinery.Text
