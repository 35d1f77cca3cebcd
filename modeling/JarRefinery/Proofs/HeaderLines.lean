import JarRefinery.Mapping.Header
import Mathlib.Data.Bool.AllAny
import Mathlib.Data.String.Basic

/-!
# The lines of a document with its header

Documents are read line by line, and a line is read up to a line feed, a carriage return, or both. A
document gets its header between lines that end at more characters than these, and each end becomes a
line feed. So the document keeps its lines exactly if nothing else in it ends a line.
-/

namespace JarRefinery.Text

/-- Ends a line wherever documents are read. -/
def isReturn (c : Char) : Bool :=
  c == '\n' || c == '\r'

def splitAtReturns : List Char → List (List Char)
  | [] => []
  | '\r' :: '\n' :: rest => [] :: splitAtReturns rest
  | c :: rest => if isReturn c then [] :: splitAtReturns rest else consLine c (splitAtReturns rest)

/-- The lines of a text as they are read. -/
def readLines (text : String) : List String :=
  (splitAtReturns text.toList).map String.ofList

theorem isLineEnd_of_isReturn {c : Char} (hreturn : isReturn c = true) : isLineEnd c = true := by
  simp only [isReturn, Bool.or_eq_true, beq_iff_eq] at hreturn
  rcases hreturn with rfl | rfl <;> rfl

theorem isReturn_eq_false {c : Char} (hend : isLineEnd c = false) : isReturn c = false :=
  Bool.eq_false_iff.mpr fun hreturn => Bool.eq_false_iff.mp hend (isLineEnd_of_isReturn hreturn)

theorem mem_consLine {c d : Char} {lines : List (List Char)} :
    (∃ line ∈ consLine c lines, d ∈ line) ↔ d = c ∨ ∃ line ∈ lines, d ∈ line := by
  cases lines <;> simp [consLine, or_assoc]

/-! ### Lines that are joined -/

theorem splitAtReturns_line {line : List Char} (hline : ∀ c ∈ line, isReturn c = false)
    (rest : List Char) :
    splitAtReturns (line ++ '\n' :: rest) = line :: splitAtReturns rest := by
  induction line with
  | nil => rfl
  | cons c line ih =>
    have hc : isReturn c = false := hline c List.mem_cons_self
    have hcr : c ≠ '\r' := by
      rintro rfl
      cases hc
    rw [List.cons_append, splitAtReturns.eq_3 _ _ (fun _ h _ => hcr h), if_neg (by simp [hc]),
      ih fun d hd => hline d (List.mem_cons_of_mem _ hd), consLine]

theorem splitAtReturns_joined (first : String) (rest : List String)
    (hlines : ∀ line ∈ first :: rest, ∀ c ∈ line.toList, isReturn c = false) :
    splitAtReturns ("\n".intercalate (first :: rest) ++ "\n").toList =
      (first :: rest).map String.toList := by
  induction rest generalizing first with
  | nil =>
    have hfirst := splitAtReturns_line (hlines first List.mem_cons_self) []
    simpa [splitAtReturns] using hfirst
  | cons second rest ih =>
    have hrest := ih second fun line hline => hlines line (List.mem_cons_of_mem _ hline)
    have hfirst := splitAtReturns_line (hlines first List.mem_cons_self)
      ("\n".intercalate (second :: rest) ++ "\n").toList
    rw [hrest] at hfirst
    simpa [String.intercalate_cons_cons, String.toList_append] using hfirst

/-- Lines without ends in them come back after each of them got an end. -/
theorem readLines_joined {lines : List String} (hne : lines ≠ [])
    (hlines : ∀ line ∈ lines, ∀ c ∈ line.toList, isReturn c = false) :
    readLines ("\n".intercalate lines ++ "\n") = lines := by
  obtain ⟨first, rest, rfl⟩ := List.exists_cons_of_ne_nil hne
  rw [readLines, splitAtReturns_joined first rest hlines, List.map_map]
  exact List.map_id'' (fun line => String.ofList_toList) _

/-! ### Two ways to split -/

theorem not_isLineEnd_of_mem_splitLines {chars line : List Char} {c : Char}
    (hline : line ∈ splitLines chars) (hc : c ∈ line) : isLineEnd c = false := by
  have hany : ∀ c, (∃ line ∈ splitLines chars, c ∈ line) → isLineEnd c = false := by
    clear hline hc
    fun_induction splitLines chars with
    | case1 => simp
    | case2 rest ih => simpa using ih
    | case3 d rest _ hend ih => simpa using ih
    | case4 d rest _ hend ih =>
      intro c hmem
      rcases mem_consLine.mp hmem with rfl | hmem
      · exact Bool.eq_false_iff.mpr hend
      · exact ih c hmem
  exact hany c ⟨line, hline, hc⟩

theorem exists_mem_splitAtReturns {chars : List Char} {c : Char} (hc : c ∈ chars)
    (hreturn : isReturn c = false) : ∃ line ∈ splitAtReturns chars, c ∈ line := by
  fun_induction splitAtReturns chars with
  | case1 => simp at hc
  | case2 rest ih =>
    have hne : c ≠ '\r' ∧ c ≠ '\n' := by
      constructor <;> (rintro rfl; cases hreturn)
    simpa [hne] using ih (by simpa [hne] using hc)
  | case3 d rest _ hend ih =>
    have hne : c ≠ d := by
      rintro rfl
      rw [hend] at hreturn
      cases hreturn
    simpa using ih (by simpa [hne] using hc)
  | case4 d rest _ hend ih =>
    refine mem_consLine.mpr ?_
    rcases List.mem_cons.mp hc with rfl | hc
    · exact .inl rfl
    · exact .inr (ih hc)

theorem splitLines_eq_splitAtReturns {chars : List Char}
    (hends : ∀ c ∈ chars, isLineEnd c = true → isReturn c = true) :
    splitLines chars = splitAtReturns chars := by
  fun_induction splitLines chars with
  | case1 => rfl
  | case2 rest ih =>
    rw [splitAtReturns, ih fun c hc => hends c (by simp [hc])]
  | case3 d rest hcrlf hend ih =>
    rw [splitAtReturns.eq_3 _ _ hcrlf, if_pos (hends d List.mem_cons_self hend),
      ih fun c hc => hends c (List.mem_cons_of_mem _ hc)]
  | case4 d rest hcrlf hend ih =>
    rw [splitAtReturns.eq_3 _ _ hcrlf, if_neg fun hreturn => hend (isLineEnd_of_isReturn hreturn),
      ih fun c hc => hends c (List.mem_cons_of_mem _ hc)]

/-- The lines are the lines read exactly if only what ends a line that is read ends a line. -/
theorem lines_eq_readLines_iff (text : String) :
    lines text = readLines text ↔ ∀ c ∈ text.toList, isLineEnd c = true → isReturn c = true := by
  have hinj : Function.Injective (List.map String.ofList) :=
    List.map_injective_iff.mpr fun _ _ hsame => String.ofList_injective hsame
  constructor
  · intro hsame c hc hend
    by_contra hreturn
    obtain ⟨line, hline, hmem⟩ := exists_mem_splitAtReturns hc (Bool.eq_false_iff.mpr hreturn)
    rw [← hinj hsame] at hline
    rw [not_isLineEnd_of_mem_splitLines hline hmem] at hend
    cases hend
  · intro hends
    rw [lines, readLines, splitLines_eq_splitAtReturns hends]

end JarRefinery.Text

namespace JarRefinery.Mapping

open Text (isLineEnd isReturn readLines)

variable {source target : String}

theorem insertHeader_ne_nil (lines : List String) : insertHeader source target lines ≠ [] := by
  cases lines <;> simp [insertHeader]

theorem insertHeader_injective : Function.Injective (insertHeader source target) := by
  intro lines others hsame
  cases lines <;> cases others <;> simp_all [insertHeader]

theorem mem_insertHeader {lines : List String} {line : String}
    (hline : line ∈ insertHeader source target lines) :
    line = headerLine source target ∨ line ∈ lines := by
  cases lines with
  | nil => exact .inl (List.mem_singleton.mp hline)
  | cons first rest =>
    simp only [insertHeader, List.mem_cons] at hline ⊢
    rcases hline with hfirst | hheader | hrest
    · exact .inr (.inl hfirst)
    · exact .inl hheader
    · exact .inr (.inr hrest)

theorem mem_headerLine {c : Char} (hc : c ∈ (headerLine source target).toList) :
    c ∈ source.toList ∨ c ∈ target.toList ∨ isLineEnd c = false := by
  simp only [headerLine, headerStart, String.toList_append, List.mem_append] at hc
  rcases hc with (((hstart | htab) | hsource) | htab) | htarget
  · have hall : ∀ d ∈ "tiny\t2\t0".toList, isLineEnd d = false :=
      List.all_iff_forall_prop.mp (by decide)
    exact .inr (.inr (hall c hstart))
  · exact .inr (.inr (by obtain rfl := List.mem_singleton.mp htab; rfl))
  · exact .inl hsource
  · exact .inr (.inr (by obtain rfl := List.mem_singleton.mp htab; rfl))
  · exact .inr (.inl htarget)

/-- What is read of a document with its header are the lines that it was put together from. -/
theorem readLines_normalizeText (hsource : ∀ c ∈ source.toList, isReturn c = false)
    (htarget : ∀ c ∈ target.toList, isReturn c = false) (text : String) :
    readLines (normalizeText source target text) = insertHeader source target (Text.lines text) := by
  have hheader : ∀ c ∈ (headerLine source target).toList, isReturn c = false := fun c hc =>
    (mem_headerLine hc).elim (hsource c) fun hc => hc.elim (htarget c) Text.isReturn_eq_false
  have hline : ∀ line ∈ Text.lines text, ∀ c ∈ line.toList, isReturn c = false := by
    intro line hline c hc
    obtain ⟨chars, hchars, rfl⟩ := List.mem_map.mp hline
    rw [String.toList_ofList] at hc
    exact Text.isReturn_eq_false (Text.not_isLineEnd_of_mem_splitLines hchars hc)
  refine Text.readLines_joined (insertHeader_ne_nil _) fun line hmem => ?_
  rcases mem_insertHeader hmem with rfl | hmem
  · exact hheader
  · exact hline line hmem

/-- **Lines of a document.** With labels of one line each, a document that gets its header is read as
its lines and the header after the first of them, or as the header alone if there are none, exactly
if no character of it but line feeds and carriage returns ends a line. -/
theorem readLines_normalizeText_iff (source target text : String)
    (hsource : ∀ c ∈ source.toList, isReturn c = false)
    (htarget : ∀ c ∈ target.toList, isReturn c = false) :
    readLines (normalizeText source target text) = insertHeader source target (readLines text) ↔
      ∀ c ∈ text.toList, isLineEnd c = true → isReturn c = true := by
  rw [readLines_normalizeText hsource htarget, insertHeader_injective.eq_iff,
    Text.lines_eq_readLines_iff]

/-- Of a second line with a separator in it two are made. -/
theorem readLines_normalizeText_separated :
    readLines (normalizeText "intermediary" "named" "v1\nFIELD\ta\u2028b\n") ≠
      insertHeader "intermediary" "named" (readLines "v1\nFIELD\ta\u2028b\n") := by
  rw [ne_eq, readLines_normalizeText_iff _ _ _ (List.all_iff_forall_prop.mp (by decide))
    (List.all_iff_forall_prop.mp (by decide)), ← List.all_iff_forall_prop]
  decide

end JarRefinery.Mapping
