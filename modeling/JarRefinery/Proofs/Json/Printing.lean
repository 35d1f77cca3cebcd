import Mathlib.Data.Bool.AllAny
import JarRefinery.Proofs.Json.Spelling

/-!
# What is printed is read back

Both renderings spell the value that they print, so it is read back from either. Rendered on one line
it has no line feed.
-/

namespace JarRefinery.Json

/-- A value without numbers other than integers, whose objects give no field twice. -/
inductive Plain : Json → Prop
  | null : Plain .null
  | bool (value : Bool) : Plain (.bool value)
  | integer (n : Int) : Plain (.integer n)
  | text (text : String) : Plain (.text text)
  | list {items : List Json} : (∀ item ∈ items, Plain item) → Plain (.list items)
  | object {fields : Fields} : (fields.map (·.1)).Nodup → (∀ field ∈ fields, Plain field.2) →
    Plain (.object fields)

/-! ### Renderings -/

/-- How a field is printed whose value is printed so. -/
def fieldText (print : Json → String) (field : String × Json) : String :=
  printText field.1 ++ ": " ++ print field.2

theorem printItems_eq (items : List Json) : printItems items = items.map print := by
  induction items with
  | nil => rfl
  | cons item rest ih => rw [printItems, ih, List.map_cons]

theorem printFields_eq (fields : Fields) : printFields fields = fields.map (fieldText print) := by
  induction fields with
  | nil => rfl
  | cons field rest ih => rw [printFields, ih, List.map_cons]; rfl

theorem printIndentedItems_eq (level : Nat) (items : List Json) :
    printIndentedItems level items = items.map (printIndented level) := by
  induction items with
  | nil => rfl
  | cons item rest ih => rw [printIndentedItems, ih, List.map_cons]

theorem printIndentedFields_eq (level : Nat) (fields : Fields) :
    printIndentedFields level fields = fields.map (fieldText (printIndented level)) := by
  induction fields with
  | nil => rfl
  | cons field rest ih => rw [printIndentedFields, ih, List.map_cons]; rfl

section

variable {blanks gap closing : List Char} (hgap : gap ⊆ blanks) (hclosing : closing ⊆ blanks)
  {separator : String} (hseparator : separator.toList = ',' :: gap) {print : Json → String}

include hgap hclosing hseparator

/-- Items with commas between them go on up to the bracket. -/
theorem spells_items {items : List Json} (hne : items ≠ [])
    (hitems : ∀ item ∈ items, Spells blanks (.value item) (print item).toList) :
    Spells blanks (.items items)
      ((commaSeparated separator (items.map print)).toList ++ (closing ++ [']'])) := by
  induction items with
  | nil => exact absurd rfl hne
  | cons item rest ih =>
    have hitem := hitems item List.mem_cons_self
    cases rest with
    | nil => exact .lastItem (by simpa [commaSeparated] using hitem) hclosing
    | cons next rest =>
      have hmore := ih (by simp) fun other hother => hitems other (List.mem_cons_of_mem _ hother)
      have hspells := Spells.moreItems hitem hgap hmore
      simpa [commaSeparated, String.toList_intercalate, hseparator] using hspells

theorem spells_fields {fields : Fields} (hne : fields ≠ [])
    (hfields : ∀ field ∈ fields, Spells blanks (.value field.2) (print field.2).toList) :
    Spells blanks (.fields fields)
      ((commaSeparated separator (fields.map (fieldText print))).toList ++ (closing ++ ['\x7d'])) := by
  induction fields with
  | nil => exact absurd rfl hne
  | cons field rest ih =>
    have hvalue := hfields field List.mem_cons_self
    cases rest with
    | nil =>
      have hspells : Spells blanks (.fields [field]) _ := .lastField hvalue hclosing
      simpa [commaSeparated, fieldText] using hspells
    | cons next rest =>
      have hmore := ih (by simp) fun other hother => hfields other (List.mem_cons_of_mem _ hother)
      have hspells : Spells blanks (.fields (field :: next :: rest)) _ := .moreFields hvalue hgap hmore
      simpa [commaSeparated, fieldText, String.toList_intercalate, hseparator] using hspells

end

theorem Plain.spells_print {value : Json} (hplain : Plain value) :
    Spells [' '] (.value value) (print value).toList := by
  have hseparator : ", ".toList = ',' :: [' '] := rfl
  induction hplain with
  | null => exact .null
  | bool value => cases value <;> exact .bool _
  | integer n => exact .integer n
  | text text => exact .text text
  | @list items _ ih =>
    by_cases hnil : items = []
    · subst hnil
      exact .emptyList
    · rw [print, printItems_eq]
      simpa using Spells.list (List.nil_subset _)
        (spells_items (List.Subset.refl _) (List.nil_subset _) hseparator hnil ih)
  | @object fields hnodup _ ih =>
    by_cases hnil : fields = []
    · subst hnil
      exact .emptyObject
    · rw [print, printFields_eq]
      simpa using Spells.object hnodup (List.nil_subset _)
        (spells_fields (List.Subset.refl _) (List.nil_subset _) hseparator hnil ih)

theorem lineAt_subset (level : Nat) : (lineAt level).toList ⊆ ['\n', ' '] := by
  intro c hc
  simp only [lineAt, String.toList_ofList, List.mem_cons, List.mem_replicate] at hc
  rcases hc with rfl | ⟨-, rfl⟩ <;> simp

theorem block_of_ne_nil (level : Nat) (opening closing : String) {texts : List String}
    (hne : texts ≠ []) : block level opening closing texts = opening ++ lineAt (level + 1) ++
      commaSeparated ("," ++ lineAt (level + 1)) texts ++ lineAt level ++ closing := by
  cases texts with
  | nil => exact absurd rfl hne
  | cons text rest => rfl

theorem Plain.spells_printIndented {value : Json} (hplain : Plain value) (level : Nat) :
    Spells ['\n', ' '] (.value value) (printIndented level value).toList := by
  have hseparator : ∀ level, ("," ++ lineAt level).toList = ',' :: (lineAt level).toList := fun level =>
    String.toList_append
  induction hplain generalizing level with
  | null => exact .null
  | bool value => cases value <;> exact .bool _
  | integer n => exact .integer n
  | text text => exact .text text
  | @list items _ ih =>
    by_cases hnil : items = []
    · subst hnil
      simpa [printIndented, printIndentedItems, block] using Spells.emptyList
    · rw [printIndented, printIndentedItems_eq, block_of_ne_nil _ _ _ (by simpa using hnil)]
      simpa using Spells.list (lineAt_subset (level + 1)) (spells_items (lineAt_subset (level + 1))
        (lineAt_subset level) (hseparator (level + 1)) hnil fun item hitem => ih item hitem (level + 1))
  | @object fields hnodup _ ih =>
    by_cases hnil : fields = []
    · subst hnil
      simpa [printIndented, printIndentedFields, block] using Spells.emptyObject
    · rw [printIndented, printIndentedFields_eq, block_of_ne_nil _ _ _ (by simpa using hnil)]
      simpa using Spells.object hnodup (lineAt_subset (level + 1)) (spells_fields
        (lineAt_subset (level + 1)) (lineAt_subset level) (hseparator (level + 1)) hnil
        fun field hfield => ih field hfield (level + 1))

/-! ### Characters of a spelling -/

section Characters

variable {blanks : List Char} {part : Part} {chars : List Char}

theorem printable_of_mem_escapeChar (d : Char) {c : Char} (hmem : c ∈ escapeChar d) :
    0x20 ≤ c.toNat := by
  have hdigit : ∀ n < 16, 0x20 ≤ (Bytes.hexDigit n).toNat := by decide
  have hall : ∀ {chars : List Char}, (chars.all fun c => 0x20 ≤ c.toNat) = true → c ∈ chars →
      0x20 ≤ c.toNat := fun hchars => List.all_iff_forall_prop.mp hchars c
  unfold escapeChar at hmem
  split at hmem
  iterate 7 exact hall (by decide) hmem
  split at hmem
  · rename_i hcontrol
    simp only [List.mem_cons, List.not_mem_nil, or_false] at hmem
    rcases hmem with rfl | rfl | rfl | rfl | rfl | rfl
    iterate 4 decide
    · exact hdigit _ (by omega)
    · exact hdigit _ (by omega)
  · obtain rfl := List.mem_singleton.mp hmem
    omega

theorem printable_of_mem_printText {text : String} {c : Char} (hmem : c ∈ (printText text).toList) :
    0x20 ≤ c.toNat := by
  rw [toList_printText] at hmem
  simp only [List.mem_cons, List.mem_append, List.mem_flatMap, List.not_mem_nil, or_false] at hmem
  rcases hmem with rfl | ⟨d, -, hd⟩ | rfl
  · decide
  · exact printable_of_mem_escapeChar d hd
  · decide

/-- A blank, or no control character. -/
def Clear (blanks : List Char) (c : Char) : Prop :=
  c ∈ blanks ∨ 0x20 ≤ c.toNat

theorem clear_of_all {chars : List Char} (hall : (chars.all fun c => 0x20 ≤ c.toNat) = true) :
    ∀ c ∈ chars, Clear blanks c :=
  fun c hmem => .inr (List.all_iff_forall_prop.mp hall c hmem)

theorem clear_gap {gap : List Char} (hgap : gap ⊆ blanks) : ∀ c ∈ gap, Clear blanks c :=
  fun _ hmem => .inl (hgap hmem)

theorem clear_printText (text : String) : ∀ c ∈ (printText text).toList, Clear blanks c :=
  fun _ hmem => .inr (printable_of_mem_printText hmem)

theorem clear_integer (n : Int) : ∀ c ∈ (toString n).toList, Clear blanks c := by
  rw [toList_integer]
  refine List.forall_mem_append.mpr ⟨?_, fun c hmem => .inr ?_⟩
  · split
    · exact clear_of_all (by decide)
    · exact clear_of_all rfl
  · have hdigit := isDigit_of_mem_toDigits hmem
    simp only [Char.isDigit, Bool.and_eq_true, decide_eq_true_eq, ge_iff_le, UInt32.le_iff_toNat_le] at hdigit
    exact Nat.le_trans (by decide) hdigit.1

/-- A spelling has no control characters but those that may be blanks. -/
theorem Spells.clear (hspells : Spells blanks part chars) : ∀ c ∈ chars, Clear blanks c := by
  have hmark : ∀ {c : Char} {rest : List Char}, 0x20 ≤ c.toNat → (∀ d ∈ rest, Clear blanks d) →
      ∀ d ∈ c :: rest, Clear blanks d := fun hc hrest => List.forall_mem_cons.mpr ⟨.inr hc, hrest⟩
  have hboth : ∀ {front back : List Char}, (∀ c ∈ front, Clear blanks c) →
      (∀ c ∈ back, Clear blanks c) → ∀ c ∈ front ++ back, Clear blanks c := fun hfront hback =>
    List.forall_mem_append.mpr ⟨hfront, hback⟩
  induction hspells with
  | null => exact clear_of_all (by decide)
  | bool value => cases value <;> exact clear_of_all (by decide)
  | integer n => exact clear_integer n
  | text text => exact clear_printText text
  | emptyList => exact clear_of_all (by decide)
  | list hgap _ ih => exact hmark (by decide) (hboth (clear_gap hgap) ih)
  | emptyObject => exact clear_of_all (by decide)
  | object _ hgap _ ih => exact hmark (by decide) (hboth (clear_gap hgap) ih)
  | lastItem _ hgap ih => exact hboth ih (hboth (clear_gap hgap) (clear_of_all (by decide)))
  | moreItems _ hgap _ ih ihMore =>
    exact hboth ih (hmark (by decide) (hboth (clear_gap hgap) ihMore))
  | lastField _ hgap ih =>
    refine hboth (clear_printText _) (hmark (by decide) (hmark (by decide) (hboth ih ?_)))
    exact hboth (clear_gap hgap) (clear_of_all (by decide))
  | moreFields _ hgap _ ih ihMore =>
    refine hboth (clear_printText _) (hmark (by decide) (hmark (by decide) (hboth ih ?_)))
    exact hmark (by decide) (hboth (clear_gap hgap) ihMore)

/-- No part lies deeper, and no integer in it is longer, than it is long. -/
theorem Spells.bounds (hspells : Spells blanks part chars) :
    part.nesting ≤ chars.length ∧ part.digits ≤ chars.length := by
  induction hspells with
  | null => exact ⟨Nat.zero_le _, Nat.zero_le _⟩
  | bool value => exact ⟨Nat.zero_le _, Nat.zero_le _⟩
  | integer n =>
    refine ⟨Nat.zero_le _, ?_⟩
    rw [toList_integer, List.length_append]
    exact Nat.le_add_left _ _
  | text text => exact ⟨Nat.zero_le _, Nat.zero_le _⟩
  | emptyList => exact ⟨by decide, by decide⟩
  | @list items gap chars _ _ ih =>
    obtain ⟨hnesting, hdigits⟩ := ih
    simp only [Part.nesting, Part.digits, nesting, digits, List.length_cons, List.length_append] at *
    omega
  | emptyObject => exact ⟨by decide, by decide⟩
  | object _ _ _ ih =>
    obtain ⟨hnesting, hdigits⟩ := ih
    simp only [Part.nesting, Part.digits, nesting, digits, List.length_cons, List.length_append] at *
    omega
  | lastItem _ _ ih =>
    obtain ⟨hnesting, hdigits⟩ := ih
    simp only [Part.nesting, Part.digits, nestingOfItems, digitsOfItems, List.length_append] at *
    omega
  | moreItems _ _ _ ih ihMore =>
    obtain ⟨⟨hnesting, hdigits⟩, hnesting', hdigits'⟩ := And.intro ih ihMore
    simp only [Part.nesting, Part.digits, nestingOfItems, digitsOfItems, List.length_cons,
      List.length_append] at *
    omega
  | lastField _ _ ih =>
    obtain ⟨hnesting, hdigits⟩ := ih
    simp only [Part.nesting, Part.digits, nestingOfFields, digitsOfFields, List.length_cons,
      List.length_append] at *
    omega
  | moreFields _ _ _ ih ihMore =>
    obtain ⟨⟨hnesting, hdigits⟩, hnesting', hdigits'⟩ := And.intro ih ihMore
    simp only [Part.nesting, Part.digits, nestingOfFields, digitsOfFields, List.length_cons,
      List.length_append] at *
    omega

end Characters

/-! ### Whole documents -/

/-- The document that `chars` is, however deep it is and however long its integers are: no document is
deeper or has longer integers than it is long. -/
def parse (chars : List Char) : Except ReadError Json :=
  readWithin chars.length chars.length chars

/-- The document `chars` is the value, and is read as the value if that keeps within the limits of the
reader. -/
structure ReadsAs (chars : List Char) (value : Json) : Prop where
  parsed : parse chars = .ok value
  read : digits value ≤ digitLimit → nesting value ≤ depthLimit → Json.read chars = .ok value

section Documents

variable {blanks : List Char} (hblanks : ∀ c ∈ blanks, isSpace c = true) {value : Json}
  {chars : List Char} (hspells : Spells blanks (.value value) chars)

include hblanks hspells

theorem Spells.readWithin {limit depth : Nat} (hdigits : digits value ≤ limit)
    (hnesting : nesting value ≤ depth) : readWithin limit depth chars = .ok value := by
  have hread : readValue limit (2 * chars.length + 2) depth (chars ++ []) = .ok (value, []) :=
    hspells.reads hblanks (Nat.le_add_right _ 2) hdigits hnesting (by rintro _ ⟨⟩)
  obtain ⟨c, tail, hchars, hc, -⟩ := hspells.exists_head
  have hskip : skipSpace chars = chars := by
    rw [hchars]
    exact skipSpace_gap hblanks (List.nil_subset _) hc tail
  rw [List.append_nil] at hread
  unfold Json.readWithin
  rw [hskip, hread]
  rfl

theorem Spells.readsAs : ReadsAs chars value where
  parsed := hspells.readWithin hblanks hspells.bounds.2 hspells.bounds.1
  read := hspells.readWithin hblanks

end Documents

/-- What is printed on one line is read back. -/
theorem Plain.reads_print {value : Json} (hplain : Plain value) : ReadsAs (print value).toList value :=
  hplain.spells_print.readsAs (List.all_iff_forall_prop.mp (by decide))

/-- What is printed indented is read back. -/
theorem Plain.reads_printIndented {value : Json} (hplain : Plain value) (level : Nat) :
    ReadsAs (printIndented level value).toList value :=
  (hplain.spells_printIndented level).readsAs (List.all_iff_forall_prop.mp (by decide))

theorem Plain.lineFeed_notMem_print {value : Json} (hplain : Plain value) :
    '\n' ∉ (print value).toList := by
  intro hmem
  rcases hplain.spells_print.clear _ hmem with hblank | hprintable
  · exact absurd hblank (by decide)
  · exact absurd hprintable (by decide)

end JarRefinery.Json
