import JarRefinery.Json.Printer
import JarRefinery.Json.Reader
import Mathlib.Data.List.TakeWhile

/-!
# Reading what spells a value

The two renderings of a document differ in blanks alone. A relation says which characters spell a
value, with any blanks after brackets and commas and before closing brackets, and whatever follows a
spelling, it is read back as the value.
-/

namespace JarRefinery.Json

/-! ### Texts -/

theorem hexValue?_hexDigit : ∀ n < 16, hexValue? (Bytes.hexDigit n) = some n := by
  decide

/-- A control character is read from its number. -/
theorem readUnicodeEscape_control {c : Char} (hc : c.toNat < 0x20) (d : Char) (more : List Char) :
    readUnicodeEscape ('0' :: '0' :: Bytes.hexDigit (c.toNat / 16) :: Bytes.hexDigit (c.toNat % 16) ::
      d :: more) = .ok (c, d :: more) := by
  have hhigh := hexValue?_hexDigit (c.toNat / 16) (by omega)
  have hlow := hexValue?_hexDigit (c.toNat % 16) (by omega)
  have hzero : hexValue? '0' = some 0 := by decide
  have hvalue : ((0 * 16 + 0) * 16 + c.toNat / 16) * 16 + c.toNat % 16 = c.toNat := by omega
  have hunit : readUnit ('0' :: '0' :: Bytes.hexDigit (c.toNat / 16) ::
      Bytes.hexDigit (c.toNat % 16) :: d :: more) = some (c.toNat, d :: more) := by
    simp only [readUnit, hhigh, hlow, hzero, hvalue, Option.pure_def, Option.bind_eq_bind,
      Option.bind_some]
  have hplain : Text.Charset.isHighSurrogate c.toNat = false := by
    simp [Text.Charset.isHighSurrogate]
    omega
  have hscalar : Text.Charset.scalar c.toNat = c := by
    have hvalid : c.toNat.isValidChar := c.valid
    rw [Text.Charset.scalar, if_pos hvalid, Char.ofNat_toNat]
  rw [readUnicodeEscape, hunit]
  simp only [hplain, hscalar]

/-- One character is read from its escape. -/
theorem readText_escapeChar (opened fuel : Nat) (read : List Char) (c d : Char) (more : List Char) :
    readText opened (fuel + 1) read (escapeChar c ++ d :: more) =
      readText opened fuel (c :: read) (d :: more) := by
  unfold escapeChar
  split
  · rfl
  · rfl
  · rfl
  · rfl
  · rfl
  · rfl
  · rfl
  · rename_i hquote hbackslash _ _ _ _ _
    split
    · rename_i hcontrol
      simp only [List.cons_append, List.nil_append, readText, readUnicodeEscape_control hcontrol]
      rfl
    · rename_i hprintable
      rw [List.singleton_append, readText]
      · rw [if_neg hprintable]
      · exact hquote
      · exact fun _ heq => absurd heq hbackslash
      · exact fun heq => absurd heq hbackslash
      · exact fun _ _ heq => absurd heq hbackslash

theorem readText_printed (opened : Nat) (rest : List Char) {chars : List Char} {fuel : Nat}
    (hfuel : chars.length < fuel) (read : List Char) :
    readText opened fuel read (chars.flatMap escapeChar ++ '\x22' :: rest) =
      .ok (String.ofList (read.reverse ++ chars), rest) := by
  induction chars generalizing fuel read with
  | nil =>
    obtain ⟨fuel, rfl⟩ := Nat.exists_eq_add_of_lt hfuel
    simp [readText]
  | cons c chars ih =>
    obtain ⟨fuel, rfl⟩ : ∃ less, fuel = less + 1 := ⟨fuel - 1, by simp at hfuel; omega⟩
    obtain ⟨d, more, hmore⟩ : ∃ d more, chars.flatMap escapeChar ++ '\x22' :: rest = d :: more :=
      List.exists_cons_of_ne_nil (by simp)
    rw [List.flatMap_cons, List.append_assoc, hmore, readText_escapeChar, ← hmore,
      ih (by simpa using hfuel)]
    simp

theorem toList_printText (text : String) :
    (printText text).toList = '\x22' :: (text.toList.flatMap escapeChar ++ ['\x22']) := by
  simp [printText]

theorem length_le_flatMap_escapeChar (chars : List Char) :
    chars.length ≤ (chars.flatMap escapeChar).length := by
  induction chars with
  | nil => exact Nat.zero_le _
  | cons c chars ih =>
    have hne : escapeChar c ≠ [] := by
      unfold escapeChar
      split <;> try split
      all_goals simp
    have hpositive := List.length_pos_iff.mpr hne
    simp only [List.flatMap_cons, List.length_cons, List.length_append]
    omega

/-- A text is read from its characters after the first quote. -/
theorem readText_printText (text : String) (rest : List Char) {chars : List Char}
    (hchars : (printText text).toList ++ rest = '\x22' :: chars) :
    readText ('\x22' :: chars).length ('\x22' :: chars).length [] chars = .ok (text, rest) := by
  rw [toList_printText, List.cons_append] at hchars
  obtain rfl := (List.cons.inj hchars).2
  rw [List.append_assoc, List.singleton_append, readText_printed _ _ ?_]
  · simp
  · have hle := length_le_flatMap_escapeChar text.toList
    simp only [List.length_cons, List.length_append]
    omega

/-! ### Integers -/

/-- No number goes on with these characters. -/
def Ends (rest : List Char) : Prop :=
  ∀ c ∈ rest.head?, c.isDigit = false ∧ c ≠ '.' ∧ c ≠ 'e' ∧ c ≠ 'E'

theorem isDigit_of_mem_toDigits {n : Nat} {c : Char} (hmem : c ∈ Nat.toDigits 10 n) :
    c.isDigit = true :=
  Nat.isDigit_of_mem_toDigits (by decide) (by decide) hmem

/-- Only zero begins with a zero. -/
theorem head_toDigits {n : Nat} (hpositive : n ≠ 0) :
    ∃ d digits, Nat.toDigits 10 n = d :: digits ∧ d ≠ '0' := by
  have hsmall : ∀ n < 10, n ≠ 0 → n.digitChar ≠ '0' := by decide
  induction n using Nat.strongRecOn with
  | ind n ih =>
    by_cases hlt : n < 10
    · rw [Nat.toDigits_of_lt_base hlt]
      exact ⟨_, [], rfl, hsmall n hlt hpositive⟩
    · obtain ⟨d, digits, hdigits, hd⟩ := ih (n / 10) (by omega) (by omega)
      rw [Nat.toDigits_of_base_le (by decide) (by omega), hdigits]
      exact ⟨d, _, rfl, hd⟩

theorem digitsValue_toDigits (n : Nat) : digitsValue (Nat.toDigits 10 n) = n := by
  have hvalue : Nat.ofDigitChars 10 (Nat.toDigits 10 n) 0 = n := Nat.ofDigitChars_ten_toDigits
  rw [Nat.ofDigitChars_eq_foldl] at hvalue
  simp only [digitsValue, Nat.mul_comm _ 10]
  exact hvalue

theorem toList_integer (n : Int) : (toString n).toList =
    (if n < 0 then ['-'] else []) ++ Nat.toDigits 10 n.natAbs := by
  rw [Int.toString_eq_repr, Int.repr_eq_if]
  by_cases hnegative : n < 0
  · have habs : (-n).toNat = n.natAbs := by omega
    simp [hnegative, Int.not_le.mpr hnegative, habs, Nat.repr_eq_ofList_toDigits]
  · have habs : n.toNat = n.natAbs := by omega
    simp [hnegative, Int.not_lt.mp hnegative, habs, Nat.repr_eq_ofList_toDigits]

theorem digit_ne {c d : Char} (hc : c.isDigit = true) (hd : d.isDigit = false) : c ≠ d := by
  rintro rfl
  simp [hc] at hd

/-- An integer begins with a digit or with a minus sign before one. -/
theorem exists_digit (n : Int) : ∃ d tail, d.isDigit = true ∧
    (toString n).toList = (if n < 0 then ['-'] else []) ++ d :: tail := by
  obtain ⟨d, tail, hdigits⟩ := List.exists_cons_of_ne_nil
    (l := Nat.toDigits 10 n.natAbs) Nat.toDigits_ne_nil
  exact ⟨d, tail, isDigit_of_mem_toDigits (hdigits ▸ List.mem_cons_self), by
    rw [toList_integer, hdigits]⟩

theorem readSign_integer (n : Int) (rest : List Char) :
    readSign ((toString n).toList ++ rest) = (decide (n < 0), Nat.toDigits 10 n.natAbs ++ rest) := by
  rw [toList_integer]
  split
  · rename_i hnegative
    simp [readSign, hnegative]
  · rename_i hpositive
    obtain ⟨d, digits, hdigits⟩ := List.exists_cons_of_ne_nil (l := Nat.toDigits 10 n.natAbs) Nat.toDigits_ne_nil
    have hd : d.isDigit = true := isDigit_of_mem_toDigits (hdigits ▸ List.mem_cons_self)
    rw [List.nil_append, hdigits, List.cons_append, readSign]
    · simpa using hpositive
    · rintro _ ⟨⟩
      exact absurd hd (by decide)

section Rest

variable {rest : List Char} (hends : Ends rest)

include hends

theorem takeWhile_toDigits (n : Nat) :
    (Nat.toDigits 10 n ++ rest).takeWhile Char.isDigit = Nat.toDigits 10 n := by
  rw [List.takeWhile_append_of_pos fun _ hmem => isDigit_of_mem_toDigits hmem]
  cases rest with
  | nil => simp
  | cons c rest => simp [(hends c rfl).1]

theorem wholeDigits_toDigits (n : Nat) :
    wholeDigits (Nat.toDigits 10 n ++ rest) = Nat.toDigits 10 n := by
  by_cases hzero : n = 0
  · subst hzero
    rfl
  obtain ⟨d, digits, hdigits, hd⟩ := head_toDigits hzero
  have htake := takeWhile_toDigits hends n
  rw [hdigits, List.cons_append] at htake ⊢
  rw [wholeDigits]
  · exact htake
  · rintro _ ⟨⟩
    exact hd rfl

theorem readPlaces_of_ends : readPlaces rest = (none, rest) := by
  unfold readPlaces
  split
  · exact absurd rfl (hends '.' rfl).2.1
  · rfl

theorem readExponent_of_ends : readExponent rest = (none, rest) := by
  cases rest with
  | nil => rfl
  | cons c rest =>
    obtain ⟨-, -, hsmall, hlarge⟩ := hends c rfl
    simp [readExponent, hsmall, hlarge]

theorem readNumber_integer {limit : Nat} {n : Int} (hlimit : (Nat.toDigits 10 n.natAbs).length ≤ limit) :
    readNumber limit ((toString n).toList ++ rest) = .ok (.integer n, rest) := by
  have hne : (Nat.toDigits 10 n.natAbs).isEmpty = false := by
    simp [Nat.toDigits_ne_nil]
  simp only [readNumber, readSign_integer, wholeDigits_toDigits hends, hne, List.drop_left,
    readPlaces_of_ends hends, readExponent_of_ends hends, digitsValue_toDigits,
    Nat.not_lt.mpr hlimit, if_false, Bool.false_eq_true]
  have hsigned : (if decide (n < 0) = true then -(n.natAbs : Int) else n.natAbs) = n := by
    by_cases hnegative : n < 0
    · rw [decide_eq_true hnegative, if_pos rfl]
      omega
    · rw [decide_eq_false hnegative, if_neg Bool.false_ne_true]
      omega
  rw [hsigned]

end Rest

/-! ### Words -/

theorem after?_append (word : String) (rest : List Char) :
    after? word (word.toList ++ rest) = some rest := by
  have hbegins : word.toList.isPrefixOf (word.toList ++ rest) = true :=
    List.isPrefixOf_iff_prefix.mpr (List.prefix_append _ _)
  rw [after?, if_pos hbegins, ← String.length_toList, List.drop_left]

theorem readWord?_null (rest : List Char) : readWord? ("null".toList ++ rest) = some (.null, rest) := by
  simp only [readWord?, words, List.findSome?_cons, after?_append, Option.map_some]

theorem readWord?_bool (value : Bool) (rest : List Char) :
    readWord? ((if value then "true" else "false").toList ++ rest) = some (.bool value, rest) := by
  have hother : ∀ {word text : String}, ¬word.toList.isPrefixOf (text.toList ++ rest) →
      after? word (text.toList ++ rest) = none := fun hnot => if_neg hnot
  cases value
  · simp only [readWord?, words, List.findSome?_cons, Bool.false_eq_true, if_false, after?_append,
      Option.map_some]
    rw [hother (by simp), hother (by simp)]
    rfl
  · simp only [readWord?, words, List.findSome?_cons, if_true, after?_append, Option.map_some]
    rw [hother (by simp)]
    rfl

/-- No word begins like an integer. -/
theorem readWord?_integer (n : Int) (rest : List Char) :
    readWord? ((toString n).toList ++ rest) = none := by
  obtain ⟨d, tail, hd, hchars⟩ := exists_digit n
  have hother : ∀ c : Char, c.isDigit = false → ¬c = d := fun c hc => (digit_ne hd hc).symm
  rw [hchars]
  split <;> simp [readWord?, words, after?, hother]

/-! ### Spellings -/

/-- A part of a document: a value, or the rest of a list or an object up to its closing bracket. -/
inductive Part where
  | value (value : Json)
  | items (items : List Json)
  | fields (fields : Fields)

/-- The characters spell the part, with such blanks. -/
inductive Spells (blanks : List Char) : Part → List Char → Prop
  | null : Spells blanks (.value .null) "null".toList
  | bool (value : Bool) :
    Spells blanks (.value (.bool value)) (if value then "true" else "false").toList
  | integer (n : Int) : Spells blanks (.value (.integer n)) (toString n).toList
  | text (text : String) : Spells blanks (.value (.text text)) (printText text).toList
  | emptyList : Spells blanks (.value (.list [])) ['[', ']']
  | list {items : List Json} {gap chars : List Char} : gap ⊆ blanks →
    Spells blanks (.items items) chars → Spells blanks (.value (.list items)) ('[' :: (gap ++ chars))
  | emptyObject : Spells blanks (.value (.object [])) ['\x7b', '\x7d']
  | object {fields : Fields} {gap chars : List Char} : (fields.map (·.1)).Nodup → gap ⊆ blanks →
    Spells blanks (.fields fields) chars →
      Spells blanks (.value (.object fields)) ('\x7b' :: (gap ++ chars))
  | lastItem {item : Json} {chars gap : List Char} : Spells blanks (.value item) chars →
    gap ⊆ blanks → Spells blanks (.items [item]) (chars ++ (gap ++ [']']))
  | moreItems {item : Json} {rest : List Json} {chars gap more : List Char} :
    Spells blanks (.value item) chars → gap ⊆ blanks → Spells blanks (.items rest) more →
      Spells blanks (.items (item :: rest)) (chars ++ ',' :: (gap ++ more))
  | lastField {key : String} {value : Json} {chars gap : List Char} :
    Spells blanks (.value value) chars → gap ⊆ blanks → Spells blanks (.fields [(key, value)])
      ((printText key).toList ++ (':' :: ' ' :: (chars ++ (gap ++ ['\x7d']))))
  | moreFields {key : String} {value : Json} {rest : Fields} {chars gap more : List Char} :
    Spells blanks (.value value) chars → gap ⊆ blanks → Spells blanks (.fields rest) more →
      Spells blanks (.fields ((key, value) :: rest))
        ((printText key).toList ++ (':' :: ' ' :: (chars ++ ',' :: (gap ++ more))))

/-- Reading the part comes to it and to what follows. -/
def Reads (limit fuel depth : Nat) (chars rest : List Char) : Part → Prop
  | .value value => readValue limit fuel depth (chars ++ rest) = .ok (value, rest)
  | .items items => readItems limit fuel depth (chars ++ rest) = .ok (items, rest)
  | .fields fields => readFields limit fuel depth (chars ++ rest) = .ok (fields, rest)

mutual

/-- How deep lists and objects lie in one another. -/
def nesting : Json → Nat
  | .list items => nestingOfItems items + 1
  | .object fields => nestingOfFields fields + 1
  | _ => 0

def nestingOfItems : List Json → Nat
  | [] => 0
  | item :: rest => max (nesting item) (nestingOfItems rest)

def nestingOfFields : List (String × Json) → Nat
  | [] => 0
  | (_, value) :: rest => max (nesting value) (nestingOfFields rest)

end

mutual

/-- How many digits the longest integer has. -/
def digits : Json → Nat
  | .integer n => (Nat.toDigits 10 n.natAbs).length
  | .list items => digitsOfItems items
  | .object fields => digitsOfFields fields
  | _ => 0

def digitsOfItems : List Json → Nat
  | [] => 0
  | item :: rest => max (digits item) (digitsOfItems rest)

def digitsOfFields : List (String × Json) → Nat
  | [] => 0
  | (_, value) :: rest => max (digits value) (digitsOfFields rest)

end

def Part.nesting : Part → Nat
  | .value json => Json.nesting json
  | .items elements => nestingOfItems elements
  | .fields members => nestingOfFields members

def Part.digits : Part → Nat
  | .value json => Json.digits json
  | .items elements => digitsOfItems elements
  | .fields members => digitsOfFields members

/-! ### Reading -/

section Blanks

variable {blanks : List Char} {part : Part} {chars : List Char}

/-- A spelling begins with something that is neither blank nor a closing bracket. -/
theorem Spells.exists_head (hspells : Spells blanks part chars) : ∃ c tail, chars = c :: tail ∧
    isSpace c = false ∧ c ≠ ']' ∧ c ≠ '\x7d' := by
  have htext : ∀ text : String, ∃ tail, (printText text).toList = '\x22' :: tail := fun text =>
    ⟨_, by rw [printText, String.toList_append, String.toList_append]; rfl⟩
  induction hspells with
  | null => exact ⟨_, _, rfl, by decide⟩
  | bool value => cases value <;> exact ⟨_, _, rfl, by decide⟩
  | integer n =>
    obtain ⟨d, tail, hd, hchars⟩ := exists_digit n
    have hother : ∀ c : Char, c.isDigit = false → ¬d = c := fun c hc => digit_ne hd hc
    rw [hchars]
    split
    · exact ⟨_, _, rfl, by decide⟩
    · exact ⟨d, tail, rfl, by simp [isSpace, hother], hother _ rfl, hother _ rfl⟩
  | text text =>
    obtain ⟨tail, htail⟩ := htext text
    exact ⟨_, _, htail, by decide⟩
  | emptyList => exact ⟨_, _, rfl, by decide⟩
  | list => exact ⟨_, _, rfl, by decide⟩
  | emptyObject => exact ⟨_, _, rfl, by decide⟩
  | object => exact ⟨_, _, rfl, by decide⟩
  | lastItem _ _ ih =>
    obtain ⟨c, tail, rfl, hc⟩ := ih
    exact ⟨c, _, rfl, hc⟩
  | moreItems _ _ _ ih =>
    obtain ⟨c, tail, rfl, hc⟩ := ih
    exact ⟨c, _, rfl, hc⟩
  | lastField =>
    rename_i key _ _ _ _ _ _
    obtain ⟨tail, htail⟩ := htext key
    exact ⟨_, _, by rw [htail]; rfl, by decide⟩
  | moreFields =>
    rename_i key _ _ _ _ _ _ _ _ _ _
    obtain ⟨tail, htail⟩ := htext key
    exact ⟨_, _, by rw [htail]; rfl, by decide⟩

variable (hblanks : ∀ c ∈ blanks, isSpace c = true)

include hblanks

theorem skipSpace_gap {gap : List Char} (hgap : gap ⊆ blanks) {c : Char} (hc : isSpace c = false)
    (tail : List Char) : skipSpace (gap ++ c :: tail) = c :: tail := by
  rw [skipSpace, List.dropWhile_append_of_pos fun b hb => hblanks b (hgap hb)]
  simp [hc]

theorem ends_gap {gap : List Char} (hgap : gap ⊆ blanks) {c : Char}
    (hc : c ∈ [',', ']', '\x7d']) (tail : List Char) : Ends (gap ++ c :: tail) := by
  cases gap with
  | nil =>
    rintro _ ⟨⟩
    simp only [List.mem_cons, List.not_mem_nil, or_false] at hc
    rcases hc with rfl | rfl | rfl <;> decide
  | cons b gap =>
    rintro _ ⟨⟩
    have hb := hblanks b (hgap List.mem_cons_self)
    simp only [isSpace, Bool.or_eq_true, beq_iff_eq] at hb
    rcases hb with ((rfl | rfl) | rfl) | rfl <;> decide

end Blanks

section Steps

variable {limit fuel depth : Nat} {rest : List Char}

/-- What begins neither a text nor a list nor an object is a word or a number. -/
theorem readValue_simple {chars : List Char}
    (hhead : ∀ c ∈ chars.head?, c ≠ '\x22' ∧ c ≠ '[' ∧ c ≠ '\x7b') :
    readValue limit (fuel + 1) depth chars = match readWord? chars with
      | some result => .ok result
      | none => readNumber limit chars := by
  unfold readValue
  split
  · exact absurd rfl (hhead _ rfl).1
  · exact absurd rfl (hhead _ rfl).2.1
  · exact absurd rfl (hhead _ rfl).2.2
  · rfl

theorem readValue_null :
    readValue limit (fuel + 1) depth ("null".toList ++ rest) = .ok (.null, rest) := by
  rw [readValue_simple, readWord?_null]
  rintro _ ⟨⟩
  decide

theorem readValue_bool (value : Bool) : readValue limit (fuel + 1) depth
    ((if value then "true" else "false").toList ++ rest) = .ok (.bool value, rest) := by
  rw [readValue_simple, readWord?_bool]
  cases value <;> rintro _ ⟨⟩ <;> decide

theorem readValue_integer (hends : Ends rest) {n : Int}
    (hlimit : (Nat.toDigits 10 n.natAbs).length ≤ limit) :
    readValue limit (fuel + 1) depth ((toString n).toList ++ rest) = .ok (.integer n, rest) := by
  rw [readValue_simple, readWord?_integer]
  · exact readNumber_integer hends hlimit
  · obtain ⟨d, tail, hd, hchars⟩ := exists_digit n
    rw [hchars]
    split
    · rintro _ ⟨⟩
      decide
    · rintro _ ⟨⟩
      exact ⟨digit_ne hd rfl, digit_ne hd rfl, digit_ne hd rfl⟩

theorem readValue_text (text : String) :
    readValue limit (fuel + 1) depth ((printText text).toList ++ rest) = .ok (.text text, rest) := by
  obtain ⟨chars, hchars⟩ : ∃ chars, (printText text).toList ++ rest = '\x22' :: chars :=
    ⟨_, by rw [toList_printText, List.cons_append]⟩
  rw [hchars, readValue, readText_printText text rest hchars]
  rfl

section

variable {chars tail : List Char} {c : Char} (hskip : skipSpace chars = c :: tail)

include hskip

theorem readValue_list (hc : c ≠ ']') {items : List Json}
    (hitems : readItems limit fuel depth (c :: tail) = .ok (items, rest)) :
    readValue limit (fuel + 1) (depth + 1) ('[' :: chars) = .ok (.list items, rest) := by
  rw [readValue, if_neg (Nat.succ_ne_zero depth), hskip]
  split
  · rename_i heq
    exact absurd (List.cons.inj heq).1 hc
  · rw [Nat.add_sub_cancel, hitems]
    rfl

theorem readValue_object (hc : c ≠ '\x7d') {fields : Fields}
    (hfields : readFields limit fuel depth (c :: tail) = .ok (fields, rest)) :
    readValue limit (fuel + 1) (depth + 1) ('\x7b' :: chars) = .ok (ofFields fields, rest) := by
  rw [readValue, if_neg (Nat.succ_ne_zero depth), hskip]
  split
  · rename_i heq
    exact absurd (List.cons.inj heq).1 hc
  · rw [Nat.add_sub_cancel, hfields]
    rfl

end

section

variable {chars after : List Char} {item : Json}
  (hitem : readValue limit fuel depth chars = .ok (item, after))

include hitem

theorem readItems_last (hskip : skipSpace after = ']' :: rest) :
    readItems limit (fuel + 1) depth chars = .ok ([item], rest) := by
  rw [readItems, hitem]
  change (pure (item, after) >>= _) = _
  rw [pure_bind]
  dsimp only
  rw [hskip]
  rfl

theorem readItems_more {more : List Char} (hskip : skipSpace after = ',' :: more) {items : List Json}
    (hitems : readItems limit fuel depth (skipSpace more) = .ok (items, rest)) :
    readItems limit (fuel + 1) depth chars = .ok (item :: items, rest) := by
  rw [readItems, hitem]
  change (pure (item, after) >>= _) = _
  rw [pure_bind]
  dsimp only
  rw [hskip]
  change (readItems limit fuel depth (skipSpace more) >>= _) = _
  rw [hitems]
  rfl

end

section

variable (key : String) {chars after : List Char} {value : Json}
  (hvalue : readValue limit fuel depth (skipSpace chars) = .ok (value, after))

include hvalue

theorem readFields_last (hskip : skipSpace after = '\x7d' :: rest) :
    readFields limit (fuel + 1) depth ((printText key).toList ++ ':' :: chars) =
      .ok ([(key, value)], rest) := by
  obtain ⟨more, hmore⟩ : ∃ more, (printText key).toList ++ ':' :: chars = '\x22' :: more :=
    ⟨_, by rw [toList_printText, List.cons_append]⟩
  rw [hmore, readFields, readText_printText key _ hmore]
  change (readValue limit fuel depth (skipSpace chars) >>= _) = _
  rw [hvalue]
  change (pure (value, after) >>= _) = _
  rw [pure_bind]
  dsimp only
  rw [hskip]
  rfl

theorem readFields_more {more : List Char} (hskip : skipSpace after = ',' :: more) {fields : Fields}
    (hfields : readFields limit fuel depth (skipSpace more) = .ok (fields, rest)) :
    readFields limit (fuel + 1) depth ((printText key).toList ++ ':' :: chars) =
      .ok ((key, value) :: fields, rest) := by
  obtain ⟨all, hall⟩ : ∃ all, (printText key).toList ++ ':' :: chars = '\x22' :: all :=
    ⟨_, by rw [toList_printText, List.cons_append]⟩
  rw [hall, readFields, readText_printText key _ hall]
  change (readValue limit fuel depth (skipSpace chars) >>= _) = _
  rw [hvalue]
  change (pure (value, after) >>= _) = _
  rw [pure_bind]
  dsimp only
  rw [hskip]
  change (readFields limit fuel depth (skipSpace more) >>= _) = _
  rw [hfields]
  rfl

end

end Steps

theorem Fields.put_new {key : String} {fields : Fields} (hnew : key ∉ fields.map (·.1))
    (value : Json) : fields.put key value = fields ++ [(key, value)] := by
  induction fields with
  | nil => rfl
  | cons field rest ih =>
    simp only [List.map_cons, List.mem_cons, not_or] at hnew
    rw [Fields.put, if_neg fun heq => hnew.1 heq.symm, ih hnew.2]
    rfl

/-- No field is lost of an object that gives none twice. -/
theorem ofFields_of_nodup {fields : Fields} (hnodup : (fields.map (·.1)).Nodup) :
    ofFields fields = .object fields := by
  have hupdate : ∀ (front back : Fields), ((front ++ back).map (·.1)).Nodup →
      front.update back = front ++ back := by
    intro front back
    induction back generalizing front with
    | nil => simp [Fields.update]
    | cons field rest ih =>
      intro hnodup
      have hnew : field.1 ∉ front.map (·.1) := by
        rw [List.map_append, List.nodup_append] at hnodup
        exact fun hmem => hnodup.2.2 _ hmem _ (by simp) rfl
      change Fields.update (front.put field.1 field.2) rest = _
      rw [Fields.put_new hnew, ih _ (by simpa using hnodup)]
      simp
  rw [ofFields, hupdate [] fields (by simpa using hnodup), List.nil_append]

/-- **Reading.** A spelling is read as what it spells, whatever follows it. -/
theorem Spells.reads {blanks : List Char} (hblanks : ∀ c ∈ blanks, isSpace c = true) {part : Part}
    {chars : List Char} (hspells : Spells blanks part chars) {limit fuel depth : Nat}
    {rest : List Char} (hfuel : 2 * chars.length ≤ fuel) (hdigits : part.digits ≤ limit)
    (hnesting : part.nesting ≤ depth) (hends : Ends rest) :
    Reads limit fuel depth chars rest part := by
  have hfuels : ∀ {chars : List Char} {fuel : Nat}, chars ≠ [] → 2 * chars.length ≤ fuel →
      ∃ less, fuel = less + 1 := fun {chars fuel} hne hle =>
    ⟨fuel - 1, by have := List.length_pos_iff.mpr hne; omega⟩
  have hdepths : ∀ {inner depth : Nat}, inner + 1 ≤ depth → ∃ less, depth = less + 1 ∧ inner ≤ less :=
    fun {inner depth} hle => ⟨depth - 1, by omega, by omega⟩
  have hnone : ∀ {c : Char} (tail : List Char), isSpace c = false → skipSpace (c :: tail) = c :: tail :=
    fun tail hc => skipSpace_gap hblanks (List.nil_subset _) hc tail
  induction hspells generalizing fuel depth rest with
  | null =>
    obtain ⟨fuel, rfl⟩ := hfuels (by simp) hfuel
    exact readValue_null
  | bool value =>
    obtain ⟨fuel, rfl⟩ := hfuels (by cases value <;> simp) hfuel
    exact readValue_bool value
  | integer n =>
    obtain ⟨fuel, rfl⟩ := hfuels (by rw [toList_integer]; simp [Nat.toDigits_ne_nil]) hfuel
    exact readValue_integer hends hdigits
  | text text =>
    obtain ⟨fuel, rfl⟩ := hfuels (by simp [toList_printText]) hfuel
    exact readValue_text text
  | emptyList =>
    obtain ⟨fuel, rfl⟩ := hfuels (by simp) hfuel
    obtain ⟨depth, rfl, -⟩ := hdepths hnesting
    rfl
  | @list items gap chars hgap hitems ih =>
    obtain ⟨fuel, rfl⟩ := hfuels (by simp) hfuel
    obtain ⟨depth, rfl, hinner⟩ := hdepths hnesting
    have hread : Reads limit fuel depth chars rest (.items items) :=
      ih (by simp at hfuel; omega) hdigits hinner hends
    obtain ⟨c, tail, rfl, hc, hclosing, -⟩ := hitems.exists_head
    rw [Reads, List.cons_append, List.append_assoc, List.cons_append]
    exact readValue_list (skipSpace_gap hblanks hgap hc _) hclosing hread
  | emptyObject =>
    obtain ⟨fuel, rfl⟩ := hfuels (by simp) hfuel
    obtain ⟨depth, rfl, -⟩ := hdepths hnesting
    rfl
  | @object fields gap chars hnodup hgap hfields ih =>
    obtain ⟨fuel, rfl⟩ := hfuels (by simp) hfuel
    obtain ⟨depth, rfl, hinner⟩ := hdepths hnesting
    have hread : Reads limit fuel depth chars rest (.fields fields) :=
      ih (by simp at hfuel; omega) hdigits hinner hends
    obtain ⟨c, tail, rfl, hc, -, hclosing⟩ := hfields.exists_head
    rw [Reads, List.cons_append, List.append_assoc, List.cons_append, ← ofFields_of_nodup hnodup]
    exact readValue_object (skipSpace_gap hblanks hgap hc _) hclosing hread
  | @lastItem item chars gap hitem hgap ih =>
    obtain ⟨fuel, rfl⟩ := hfuels (by simp) hfuel
    have hread : Reads limit fuel depth chars (gap ++ ']' :: rest) (.value item) :=
      ih (by simp at hfuel; omega) (Nat.max_le.mp hdigits).1 (Nat.max_le.mp hnesting).1
        (ends_gap hblanks hgap (by simp) rest)
    simp only [Reads, List.append_assoc, List.singleton_append]
    exact readItems_last hread (skipSpace_gap hblanks hgap rfl rest)
  | @moreItems item items chars gap more hitem hgap hitems ih ihMore =>
    obtain ⟨fuel, rfl⟩ := hfuels (by simp) hfuel
    have hread : Reads limit fuel depth chars (',' :: (gap ++ (more ++ rest))) (.value item) :=
      ih (by simp at hfuel; omega) (Nat.max_le.mp hdigits).1 (Nat.max_le.mp hnesting).1
        (ends_gap hblanks (List.nil_subset _) (by simp) _)
    have hmore : Reads limit fuel depth more rest (.items items) :=
      ihMore (by simp at hfuel; omega) (Nat.max_le.mp hdigits).2 (Nat.max_le.mp hnesting).2 hends
    obtain ⟨c, tail, rfl, hc, -⟩ := hitems.exists_head
    simp only [Reads, List.append_assoc, List.cons_append]
    refine readItems_more hread (hnone _ rfl) ?_
    rw [List.cons_append, skipSpace_gap hblanks hgap hc]
    exact hmore
  | @lastField key value chars gap hvalue hgap ih =>
    obtain ⟨fuel, rfl⟩ := hfuels (by simp) hfuel
    have hread : Reads limit fuel depth chars (gap ++ '\x7d' :: rest) (.value value) :=
      ih (by simp at hfuel; omega) (Nat.max_le.mp hdigits).1 (Nat.max_le.mp hnesting).1
        (ends_gap hblanks hgap (by simp) rest)
    obtain ⟨c, tail, rfl, hc, -⟩ := hvalue.exists_head
    simp only [Reads, List.append_assoc, List.cons_append, List.nil_append]
    refine readFields_last key ?_ (skipSpace_gap hblanks hgap rfl rest)
    change readValue limit fuel depth (skipSpace (c :: _)) = _
    rw [hnone _ hc]
    exact hread
  | @moreFields key value fields chars gap more hvalue hgap hfields ih ihMore =>
    obtain ⟨fuel, rfl⟩ := hfuels (by simp) hfuel
    have hread : Reads limit fuel depth chars (',' :: (gap ++ (more ++ rest))) (.value value) :=
      ih (by simp at hfuel; omega) (Nat.max_le.mp hdigits).1 (Nat.max_le.mp hnesting).1
        (ends_gap hblanks (List.nil_subset _) (by simp) _)
    have hmore : Reads limit fuel depth more rest (.fields fields) :=
      ihMore (by simp at hfuel; omega) (Nat.max_le.mp hdigits).2 (Nat.max_le.mp hnesting).2 hends
    obtain ⟨c, tail, rfl, hc, -⟩ := hvalue.exists_head
    obtain ⟨d, last, rfl, hd, -⟩ := hfields.exists_head
    simp only [Reads, List.append_assoc, List.cons_append]
    have hskip : skipSpace (',' :: (gap ++ d :: (last ++ rest))) = _ := hnone _ rfl
    refine readFields_more key ?_ hskip ?_
    · change readValue limit fuel depth (skipSpace (c :: _)) = _
      rw [hnone _ hc]
      exact hread
    · rw [skipSpace_gap hblanks hgap hd]
      exact hmore

end JarRefinery.Json
