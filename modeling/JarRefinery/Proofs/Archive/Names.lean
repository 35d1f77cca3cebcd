import JarRefinery.Archive.Name
import Mathlib.Data.List.TakeWhile

/-!
# Names in archives

UTF-8 reads back the characters that it wrote, and so a name comes back from an archive under the
flags that it was written with.
-/

namespace JarRefinery

namespace Text.Utf8

variable {position n : Nat} {b : UInt8} {p : Partial} {items : List Item}

/-! ### One character -/

theorem toNat_ofNat (hsmall : n < 256) : (UInt8.ofNat n).toNat = n := by
  rw [UInt8.toNat_ofNat']
  exact Nat.mod_eq_of_lt hsmall

theorem announce_two (hlow : 0xc2 ≤ b.toNat) (hhigh : b.toNat ≤ 0xdf) :
    announce position b = some ⟨b, position, 1, 0x80, 0xbf, b.toNat % 32⟩ := by
  simp [announce, UInt8.le_iff_toNat_le, hlow, hhigh]

theorem announce_three (hlow : 0xe0 ≤ b.toNat) (hhigh : b.toNat ≤ 0xef) :
    announce position b = some ⟨b, position, 2, if b.toNat = 0xe0 then 0xa0 else 0x80,
      if b.toNat = 0xed then 0x9f else 0xbf, b.toNat % 16⟩ := by
  have hnot : ¬b.toNat ≤ 0xdf := by omega
  by_cases hfirst : b.toNat = 0xe0
  · simp [announce, UInt8.le_iff_toNat_le, ← UInt8.toNat_inj, hfirst]
  by_cases hsurrogates : b.toNat = 0xed
  · simp [announce, UInt8.le_iff_toNat_le, ← UInt8.toNat_inj, hsurrogates]
  have hrest : 0xe1 ≤ b.toNat := by omega
  simp [announce, UInt8.le_iff_toNat_le, ← UInt8.toNat_inj, hnot, hfirst, hsurrogates, hrest,
    hhigh]

theorem announce_four (hlow : 0xf0 ≤ b.toNat) (hhigh : b.toNat ≤ 0xf4) :
    announce position b = some ⟨b, position, 3, if b.toNat = 0xf0 then 0x90 else 0x80,
      if b.toNat = 0xf4 then 0x8f else 0xbf, b.toNat % 8⟩ := by
  obtain h | h | h | h | h : b.toNat = 0xf0 ∨ b.toNat = 0xf1 ∨ b.toNat = 0xf2 ∨ b.toNat = 0xf3 ∨
      b.toNat = 0xf4 := by omega
  all_goals simp [announce, UInt8.le_iff_toNat_le, ← UInt8.toNat_inj, h]

theorem read_first (hnot : 0x80 ≤ b.toNat) (hannounce : announce position b = some p) :
    Reader.read ⟨position, none, items⟩ b = ⟨position + 1, some p, items⟩ := by
  have hascii : ¬b < 0x80 := by simpa [UInt8.lt_iff_toNat_lt] using hnot
  simp [Reader.read, Reader.open, hascii, hannounce]

section Following

variable (hsmall : n < 64) (hlow : p.low.toNat ≤ n + 128) (hhigh : n + 128 ≤ p.high.toNat)

include hsmall hlow hhigh

theorem follows :
    p.low ≤ UInt8.ofNat (n + 128) ∧ UInt8.ofNat (n + 128) ≤ p.high ∧
      (UInt8.ofNat (n + 128)).toNat % 64 = n := by
  rw [UInt8.le_iff_toNat_le, UInt8.le_iff_toNat_le, toNat_ofNat (by omega)]
  exact ⟨hlow, hhigh, by omega⟩

theorem read_more (hneed : 1 < p.need) :
    Reader.read ⟨position, some p, items⟩ (UInt8.ofNat (n + 128)) =
      ⟨position + 1, some ⟨p.first, p.start, p.need - 1, 0x80, 0xbf, p.code * 64 + n⟩, items⟩ := by
  obtain ⟨hlow, hhigh, hmod⟩ := follows hsmall hlow hhigh
  simp only [Reader.read, hlow, hhigh, hmod, decide_true, Bool.and_self, if_true,
    Nat.not_le.mpr hneed, if_false]

theorem read_last (hneed : p.need = 1) :
    Reader.read ⟨position, some p, items⟩ (UInt8.ofNat (n + 128)) =
      ⟨position + 1, none, .char (Char.ofNat (p.code * 64 + n)) :: items⟩ := by
  obtain ⟨hlow, hhigh, hmod⟩ := follows hsmall hlow hhigh
  simp only [Reader.read, hlow, hhigh, hmod, decide_true, Bool.and_self, if_true, hneed,
    Nat.le_refl]

end Following

/-- The bytes of a character are read as that character. -/
theorem read_encodeChar (c : Char) (position : Nat) (items : List Item) :
    (String.utf8EncodeChar c).foldl Reader.read ⟨position, none, items⟩ =
      ⟨position + (String.utf8EncodeChar c).length, none, .char c :: items⟩ := by
  have hvalid : c.toNat < 0xd800 ∨ 0xdfff < c.toNat ∧ c.toNat < 0x110000 := c.valid
  have hchar := Char.ofNat_toNat c
  unfold String.utf8EncodeChar
  rw [show c.val.toNat = c.toNat from rfl]
  generalize c.toNat = v at hvalid hchar
  subst hchar
  by_cases hone : v ≤ 0x7f
  · have hb := toNat_ofNat (n := v) (by omega)
    have hascii : UInt8.ofNat v < 0x80 := by
      rw [UInt8.lt_iff_toNat_lt, hb]
      exact Nat.lt_succ_of_le hone
    simp [hone, Reader.read, Reader.open, hascii, hb]
  by_cases htwo : v ≤ 0x7ff
  · have hb := toNat_ofNat (n := v / 64 % 32 + 192) (by omega)
    simp only [hone, htwo, if_true, if_false, List.foldl_cons, List.foldl_nil]
    rw [read_first (by omega) (announce_two (by omega) (by omega)),
      read_last (by omega) (by simp) (by simp; omega) rfl, hb,
      show (v / 64 % 32 + 192) % 32 * 64 + v % 64 = v by omega]
    rfl
  by_cases hthree : v ≤ 0xffff
  · have hb := toNat_ofNat (n := v / 4096 % 16 + 224) (by omega)
    simp only [hone, htwo, hthree, if_true, if_false, List.foldl_cons, List.foldl_nil]
    rw [read_first (by omega) (announce_three (by omega) (by omega)),
      read_more (by omega) (by simp; split <;> grind) (by simp; split <;> (simp; omega))
        (by simp),
      read_last (by omega) (by simp) (by simp; omega) rfl, hb,
      show ((v / 4096 % 16 + 224) % 16 * 64 + v / 64 % 64) * 64 + v % 64 = v by omega]
    rfl
  · have hb := toNat_ofNat (n := v / 262144 % 8 + 240) (by omega)
    simp only [hone, htwo, hthree, if_false, List.foldl_cons, List.foldl_nil]
    rw [read_first (by omega) (announce_four (by omega) (by omega)),
      read_more (by omega) (by simp; split <;> grind) (by simp; split <;> (simp; omega))
        (by simp),
      read_more (by omega) (by simp) (by simp; omega) (by simp),
      read_last (by omega) (by simp) (by simp; omega) rfl, hb,
      show (((v / 262144 % 8 + 240) % 8 * 64 + v / 4096 % 64) * 64 + v / 64 % 64) * 64 + v % 64 =
        v by omega]
    rfl

/-! ### Texts -/

theorem read_encode (chars : List Char) (position : Nat) (items : List Item) :
    ∃ position', (chars.flatMap String.utf8EncodeChar).foldl Reader.read ⟨position, none, items⟩ =
      ⟨position', none, (chars.map .char).reverse ++ items⟩ := by
  induction chars generalizing position items with
  | nil => exact ⟨position, rfl⟩
  | cons c rest ih =>
    obtain ⟨position', hread⟩ := ih _ (.char c :: items)
    refine ⟨position', ?_⟩
    rw [List.flatMap_cons, List.foldl_append, read_encodeChar, hread]
    simp

theorem strict_chars (chars : List Char) : strict (chars.map .char) = .ok chars := by
  induction chars with
  | nil => rfl
  | cons c rest ih =>
    rw [List.map_cons]
    unfold strict at ih ⊢
    rw [List.foldr_cons, ih]
    rfl

/-- **UTF-8.** What is written of a text is read as that text. -/
theorem decode_encode (text : String) : decode (encode text) = .ok text.toList := by
  obtain ⟨position, hread⟩ := read_encode text.toList 0 []
  unfold decode Utf8.items encode
  rw [hread, Reader.finish]
  simpa using strict_chars text.toList

end Text.Utf8

namespace Archive

open Text (CodePage)

theorem char_ascii {c : Char} (hascii : c.toNat < 0x80) :
    String.utf8EncodeChar c = [UInt8.ofNat c.toNat] ∧
      CodePage.page437.char (UInt8.ofNat c.toNat) = c := by
  have hbyte := Text.Utf8.toNat_ofNat (n := c.toNat) (by omega)
  have hlow : UInt8.ofNat c.toNat < 0x80 := by
    rw [UInt8.lt_iff_toNat_lt, hbyte]
    exact hascii
  constructor
  · have hone : c.val.toNat ≤ 127 := Nat.le_of_lt_succ hascii
    unfold String.utf8EncodeChar
    exact if_pos hone
  · rw [CodePage.char, if_pos hlow, hbyte, Char.ofNat_toNat]

theorem map_encode_ascii {chars : List Char} (hascii : ∀ c ∈ chars, c.toNat < 0x80) :
    (chars.flatMap String.utf8EncodeChar).map CodePage.page437.char = chars := by
  induction chars with
  | nil => rfl
  | cons c rest ih =>
    obtain ⟨hbytes, hchar⟩ := char_ascii (hascii c List.mem_cons_self)
    rw [List.flatMap_cons, hbytes, List.map_append, List.map_singleton, hchar,
      ih fun c hmem => hascii c (List.mem_cons_of_mem _ hmem)]
    rfl

/-- **Names.** A name comes back under the flags that it was written with. -/
theorem decodeName_encode (name : String) :
    decodeName (nameFlags name) (Text.Utf8.encode name) = .ok name := by
  unfold decodeName nameFlags
  by_cases hascii : name.toList.all (·.toNat < 0x80) = true
  · have hchars : ∀ c ∈ name.toList, c.toNat < 0x80 := by simpa using hascii
    rw [if_pos hascii, if_neg (by decide), Text.Utf8.encode, map_encode_ascii hchars,
      String.ofList_toList]
  · rw [if_neg hascii, if_pos (by decide), Text.Utf8.decode_encode]
    simp [Except.map]

/-- A name that was cut has nothing left to be cut. -/
theorem cutName_cutName (name : String) : cutName (cutName name) = cutName name := by
  simp [cutName, List.takeWhile_idem]

theorem hasFlag_nameFlags (name : String) (flag : Nat) (hzero : hasFlag 0 flag = false)
    (hunicode : hasFlag unicodeNameFlag flag = false) : hasFlag (nameFlags name) flag = false := by
  unfold nameFlags
  split
  · exact hzero
  · exact hunicode

theorem nameFlags_lt (name : String) : nameFlags name < 0x10000 := by
  unfold nameFlags
  split <;> decide

end Archive

end JarRefinery
