import JarRefinery.Bytes

/-!
Code pages: one byte for every character. The bytes below 128 stand for ASCII; a page says which
characters the others stand for.
-/
namespace JarRefinery.Text

structure CodePage where
  /-- The characters of the bytes from 128 up, zero for a byte that stands for none. -/
  upper : Array Nat
deriving DecidableEq, Repr

namespace CodePage

/-- The character of a byte. -/
def char (page : CodePage) (b : UInt8) : Char :=
  if b < 0x80 then Char.ofNat b.toNat else Char.ofNat (page.upper.getD (b.toNat - 128) 0)

/-- The byte of a character, if it is on the page. -/
def byte? (page : CodePage) (c : Char) : Option UInt8 :=
  if c.toNat < 0x80 then some (UInt8.ofNat c.toNat)
  else (page.upper.toList.findIdx? (· == c.toNat)).map fun index => UInt8.ofNat (128 + index)

/-- Page 437: accented letters, parts of frames, Greek letters and signs. -/
def page437 : CodePage := ⟨#[
  0x00c7, 0x00fc, 0x00e9, 0x00e2, 0x00e4, 0x00e0, 0x00e5, 0x00e7,
  0x00ea, 0x00eb, 0x00e8, 0x00ef, 0x00ee, 0x00ec, 0x00c4, 0x00c5,
  0x00c9, 0x00e6, 0x00c6, 0x00f4, 0x00f6, 0x00f2, 0x00fb, 0x00f9,
  0x00ff, 0x00d6, 0x00dc, 0x00a2, 0x00a3, 0x00a5, 0x20a7, 0x0192,
  0x00e1, 0x00ed, 0x00f3, 0x00fa, 0x00f1, 0x00d1, 0x00aa, 0x00ba,
  0x00bf, 0x2310, 0x00ac, 0x00bd, 0x00bc, 0x00a1, 0x00ab, 0x00bb,
  0x2591, 0x2592, 0x2593, 0x2502, 0x2524, 0x2561, 0x2562, 0x2556,
  0x2555, 0x2563, 0x2551, 0x2557, 0x255d, 0x255c, 0x255b, 0x2510,
  0x2514, 0x2534, 0x252c, 0x251c, 0x2500, 0x253c, 0x255e, 0x255f,
  0x255a, 0x2554, 0x2569, 0x2566, 0x2560, 0x2550, 0x256c, 0x2567,
  0x2568, 0x2564, 0x2565, 0x2559, 0x2558, 0x2552, 0x2553, 0x256b,
  0x256a, 0x2518, 0x250c, 0x2588, 0x2584, 0x258c, 0x2590, 0x2580,
  0x03b1, 0x00df, 0x0393, 0x03c0, 0x03a3, 0x03c3, 0x00b5, 0x03c4,
  0x03a6, 0x0398, 0x03a9, 0x03b4, 0x221e, 0x03c6, 0x03b5, 0x2229,
  0x2261, 0x00b1, 0x2265, 0x2264, 0x2320, 0x2321, 0x00f7, 0x2248,
  0x00b0, 0x2219, 0x00b7, 0x221a, 0x207f, 0x00b2, 0x25a0, 0x00a0]⟩

/-- The numbers `first ≤ n < 256`. -/
def numbersFrom (first : Nat) : Array Nat :=
  (Array.range (256 - first)).map (first + ·)

/-- Page 1252: Latin letters, with typographic signs in the place of most controls. -/
def page1252 : CodePage := ⟨#[
  0x20ac, 0x0000, 0x201a, 0x0192, 0x201e, 0x2026, 0x2020, 0x2021,
  0x02c6, 0x2030, 0x0160, 0x2039, 0x0152, 0x0000, 0x017d, 0x0000,
  0x0000, 0x2018, 0x2019, 0x201c, 0x201d, 0x2022, 0x2013, 0x2014,
  0x02dc, 0x2122, 0x0161, 0x203a, 0x0153, 0x0000, 0x017e, 0x0178] ++ numbersFrom 0xa0⟩

/-- Latin 9: Latin 1, with eight other signs and letters. -/
def latin9 : CodePage :=
  let others : List (Nat × Nat) := [(0xa4, 0x20ac), (0xa6, 0x160), (0xa8, 0x161), (0xb4, 0x17d),
    (0xb8, 0x17e), (0xbc, 0x152), (0xbd, 0x153), (0xbe, 0x178)]
  ⟨(numbersFrom 0x80).map fun n => (others.lookup n).getD n⟩

end CodePage

end JarRefinery.Text
