import Mathlib
import JarRefinery.Bytes

/-!
# Fields of fixed width

A number that fits its field is read back from it, whatever stands before the field and behind it.
What is read from a field fits it.
-/

namespace JarRefinery.Bytes

variable {offset width n : Nat} {front rest : Bytes}

@[simp]
theorem length_ofLittleEndian (width n : Nat) : (ofLittleEndian width n).length = width := by
  induction width generalizing n with
  | zero => rfl
  | succ width ih => simp [ofLittleEndian, ih]

@[simp]
theorem littleEndian_cons (b : UInt8) (rest : Bytes) :
    littleEndian (b :: rest) = b.toNat + 256 * littleEndian rest :=
  rfl

theorem littleEndian_ofLittleEndian (hfits : n < 256 ^ width) :
    littleEndian (ofLittleEndian width n) = n := by
  induction width generalizing n with
  | zero => simp_all [ofLittleEndian, littleEndian]
  | succ width ih =>
    have hrest : n / 256 < 256 ^ width := by
      rw [Nat.div_lt_iff_lt_mul (by decide)]
      rwa [Nat.pow_succ] at hfits
    rw [ofLittleEndian, littleEndian_cons, ih hrest, UInt8.toNat_ofNat']
    exact Nat.mod_add_div n 256

theorem littleEndian_lt (bytes : Bytes) : littleEndian bytes < 256 ^ bytes.length := by
  induction bytes with
  | nil => decide
  | cons b rest ih =>
    have hb : b.toNat < 256 := b.toNat_lt
    rw [littleEndian_cons, List.length_cons, Nat.pow_succ]
    omega

/-- What is read from a field fits it. -/
theorem number_lt (bytes : Bytes) (offset width : Nat) : number bytes offset width < 256 ^ width :=
  Nat.lt_of_lt_of_le (littleEndian_lt _)
    (Nat.pow_le_pow_right (by decide) (List.length_take_le _ _))

theorem number_append_right (hfront : front.length ≤ offset) :
    number (front ++ rest) offset width = number rest (offset - front.length) width := by
  rw [number, number, field, field, List.drop_append, List.drop_eq_nil_of_le hfront,
    List.nil_append]

theorem number_ofLittleEndian_append (hfits : n < 256 ^ width) :
    number (ofLittleEndian width n ++ rest) 0 width = n := by
  rw [number, field, List.drop_zero, List.take_left' (length_ofLittleEndian width n),
    littleEndian_ofLittleEndian hfits]

theorem number_ofLittleEndian (hfits : n < 256 ^ width) :
    number (ofLittleEndian width n) 0 width = n := by
  simpa using @number_ofLittleEndian_append width n [] hfits

end JarRefinery.Bytes
