import JarRefinery.Compress.Deflate
import JarRefinery.Compress.Inflate
import JarRefinery.Proofs.Archive.Fields

/-!
# Deflated data

Data that was deflated is inflated to what it was: every stored block is read back, and the last one
ends the stream.
-/

namespace JarRefinery.Compress

variable {data rest : Bytes}

namespace Inflate

theorem readHeader_stored (last : Bool) (rest : Bytes) :
    readHeader (.ofBytes ((if last then 1 else 0) :: rest)) = .ok ((last, 0), ⟨0, 5, rest⟩) := by
  cases last <;> simp [readHeader, readNumber, Bits.take?, Bits.next?, Bits.ofBytes, bind,
    StateT.bind, Except.bind, pure, StateT.pure, Except.pure]

/-- A stored block is read as the bytes in it. -/
theorem readStored_block (hshort : data.length ≤ storedLimit) (output : Output) :
    readStored ⟨0, 5, Bytes.ofLittleEndian 2 data.length ++
      Bytes.ofLittleEndian 2 (storedLimit - data.length) ++ data ++ rest⟩ output =
      (output ++ data.toArray, .ok (.ofBytes rest)) := by
  have hlimit : storedLimit = 65535 := rfl
  have hlength : Bytes.littleEndian (Bytes.ofLittleEndian 2 data.length) = data.length :=
    Bytes.littleEndian_ofLittleEndian (by omega)
  have hcomplement : Bytes.littleEndian (Bytes.ofLittleEndian 2 (storedLimit - data.length)) =
      storedLimit - data.length :=
    Bytes.littleEndian_ofLittleEndian (by omega)
  have hpush : data.foldl Array.push output = output ++ data.toArray := by
    simp
  obtain ⟨a, b, hab⟩ : ∃ a b, Bytes.ofLittleEndian 2 data.length = [a, b] := ⟨_, _, rfl⟩
  obtain ⟨c, d, hcd⟩ : ∃ c d, Bytes.ofLittleEndian 2 (storedLimit - data.length) = [c, d] :=
    ⟨_, _, rfl⟩
  rw [hab] at hlength ⊢
  rw [hcd] at hcomplement ⊢
  simp only [readStored, Bits.alignedRest, List.cons_append, List.nil_append, hlength, hcomplement,
    List.take_left, List.drop_left, hpush]
  rw [if_pos (by omega), if_neg (Nat.lt_irrefl _)]

theorem readBlocks_block (hshort : data.length ≤ storedLimit) (last : Bool) (fuel : Nat)
    (output : Output) :
    readBlocks (fuel + 1) (.ofBytes (storedBlock last data ++ rest)) output =
      if last then (output ++ data.toArray, .ok rest)
      else readBlocks fuel (.ofBytes rest) (output ++ data.toArray) := by
  have hblock := @readStored_block data rest hshort output
  rw [readBlocks, storedBlock]
  simp only [List.cons_append, readHeader_stored, readBlock, if_true, hblock]
  rfl

theorem length_storedBlock (last : Bool) (data : Bytes) :
    (storedBlock last data).length = data.length + 5 := by
  simp [storedBlock]
  omega

/-- The blocks of deflated data are read to the last one. -/
theorem readBlocks_deflate (data : Bytes) (fuel : Nat) (hfuel : (deflate data).length ≤ fuel)
    (output : Output) :
    readBlocks fuel (.ofBytes (deflate data)) output = (output ++ data.toArray, .ok []) := by
  induction data using deflate.induct generalizing fuel output with
  | case1 data hshort =>
    rw [deflate, if_pos hshort] at hfuel ⊢
    rw [length_storedBlock] at hfuel
    obtain ⟨fuel, rfl⟩ : ∃ left, fuel = left + 1 := ⟨fuel - 1, by omega⟩
    rw [← List.append_nil (storedBlock true data), readBlocks_block hshort, if_pos rfl]
  | case2 data hlong ih =>
    rw [deflate, if_neg hlong] at hfuel ⊢
    rw [List.length_append, length_storedBlock] at hfuel
    obtain ⟨fuel, rfl⟩ : ∃ left, fuel = left + 1 := ⟨fuel - 1, by omega⟩
    rw [readBlocks_block (List.length_take_le _ _), if_neg Bool.false_ne_true,
      ih fuel (by omega)]
    simp

end Inflate

/-- **Deflated data.** It is inflated to what it was, and nothing is left over. -/
theorem inflate_deflate (data : Bytes) : inflate (deflate data) = .finished data.toArray [] := by
  have hblocks := Inflate.readBlocks_deflate data ((Bits.ofBytes (deflate data)).length + 1)
    (by simp [Bits.length, Bits.ofBytes]; omega) #[]
  simp only [inflate, hblocks]
  simp

theorem length_le_deflate (data : Bytes) : data.length ≤ (deflate data).length := by
  induction data using deflate.induct with
  | case1 data hshort =>
    rw [deflate, if_pos hshort, Inflate.length_storedBlock]
    omega
  | case2 data hlong ih =>
    rw [deflate, if_neg hlong, List.length_append, Inflate.length_storedBlock, List.length_take]
    rw [List.length_drop] at ih
    omega

end JarRefinery.Compress
