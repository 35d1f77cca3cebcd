import JarRefinery.Archive.Writer
import JarRefinery.Proofs.Archive.Fields
import JarRefinery.Proofs.Results

/-!
# Records of a directory

What is read of an entry fits the fields that it was read from. So it can be written into a record
again, and the record is read as the entry that it was written of. Entries that need no wide fields
are left as they are by what their extra field says of such.
-/

namespace JarRefinery.Archive

open Bytes

namespace Entry

/-! ### Narrow entries -/

/-- Four bytes each tell the sizes and the offset of the entry. -/
structure IsNarrow (entry : Entry) : Prop where
  size : entry.size < wideLimit
  packedSize : entry.packedSize < wideLimit
  offset : entry.offset < wideLimit

variable {entry : Entry}

theorem IsNarrow.widened (hnarrow : entry.IsNarrow) (data : Bytes) :
    entry.widened data = .ok entry := by
  obtain ⟨hsize, hpackedSize, hoffset⟩ := hnarrow
  have hlimit : wideLimit < 0xffffffffffffffff := by decide
  have hno : ¬(entry.size = wideLimit ∨ entry.size = 0xffffffffffffffff) := by omega
  simp only [Entry.widened, if_neg hno, if_neg (Nat.ne_of_lt hpackedSize),
    if_neg (Int.ne_of_lt hoffset)]
  rfl

/-- An extra field that could be read says nothing of an entry that is narrow. -/
theorem IsNarrow.readExtra {source found : Entry} (hnarrow : entry.IsNarrow) {fuel : Nat}
    {extra : Bytes} (hread : source.readExtra fuel extra = .ok found) :
    entry.readExtra fuel extra = .ok entry := by
  induction fuel generalizing source extra with
  | zero => rfl
  | succ fuel ih =>
    rw [Entry.readExtra] at hread ⊢
    by_cases hshort : extra.length < 4
    · rw [if_pos hshort]
    rw [if_neg hshort] at hread ⊢
    by_cases hcorrupt : extra.length < number extra 2 2 + 4
    · simp only [hcorrupt, if_true] at hread
      cases hread
    simp only [hcorrupt, if_false] at hread ⊢
    by_cases htag : number extra 0 2 = 1
    · simp only [htag, if_true] at hread ⊢
      obtain ⟨_, -, hread⟩ := Result.bind_eq_ok.mp hread
      rw [hnarrow.widened]
      exact ih hread
    · simp only [htag, if_false] at hread ⊢
      exact ih hread

/-! ### Records that are written -/

/-- What a directory told of an entry fits the fields of a directory again. -/
structure Listed (entry : Entry) : Prop where
  made : entry.made < 256
  system : entry.system < 256
  need : entry.need ≤ newestVersion
  reserved : entry.reserved < 256
  method : entry.method < 65536
  time : entry.time < 65536
  date : entry.date < 65536
  internalAttributes : entry.internalAttributes < 65536
  externalAttributes : entry.externalAttributes < 256 ^ 4
  extra : entry.extra.length < 65536
  comment : entry.comment.length < 65536
  readable : ∃ source found : Entry,
    source.readExtra entry.extra.length entry.extra = .ok found

/-- A record can tell of the entry whatever there is to be told. -/
structure Recordable (entry : Entry) : Prop extends Listed entry, IsNarrow entry where
  flags : entry.flags < 65536
  crc : entry.crc < 256 ^ 4
  placed : 0 ≤ entry.offset
  name : (Text.Utf8.encode entry.listedName).length < 65536
  decoded : decodeName entry.flags (Text.Utf8.encode entry.listedName) = .ok entry.listedName

/-- The part of a record that has the same length for all entries. -/
def head (entry : Entry) : Bytes :=
  directorySignature ++ (ofLittleEndian 1 entry.made ++ (ofLittleEndian 1 entry.system ++
    (ofLittleEndian 1 entry.need ++ (ofLittleEndian 1 entry.reserved ++
    (ofLittleEndian 2 entry.flags ++ (ofLittleEndian 2 entry.method ++
    (ofLittleEndian 2 entry.time ++ (ofLittleEndian 2 entry.date ++
    (ofLittleEndian 4 entry.crc ++ (ofLittleEndian 4 entry.packedSize ++
    (ofLittleEndian 4 entry.size ++
    (ofLittleEndian 2 (Text.Utf8.encode entry.listedName).length ++
    (ofLittleEndian 2 entry.extra.length ++ (ofLittleEndian 2 entry.comment.length ++
    (ofLittleEndian 2 0 ++ (ofLittleEndian 2 entry.internalAttributes ++
    (ofLittleEndian 4 entry.externalAttributes ++
    (ofLittleEndian 4 entry.offset.toNat ++ []))))))))))))))))))

theorem length_head (entry : Entry) : entry.head.length = directorySize := by
  simp [head, directorySignature, directorySize]

theorem directoryBytes_eq (entry : Entry) :
    entry.directoryBytes = entry.head ++ (Text.Utf8.encode entry.listedName ++
      (entry.extra ++ entry.comment)) := by
  simp only [directoryBytes, Member.sharedFields, head, List.append_assoc, List.append_nil]

@[simp]
theorem length_directorySignature : directorySignature.length = 4 := by
  simp [directorySignature]

theorem Recordable.number_head (hrecord : entry.Recordable) :
    number entry.head 4 1 = entry.made ∧ number entry.head 5 1 = entry.system ∧
      number entry.head 6 1 = entry.need ∧ number entry.head 7 1 = entry.reserved ∧
      number entry.head 8 2 = entry.flags ∧ number entry.head 10 2 = entry.method ∧
      number entry.head 12 2 = entry.time ∧ number entry.head 14 2 = entry.date ∧
      number entry.head 16 4 = entry.crc ∧ number entry.head 20 4 = entry.packedSize ∧
      number entry.head 24 4 = entry.size ∧
      number entry.head 28 2 = (Text.Utf8.encode entry.listedName).length ∧
      number entry.head 30 2 = entry.extra.length ∧ number entry.head 32 2 = entry.comment.length ∧
      number entry.head 36 2 = entry.internalAttributes ∧
      number entry.head 38 4 = entry.externalAttributes ∧
      number entry.head 42 4 = entry.offset.toNat := by
  have hneed : entry.need < 256 := Nat.lt_of_le_of_lt hrecord.need (by decide)
  have hlimit : wideLimit < 4294967296 := by decide
  have hsize := Nat.lt_trans hrecord.size hlimit
  have hpackedSize := Nat.lt_trans hrecord.packedSize hlimit
  have hcrc : entry.crc < 4294967296 := hrecord.crc
  have hattributes : entry.externalAttributes < 4294967296 := hrecord.externalAttributes
  have hoffset : entry.offset.toNat < 4294967296 := by
    have := hrecord.offset
    omega
  simp [head, number_append_right, number_ofLittleEndian_append, number_ofLittleEndian, hneed, hsize,
    hpackedSize, hoffset, hcrc, hattributes, hrecord.made, hrecord.system, hrecord.reserved,
    hrecord.flags, hrecord.method, hrecord.time, hrecord.date, hrecord.name, hrecord.extra,
    hrecord.comment, hrecord.internalAttributes]

/-- A record is read as the entry that it was written of. -/
theorem Recordable.readEntry (hrecord : entry.Recordable) (shift : Int) (rest : Bytes) :
    readEntry shift (entry.directoryBytes ++ rest) =
      .ok ({ entry with limit := 0, offset := entry.offset + shift },
        entry.directoryBytes.length) := by
  have hfixed : (entry.directoryBytes ++ rest).take directorySize = entry.head := by
    rw [directoryBytes_eq, List.append_assoc, List.take_left' (length_head entry)]
  have hdrop : (entry.directoryBytes ++ rest).drop directorySize =
      Text.Utf8.encode entry.listedName ++ (entry.extra ++ (entry.comment ++ rest)) := by
    rw [directoryBytes_eq, List.append_assoc, List.drop_left' (length_head entry)]
    simp only [List.append_assoc]
  have hsignature : directorySignature.isPrefixOf entry.head = true := rfl
  obtain ⟨hmade, hsystem, hneed, hreserved, hflags, hmethod, htime, hdate, hcrc, hpackedSize, hsize,
    hname, hextra, hcomment, hinternal, hexternal, hoffset⟩ := hrecord.number_head
  obtain ⟨source, found, hreadable⟩ := hrecord.readable
  have hplaced : (entry.offset.toNat : Int) = entry.offset := Int.toNat_of_nonneg hrecord.placed
  unfold Archive.readEntry
  simp only [hfixed, hdrop, length_head, hsignature, hmade, hsystem, hneed, hreserved, hflags,
    hmethod, htime, hdate, hcrc, hpackedSize, hsize, hname, hextra, hcomment, hinternal, hexternal,
    hoffset, List.take_left, List.drop_left, hrecord.decoded, Nat.lt_irrefl, if_false,
    Nat.not_lt.mpr hrecord.need, hplaced, Bool.not_true, Bool.false_eq_true]
  have hnarrow : IsNarrow { entry with limit := 0 } :=
    ⟨hrecord.size, hrecord.packedSize, hrecord.offset⟩
  rw [directoryBytes_eq]
  simp only [hnarrow.readExtra hreadable, List.length_append, length_head, Nat.add_assoc, pure_bind]
  rfl

/-! ### Records that are read -/

theorem widened_ok {found : Entry} {data : Bytes} (hwidened : entry.widened data = .ok found) :
    ∃ size packedSize offset, found = { entry with size, packedSize, offset } := by
  unfold Entry.widened at hwidened
  obtain ⟨size, -, hwidened⟩ := Result.of_ite_bind_eq_ok hwidened
  obtain ⟨packedSize, -, hwidened⟩ := Result.of_ite_bind_eq_ok hwidened
  obtain ⟨offset, -, hwidened⟩ := Result.of_ite_bind_eq_ok hwidened
  exact ⟨size.1, packedSize.1, offset, (Except.ok.inj hwidened).symm⟩

/-- Reading an extra field may only change the sizes and the offset. -/
theorem readExtra_ok {found : Entry} {fuel : Nat} {extra : Bytes}
    (hread : entry.readExtra fuel extra = .ok found) :
    ∃ size packedSize offset, found = { entry with size, packedSize, offset } := by
  induction fuel generalizing entry extra with
  | zero => exact ⟨_, _, _, (Except.ok.inj hread).symm⟩
  | succ fuel ih =>
    rw [Entry.readExtra] at hread
    split at hread
    · exact ⟨_, _, _, (Except.ok.inj hread).symm⟩
    dsimp only at hread
    split at hread
    · cases hread
    obtain ⟨middle, hmiddle, hread⟩ := Result.of_ite_bind_eq_ok hread
    obtain ⟨size, packedSize, offset, rfl⟩ := ih hread
    split at hmiddle
    · obtain ⟨_, _, _, rfl⟩ := widened_ok hmiddle
      exact ⟨size, packedSize, offset, rfl⟩
    · cases hmiddle
      exact ⟨size, packedSize, offset, rfl⟩

/-- Whatever is read of an entry fits the fields that it was read from. -/
theorem listed_of_readEntry {shift : Int} {bytes : Bytes} {length : Nat}
    (hread : Archive.readEntry shift bytes = .ok (entry, length)) : entry.Listed := by
  unfold Archive.readEntry at hread
  dsimp only at hread
  split at hread
  · cases hread
  split at hread
  · cases hread
  split at hread
  swap
  · cases hread
  obtain ⟨listedName, -, hread⟩ := Result.bind_eq_ok.mp hread
  split at hread
  · cases hread
  rename_i hneed
  obtain ⟨found, hfound, hread⟩ := Result.bind_eq_ok.mp hread
  obtain ⟨size, packedSize, offset, hsame⟩ := readExtra_ok hfound
  obtain ⟨rfl, -⟩ := Prod.mk.inj (Except.ok.inj hread)
  subst hsame
  exact {
    made := number_lt _ _ _
    system := number_lt _ _ _
    need := Nat.not_lt.mp hneed
    reserved := number_lt _ _ _
    method := number_lt _ _ _
    time := number_lt _ _ _
    date := number_lt _ _ _
    internalAttributes := number_lt _ _ _
    externalAttributes := number_lt _ _ _
    extra := Nat.lt_of_le_of_lt (List.length_take_le _ _) (number_lt _ _ _)
    comment := Nat.lt_of_le_of_lt (List.length_take_le _ _) (number_lt _ _ _)
    readable := ⟨_, _, hfound⟩ }

end Entry

end JarRefinery.Archive
