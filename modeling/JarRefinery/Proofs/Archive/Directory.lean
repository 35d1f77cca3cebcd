import JarRefinery.Proofs.Archive.Deflated
import JarRefinery.Proofs.Archive.Names
import JarRefinery.Proofs.Archive.Records

/-!
# Directories

The directory of an archive that was written is found behind its last member, and lists the members
in their order. Each of them has the room up to the next one.
-/

namespace JarRefinery.Archive

open Bytes

/-! ### Entries that were read -/

theorem Entry.Listed.limited {entry : Entry} (hlisted : entry.Listed) (limit : Int) :
    Entry.Listed { entry with limit } :=
  { hlisted with }

theorem listed_of_readEntries {shift : Int} {size fuel read : Nat} {bytes : Bytes}
    {entries : List Entry} (hread : readEntries shift size fuel read bytes = .ok entries) :
    ∀ entry ∈ entries, entry.Listed := by
  induction fuel generalizing read bytes entries with
  | zero =>
    cases hread
    simp
  | succ fuel ih =>
    rw [readEntries] at hread
    split at hread
    · cases hread
      simp
    obtain ⟨⟨entry, length⟩, hentry, hread⟩ := Result.bind_eq_ok.mp hread
    obtain ⟨rest, hrest, hread⟩ := Result.bind_eq_ok.mp hread
    cases hread
    exact List.forall_mem_cons.mpr ⟨Entry.listed_of_readEntry hentry, ih hrest⟩

theorem listed_setLimits (start : Int) (offsets before : List Int) {entries : List Entry}
    (hlisted : ∀ entry ∈ entries, entry.Listed) :
    ∀ entry ∈ setLimits start offsets before entries, entry.Listed := by
  induction entries generalizing before with
  | nil => simp [setLimits]
  | cons entry rest ih =>
    rw [List.forall_mem_cons] at hlisted
    exact List.forall_mem_cons.mpr ⟨hlisted.1.limited _, ih _ hlisted.2⟩

/-- Whatever a directory tells of its entries fits a directory again. -/
theorem listed_of_readDirectory {archive : Bytes} {entries : List Entry}
    (hread : readDirectory archive = .ok entries) : ∀ entry ∈ entries, entry.Listed := by
  obtain ⟨record, -, hread⟩ := Result.bind_eq_ok.mp hread
  obtain ⟨found, hfound, hread⟩ := Result.bind_eq_ok.mp hread
  cases hread
  exact listed_setLimits _ _ _ (listed_of_readEntries hfound)

/-! ### Members -/

namespace Member

/-- A member whose header and whose record can tell what there is to be told. -/
structure Fits (member : Member) : Prop where
  listed : member.entry.Listed
  supported : isSupported member.entry.method = true
  name : (Text.Utf8.encode member.entry.name).length ≤ lengthLimit
  headerExtra : member.headerExtra.length ≤ lengthLimit

variable {member : Member}

@[simp]
theorem listed_listedName (member : Member) (offset : Nat) :
    (member.listed offset).listedName = member.entry.name := by
  rw [listed]

@[simp]
theorem listed_flags (member : Member) (offset : Nat) :
    (member.listed offset).flags = nameFlags member.entry.name := by
  rw [listed]

@[simp]
theorem length_sharedFields (entry : Entry) (nameLength extraLength : Nat) :
    (sharedFields entry nameLength extraLength).length = 26 := by
  simp [sharedFields]

theorem length_localBytes (member : Member) :
    member.localBytes.length = headerSize + (Text.Utf8.encode member.entry.name).length +
      member.headerExtra.length + member.packed.length := by
  simp [localBytes, headerSignature, headerSize, listed]
  omega

/-- The length of a local extra field does not depend on what is packed. -/
theorem length_headerExtra (entry : Entry) (content : Bytes) :
    (headerExtra ⟨entry, content⟩).length = (headerExtra ⟨entry, []⟩).length := by
  unfold headerExtra
  dsimp only
  split <;> simp

theorem length_content_le (member : Member) : member.content.length ≤ member.packed.length := by
  unfold packed
  split
  · exact Compress.length_le_deflate _
  · exact Nat.le_refl _

theorem crc_lt (content : Bytes) : Crc32.ofBytes content < 256 ^ 4 :=
  UInt32.toNat_lt _

/-- Placed below the limit, a member can be told of by a record. -/
theorem Fits.recordable (hfits : member.Fits) {offset : Nat}
    (hbound : offset + member.localBytes.length ≤ narrowLimit) :
    (member.listed offset).Recordable := by
  have hlimit : narrowLimit < wideLimit := by decide
  have hlength := length_localBytes member
  have hcontent := length_content_le member
  have hlisted := hfits.listed
  have hname : (Text.Utf8.encode member.entry.name).length < 65536 := Nat.lt_succ_of_le hfits.name
  have hsize : member.content.length < wideLimit := by omega
  have hpackedSize : member.packed.length < wideLimit := by omega
  have hoffset : (offset : Int) < wideLimit := by omega
  have hmade : (if narrowLimit < member.entry.size then wideVersion else 0) < 256 := by
    split <;> decide
  have hneed : (if narrowLimit < member.entry.size then wideVersion else 0) ≤ newestVersion := by
    split <;> decide
  have hexternal : (if member.entry.externalAttributes = 0 then defaultAttributes
      else member.entry.externalAttributes) < 256 ^ 4 := by
    split
    · decide
    · exact hlisted.externalAttributes
  exact {
    made := Nat.max_lt.mpr ⟨hmade, hlisted.made⟩
    system := hlisted.system
    need := Nat.max_le.mpr ⟨hneed, hlisted.need⟩
    reserved := hlisted.reserved
    method := hlisted.method
    time := hlisted.time
    date := hlisted.date
    internalAttributes := hlisted.internalAttributes
    externalAttributes := hexternal
    extra := hlisted.extra
    comment := hlisted.comment
    readable := hlisted.readable
    size := hsize
    packedSize := hpackedSize
    offset := hoffset
    flags := by
      rw [listed_flags]
      exact nameFlags_lt _
    crc := crc_lt member.content
    placed := Int.natCast_nonneg offset
    name := hname
    decoded := by
      rw [listed_flags, listed_listedName]
      exact decodeName_encode _ }

theorem length_localBytes_pos (member : Member) : 0 < member.localBytes.length := by
  rw [length_localBytes, headerSize]
  omega

end Member

/-! ### The room of a member -/

/-- What a directory tells of members that were written from `offset` on. -/
def foundMembers : (offset : Nat) → List Member → List Entry
  | _, [] => []
  | offset, member :: rest =>
    let next := offset + member.localBytes.length
    { member.listed offset with limit := (next : Nat) } :: foundMembers next rest

theorem le_offset_listMembers (members : List Member) (offset : Nat) :
    ∀ found ∈ (listMembers offset members).map (·.offset), (offset : Int) ≤ found := by
  induction members generalizing offset with
  | nil => simp [listMembers]
  | cons member rest ih =>
    refine List.forall_mem_cons.mpr ⟨Int.le_refl _, fun found hfound => ?_⟩
    have hnext := ih (offset + member.localBytes.length) found hfound
    omega

/-- Between members in a row, the next offset is where the next member begins. -/
theorem nextOffset_listMembers (member : Member) (rest : List Member) (offset : Nat)
    {earlier : List Int} (hearlier : ∀ found ∈ earlier, found < offset) :
    nextOffset offset ((offset + ((member :: rest).flatMap Member.localBytes).length : Nat) : Int)
      (earlier ++ (listMembers offset (member :: rest)).map (·.offset)) =
        ((offset + member.localBytes.length : Nat) : Int) := by
  have hpositive := member.length_localBytes_pos
  have hfront : earlier.filter (fun found => (offset : Int) < found) = [] := by
    simpa using fun found hfound => Int.le_of_lt (hearlier found hfound)
  have hback : ((listMembers (offset + member.localBytes.length) rest).map (·.offset)).filter
      (fun found => (offset : Int) < found) =
        (listMembers (offset + member.localBytes.length) rest).map (·.offset) := by
    rw [List.filter_eq_self]
    intro found hfound
    have hle := le_offset_listMembers rest _ found hfound
    simp only [decide_eq_true_eq]
    omega
  have hself : ¬((offset : Int) < (member.listed offset).offset) := Int.lt_irrefl _
  rw [nextOffset, listMembers, List.map_cons, List.filter_append, hfront, List.nil_append,
    List.filter_cons_of_neg (by simpa using hself), hback]
  cases rest with
  | nil => simp [listMembers]
  | cons next others =>
    have hleast : ((listMembers (offset + member.localBytes.length) (next :: others)).map
        (·.offset)).min? = some ((offset + member.localBytes.length : Nat) : Int) := by
      rw [List.min?_eq_some_iff]
      exact ⟨List.mem_cons_self, le_offset_listMembers _ _⟩
    rw [hleast]

/-- Every member has the room up to the next one. -/
theorem setLimits_listMembers (members : List Member) (offset : Nat) {earlier before : List Int}
    (hearlier : ∀ found ∈ earlier, found < offset) (hbefore : ∀ found ∈ before, found < offset) :
    setLimits ((offset + (members.flatMap Member.localBytes).length : Nat) : Int)
      (earlier ++ (listMembers offset members).map (·.offset)) before
      ((listMembers offset members).map fun entry => { entry with limit := 0 }) =
        foundMembers offset members := by
  induction members generalizing offset earlier before with
  | nil => rfl
  | cons member rest ih =>
    have hpositive := member.length_localBytes_pos
    have hnew : before.contains (offset : Int) = false := by
      rw [List.contains_eq_mem, decide_eq_false_iff_not]
      exact fun hmem => Int.lt_irrefl _ (hbefore _ hmem)
    have hnext := nextOffset_listMembers member rest offset hearlier
    have hlater : ∀ found ∈ earlier ++ [(offset : Int)],
        found < ((offset + member.localBytes.length : Nat) : Int) := by
      intro found hfound
      rcases List.mem_append.mp hfound with hfound | hfound
      · have := hearlier found hfound
        omega
      · rw [List.mem_singleton.mp hfound]
        omega
    have hpassed : ∀ found ∈ (offset : Int) :: before,
        found < ((offset + member.localBytes.length : Nat) : Int) := by
      rw [List.forall_mem_cons]
      refine ⟨by omega, fun found hfound => ?_⟩
      have := hbefore found hfound
      omega
    have hrest := ih (offset + member.localBytes.length) hlater hpassed
    have hoffset : (member.listed offset).offset = offset := rfl
    rw [List.append_assoc, Nat.add_assoc, ← List.length_append, ← List.flatMap_cons] at hrest
    rw [listMembers, List.map_cons, hoffset] at hnext ⊢
    rw [List.map_cons, setLimits, foundMembers]
    simp only [hoffset, hnew, Bool.false_eq_true, if_false, hnext]
    exact congrArg _ hrest

/-! ### Reading the directory -/

/-- Records in a row are read as the entries that they were written of. -/
theorem readEntries_records {entries : List Entry} (hrecords : ∀ entry ∈ entries, entry.Recordable)
    {size fuel read : Nat} (hsize : size = read + (entries.flatMap Entry.directoryBytes).length)
    (hfuel : (entries.flatMap Entry.directoryBytes).length < fuel) :
    readEntries 0 size fuel read (entries.flatMap Entry.directoryBytes) =
      .ok (entries.map fun entry => { entry with limit := 0 }) := by
  induction entries generalizing fuel read with
  | nil =>
    obtain ⟨fuel, rfl⟩ : ∃ left, fuel = left + 1 := ⟨fuel - 1, by omega⟩
    rw [readEntries, if_pos (by simp [hsize])]
    rfl
  | cons entry rest ih =>
    obtain ⟨fuel, rfl⟩ : ∃ left, fuel = left + 1 := ⟨fuel - 1, by omega⟩
    rw [List.forall_mem_cons] at hrecords
    have hpositive : 0 < entry.directoryBytes.length := by
      rw [Entry.directoryBytes_eq, List.length_append, Entry.length_head, directorySize]
      omega
    rw [List.flatMap_cons, List.length_append] at hsize hfuel
    have hrest : readEntries 0 size fuel (read + entry.directoryBytes.length)
        (rest.flatMap Entry.directoryBytes) = .ok (rest.map fun entry => { entry with limit := 0 }) :=
      ih hrecords.2 (by omega) (by omega)
    rw [readEntries, if_neg (by omega), List.flatMap_cons]
    refine Result.bind_eq_ok.mpr ⟨_, hrecords.1.readEntry 0 _, ?_⟩
    dsimp only
    rw [List.drop_left]
    refine Result.bind_eq_ok.mpr ⟨_, hrest, ?_⟩
    rw [Int.add_zero]
    rfl

/-- An archive whose offsets and lengths four bytes can tell, and in front of whose end record nothing
looks like a record of wide ones. -/
structure IsNarrow (archive : Bytes) : Prop where
  length : archive.length ≤ Member.narrowLimit
  unannounced : wideEnd? archive (archive.length - endSize) = .ok none

theorem length_endSignature : endSignature.length = 4 := by
  simp [endSignature]

theorem length_endBytes (count size offset : Nat) :
    (endBytes count size offset).length = endSize := by
  simp [endBytes, endSignature, endSize]

/-- The end record says where the directory in front of it is. -/
theorem readEnd_endBytes {front : Bytes} {count size offset : Nat}
    (hfront : front.length = offset + size)
    (hnarrow : IsNarrow (front ++ endBytes count size offset)) :
    readEnd (front ++ endBytes count size offset) = .ok ⟨offset, size, 0⟩ := by
  have hlimit : Member.narrowLimit < 256 ^ 4 := by decide
  have hlength : (front ++ endBytes count size offset).length = front.length + endSize := by
    rw [List.length_append, length_endBytes]
  have hbound := hlength ▸ hnarrow.length
  have htail : (front ++ endBytes count size offset).drop front.length =
      endBytes count size offset := List.drop_left
  have hplace : endPlace? (front ++ endBytes count size offset)
      (front ++ endBytes count size offset).length = some front.length := by
    rw [endPlace?, hlength, if_neg (by omega), Nat.add_sub_cancel, htail]
    rfl
  have hwide : wideEnd? (front ++ endBytes count size offset) front.length = .ok none := by
    have hunannounced := hnarrow.unannounced
    rwa [hlength, Nat.add_sub_cancel] at hunannounced
  have hrecord : field (front ++ endBytes count size offset) front.length endSize =
      endBytes count size offset := by
    rw [field, htail, ← length_endBytes count size offset, List.take_length]
  have hsize : number (endBytes count size offset) 12 4 = size := by
    simp [endBytes, number_append_right, number_ofLittleEndian_append, length_endSignature,
      show size < 4294967296 by omega]
  have hoffset : number (endBytes count size offset) 16 4 = offset := by
    simp [endBytes, number_append_right, number_ofLittleEndian_append, length_endSignature,
      show offset < 4294967296 by omega]
  rw [readEnd]
  simp only [hplace, hwide, hrecord, hsize, hoffset]
  have hshift : ((front.length : Int) - size - offset - (0 : Nat)) = 0 := by omega
  simp only [hshift, pure_bind]
  refine Result.bind_eq_ok.mpr ⟨none, rfl, ?_⟩
  dsimp only
  rw [if_neg (by omega), Int.add_zero]
  rfl

theorem recordable_listMembers {members : List Member} (hfits : ∀ member ∈ members, member.Fits)
    {offset : Nat}
    (hbound : offset + (members.flatMap Member.localBytes).length ≤ Member.narrowLimit) :
    ∀ entry ∈ listMembers offset members, entry.Recordable := by
  induction members generalizing offset with
  | nil => simp [listMembers]
  | cons member rest ih =>
    rw [List.forall_mem_cons] at hfits
    rw [List.flatMap_cons, List.length_append] at hbound
    refine List.forall_mem_cons.mpr ⟨hfits.1.recordable (by omega), ih hfits.2 ?_⟩
    omega

theorem write_eq (members : List Member) :
    write members = members.flatMap Member.localBytes ++
      (listMembers 0 members).flatMap Entry.directoryBytes ++
      endBytes (listMembers 0 members).length
        ((listMembers 0 members).flatMap Entry.directoryBytes).length
        (members.flatMap Member.localBytes).length :=
  rfl

/-- **Directories.** The directory of an archive that was written tells of its members. -/
theorem readDirectory_write {members : List Member} (hfits : ∀ member ∈ members, member.Fits)
    (hnarrow : IsNarrow (write members)) :
    readDirectory (write members) = .ok (foundMembers 0 members) := by
  have hlength := hnarrow.length
  rw [write_eq] at hnarrow hlength ⊢
  rw [List.length_append, List.length_append] at hlength
  have hrecords : ∀ entry ∈ listMembers 0 members, entry.Recordable :=
    recordable_listMembers hfits (by omega)
  have hlimits := @setLimits_listMembers members 0 [] [] (by simp) (by simp)
  rw [readDirectory]
  refine Result.bind_eq_ok.mpr ⟨_, readEnd_endBytes List.length_append hnarrow, ?_⟩
  dsimp only
  rw [Int.toNat_natCast, List.append_assoc, List.drop_left, List.take_left]
  refine Result.bind_eq_ok.mpr ⟨_, readEntries_records hrecords (by simp) (by omega), ?_⟩
  rw [List.map_map]
  rw [Nat.zero_add] at hlimits
  exact congrArg Except.ok hlimits

end JarRefinery.Archive
