import JarRefinery.Proofs.Archive.Directory

/-!
# Contents

The entry that an archive lists for a member has the contents of the member, at whatever place of
the archive they were written.
-/

namespace JarRefinery.Archive

open Bytes

namespace Member

variable {member : Member} {front back : Bytes}

/-- The part of a local header that has the same length for all members. -/
def head (member : Member) : Bytes :=
  headerSignature ++ sharedFields (member.listed 0)
    (Text.Utf8.encode member.entry.name).length member.headerExtra.length

theorem length_head (member : Member) : member.head.length = headerSize := by
  simp [head, headerSignature, headerSize]

theorem localBytes_eq (member : Member) :
    member.localBytes = member.head ++ (Text.Utf8.encode member.entry.name ++
      (member.headerExtra ++ member.packed)) := by
  simp only [localBytes, head, listed_listedName, List.append_assoc]

theorem length_headerSignature : headerSignature.length = 4 := by
  simp [headerSignature]

theorem Fits.number_head (hfits : member.Fits) :
    number member.head 6 2 = nameFlags member.entry.name ∧
      number member.head 26 2 = (Text.Utf8.encode member.entry.name).length ∧
      number member.head 28 2 = member.headerExtra.length := by
  have hflags : nameFlags member.entry.name < 65536 := nameFlags_lt _
  have hname : (Text.Utf8.encode member.entry.name).length < 65536 := Nat.lt_succ_of_le hfits.name
  have hextra : member.headerExtra.length < 65536 := Nat.lt_succ_of_le hfits.headerExtra
  simp [head, sharedFields, number_append_right, number_ofLittleEndian_append, number_ofLittleEndian,
    length_headerSignature, hflags, hname, hextra]

/-- Where a member was written, its data follow the local header. -/
theorem Fits.openEntry (hfits : member.Fits) (front back : Bytes) :
    openEntry (front ++ (member.localBytes ++ back))
      { member.listed front.length with
        limit := ((front.length + member.localBytes.length : Nat) : Int) } =
      .ok (member.packed ++ back) := by
  obtain ⟨hflags, hname, hextra⟩ := hfits.number_head
  have hheader : (member.localBytes ++ back).take headerSize = member.head := by
    rw [localBytes_eq, List.append_assoc, List.take_left' (length_head member)]
  have hrest : (member.localBytes ++ back).drop headerSize = Text.Utf8.encode member.entry.name ++
      (member.headerExtra ++ (member.packed ++ back)) := by
    rw [localBytes_eq, List.append_assoc, List.drop_left' (length_head member)]
    simp only [List.append_assoc]
  have hdata : (member.localBytes ++ back).drop (headerSize +
      (Text.Utf8.encode member.entry.name).length + member.headerExtra.length) =
        member.packed ++ back := by
    rw [Nat.add_assoc, ← List.drop_drop, hrest, ← List.drop_drop, List.drop_left, List.drop_left]
  have hsignature : headerSignature.isPrefixOf member.head = true := rfl
  have hoffset : ¬(member.listed front.length).offset < 0 := by
    change ¬(front.length : Int) < 0
    omega
  have hdrop : (front ++ (member.localBytes ++ back)).drop
      (member.listed front.length).offset.toNat = member.localBytes ++ back := List.drop_left
  have hroom : ¬((front.length + member.localBytes.length : Nat) : Int) <
      (member.listed front.length).offset +
        ((headerSize + (Text.Utf8.encode member.entry.name).length + member.headerExtra.length :
          Nat) : Int) + ((member.listed front.length).packedSize : Int) := by
    have hlength := length_localBytes member
    change ¬_ < (front.length : Int) + _ + (member.packed.length : Int)
    omega
  have hsupported : isSupported (member.listed front.length).method = true := hfits.supported
  unfold Archive.openEntry
  simp only [hoffset, if_false, hdrop, hheader, hrest, length_head, hsignature, hflags, hname, hextra,
    List.take_left, List.drop_left, Nat.lt_irrefl, Bool.not_true, Bool.false_eq_true,
    listed_flags, listed_listedName, decodeName_encode, hasFlag_nameFlags _ 0x20 rfl rfl,
    hasFlag_nameFlags _ 0x40 rfl rfl, hasFlag_nameFlags _ 1 rfl rfl]
  rw [if_neg (by simp), if_neg hroom, hsupported, hdata]
  rfl

/-- What was packed is unpacked. -/
theorem unpack_packed (hsupported : isSupported member.entry.method = true) (window offset : Nat)
    (limit : Int) :
    unpack window { member.listed offset with limit } (member.packed ++ back) =
      .ok member.content := by
  have hpackedSize : (member.listed offset).packedSize = member.packed.length := rfl
  have hsize : (member.listed offset).size = member.content.length := rfl
  have hmethod : (member.listed offset).method = member.entry.method := rfl
  unfold unpack
  simp only [hpackedSize, hsize, hmethod, List.take_left, Nat.lt_irrefl, false_and, if_false]
  have hmethods : member.entry.method = storedMethod ∨ member.entry.method = deflatedMethod := by
    simpa [isSupported] using hsupported
  rcases hmethods with hstored | hdeflated
  · have hpacked : member.packed = member.content := by
      rw [packed, hstored, if_neg (by decide)]
    rw [if_pos hstored, hpacked, List.take_length]
  · have hpacked : member.packed = Compress.deflate member.content := by
      rw [packed, if_pos hdeflated]
    rw [if_neg (by rw [hdeflated]; decide), hpacked, Compress.inflate_deflate]
    simp

/-- Where a member was written, its contents are read. -/
theorem Fits.readContent (hfits : member.Fits) (window : Nat) (front back : Bytes) :
    readContent window (front ++ (member.localBytes ++ back))
      { member.listed front.length with
        limit := ((front.length + member.localBytes.length : Nat) : Int) } =
      .ok member.content := by
  refine Result.bind_eq_ok.mpr ⟨_, hfits.openEntry front back, ?_⟩
  refine Result.bind_eq_ok.mpr ⟨_, unpack_packed hfits.supported window _ _, ?_⟩
  have hcrc : (member.listed front.length).crc = Crc32.ofBytes member.content := rfl
  simp only [hcrc, ne_eq, not_true_eq_false, if_false]
  rfl

end Member

/-- All that is read of an archive are the entries of its directory, each with its contents. -/
theorem of_readAll_ok {window : Nat} {archive : Bytes} {sources : List (Entry × Bytes)}
    (hread : readAll window archive = .ok sources) :
    readDirectory archive = .ok (sources.map (·.1)) ∧
      ∀ source ∈ sources, source.1.Listed ∧
        readContent window archive source.1 = .ok source.2 := by
  obtain ⟨entries, hdirectory, hcontents⟩ := Result.bind_eq_ok.mp hread
  have hlisted := listed_of_readDirectory hdirectory
  rw [Result.mapM_eq_ok] at hcontents
  suffices hall : entries = sources.map (·.1) ∧ ∀ source ∈ sources, source.1.Listed ∧
      readContent window archive source.1 = .ok source.2 from ⟨hall.1 ▸ hdirectory, hall.2⟩
  clear hread hdirectory
  induction hcontents with
  | nil => simp
  | cons hsource _ ih =>
    rw [List.forall_mem_cons] at hlisted
    obtain ⟨content, hcontent, hpair⟩ := Result.bind_eq_ok.mp hsource
    cases hpair
    obtain ⟨hentries, hall⟩ := ih hlisted.2
    exact ⟨congrArg _ hentries, List.forall_mem_cons.mpr ⟨⟨hlisted.1, hcontent⟩, hall⟩⟩

/-- What an archive gives for a member: its entry, wherever it was placed, and its contents. -/
def Gives (member : Member) (copy : Entry × Bytes) : Prop :=
  ∃ offset limit, copy = ({ member.listed offset with limit }, member.content)

/-- Members in a row are read with their contents. -/
theorem readContents_members {members : List Member} (hfits : ∀ member ∈ members, member.Fits)
    (window : Nat) (front back : Bytes) :
    ∃ copies, (foundMembers front.length members).mapM (fun entry => do
        let content ← readContent window (front ++ (members.flatMap Member.localBytes ++ back)) entry
        pure (entry, content)) = .ok copies ∧ List.Forall₂ Gives members copies := by
  induction members generalizing front with
  | nil => exact ⟨[], rfl, .nil⟩
  | cons member rest ih =>
    rw [List.forall_mem_cons] at hfits
    obtain ⟨copies, hread, hgives⟩ := ih hfits.2 (front ++ member.localBytes)
    have hcontent := hfits.1.readContent window front (rest.flatMap Member.localBytes ++ back)
    rw [List.length_append, List.append_assoc, Result.mapM_eq_ok] at hread
    refine ⟨({ member.listed front.length with
      limit := ((front.length + member.localBytes.length : Nat) : Int) }, member.content) :: copies,
      ?_, .cons ⟨_, _, rfl⟩ hgives⟩
    rw [Result.mapM_eq_ok, List.flatMap_cons, List.append_assoc]
    exact .cons (Result.bind_eq_ok.mpr ⟨_, hcontent, rfl⟩) hread

/-- **Archives.** What is written of members is read as these members, in their order. -/
theorem readAll_write {members : List Member} (hfits : ∀ member ∈ members, member.Fits)
    (hnarrow : IsNarrow (write members)) (window : Nat) :
    ∃ copies, readAll window (write members) = .ok copies ∧ List.Forall₂ Gives members copies := by
  obtain ⟨copies, hread, hgives⟩ := readContents_members hfits window []
    ((listMembers 0 members).flatMap Entry.directoryBytes ++
      endBytes (listMembers 0 members).length
        ((listMembers 0 members).flatMap Entry.directoryBytes).length
        (members.flatMap Member.localBytes).length)
  refine ⟨copies, Result.bind_eq_ok.mpr ⟨_, readDirectory_write hfits hnarrow, ?_⟩, hgives⟩
  rw [write_eq, List.append_assoc]
  exact hread

end JarRefinery.Archive
