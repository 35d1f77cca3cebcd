import JarRefinery.Proofs.Stripping

/-!
# Stripping what was stripped

An archive that was stripped is left as it is when it is stripped again: versions, flags, attributes
and sizes that were written once are what would be written of them. Only the room for wide sizes in a
local header follows the size that an entry announced before, and not the one it was found to have.
-/

namespace JarRefinery.Archive

/-! ### Members that are written alike -/

/-- The two members are written as the same bytes, wherever they are placed. -/
structure Member.Alike (member other : Member) : Prop where
  localBytes : member.localBytes = other.localBytes
  directoryBytes : ∀ offset,
    (member.listed offset).directoryBytes = (other.listed offset).directoryBytes

theorem listMembers_alike {members others : List Member}
    (halike : List.Forall₂ Member.Alike members others) (offset : Nat) :
    (listMembers offset members).flatMap Entry.directoryBytes =
        (listMembers offset others).flatMap Entry.directoryBytes ∧
      (listMembers offset members).length = (listMembers offset others).length := by
  induction halike generalizing offset with
  | nil => exact ⟨rfl, rfl⟩
  | cons hfirst _ ih =>
    obtain ⟨hbytes, hlength⟩ := ih (offset + List.length (Member.localBytes _))
    rw [listMembers, listMembers, List.flatMap_cons, List.flatMap_cons, List.length_cons,
      List.length_cons, hfirst.directoryBytes, ← hfirst.localBytes, hbytes, hlength]
    exact ⟨rfl, rfl⟩

/-- Members that are written alike make the same archive. -/
theorem write_alike {members others : List Member}
    (halike : List.Forall₂ Member.Alike members others) : write members = write others := by
  obtain ⟨hdirectory, hcount⟩ := listMembers_alike halike 0
  have hdata : members.flatMap Member.localBytes = others.flatMap Member.localBytes := by
    clear hdirectory hcount
    induction halike with
    | nil => rfl
    | cons hfirst _ ih => rw [List.flatMap_cons, List.flatMap_cons, hfirst.localBytes, ih]
  rw [write_eq, write_eq, hdirectory, hcount, hdata]

/-! ### Members that are read again -/

theorem Entry.directoryBytes_limited (entry : Entry) (limit : Int) :
    Entry.directoryBytes { entry with limit } = entry.directoryBytes :=
  rfl

namespace Member

theorem sharedFields_limited (entry : Entry) (limit : Int) (nameLength extraLength : Nat) :
    sharedFields { entry with limit } nameLength extraLength =
      sharedFields entry nameLength extraLength :=
  rfl

theorem packed_listed (member : Member) (offset : Nat) (limit : Int) :
    packed ⟨{ member.listed offset with limit }, member.content⟩ = member.packed :=
  rfl

variable {member : Member} {copy : Entry × Bytes}

/-- The room for wide sizes in the local header is there just if the contents need it. -/
def IsSettled (member : Member) : Prop :=
  wideHeaderSize ≤ member.entry.size ↔ wideHeaderSize ≤ member.content.length

/-- What is listed of a short member is listed of it again. -/
theorem listed_listed (member : Member) (offset next : Nat) (limit : Int)
    (hshort : member.content.length ≤ narrowLimit) :
    Member.listed ⟨{ member.listed offset with limit }, member.content⟩ next =
      { member.listed next with limit } := by
  have hname : Entry.name { member.listed offset with limit } = member.entry.name :=
    cutName_cutName _
  have hdefault : defaultAttributes ≠ 0 := by decide
  rw [listed, hname, packed_listed]
  simp only [listed, Nat.not_lt.mpr hshort, if_false, Nat.zero_max]
  by_cases hnone : member.entry.externalAttributes = 0 <;>
    simp only [hnone, hdefault, if_true, if_false]

theorem Gives.headerExtra (hgives : Gives member copy) (hsettled : member.IsSettled) :
    Member.headerExtra ⟨copy.1, copy.2⟩ = member.headerExtra := by
  obtain ⟨offset, limit, rfl⟩ := hgives
  have hwide : (wideHeaderSize ≤ member.content.length) = (wideHeaderSize ≤ member.entry.size) :=
    propext hsettled.symm
  simp only [Member.headerExtra, listed, hwide]
  rfl

theorem Gives.alike (hgives : Gives member copy) (hsettled : member.IsSettled)
    (hshort : member.content.length ≤ narrowLimit) : Alike ⟨copy.1, copy.2⟩ member := by
  have hextra := Gives.headerExtra hgives hsettled
  obtain ⟨offset, limit, rfl⟩ := hgives
  constructor
  · simp only [localBytes, listed_listed member offset 0 limit hshort, hextra, packed_listed,
      sharedFields_limited]
  · intro next
    rw [listed_listed member offset next limit hshort, Entry.directoryBytes_limited]

/-- Nothing that is written into an archive is longer than that. -/
theorem length_content_le_write {members : List Member} (hmem : member ∈ members) :
    member.content.length ≤ (write members).length := by
  have hlocal : member.localBytes.length ≤ (members.flatMap localBytes).length := by
    obtain ⟨front, back, rfl⟩ := List.append_of_mem hmem
    rw [List.flatMap_append, List.flatMap_cons, List.length_append, List.length_append]
    omega
  have hpacked := length_content_le member
  have hlength := length_localBytes member
  rw [write_eq, List.length_append, List.length_append]
  omega

end Member

/-- Contents are cut to the size that the directory lists. -/
theorem length_le_of_unpack {window : Nat} {available content : Bytes} {entry : Entry}
    (hunpack : unpack window entry available = .ok content) : content.length ≤ entry.size := by
  have hcut : ∀ bytes : Bytes, (bytes.take entry.size).length ≤ entry.size := by simp
  unfold unpack at hunpack
  dsimp only at hunpack
  split at hunpack
  · split at hunpack
    · cases hunpack
    · cases hunpack
      exact hcut _
  split at hunpack
  · cases hunpack
    exact hcut _
  · split at hunpack
    · cases hunpack
    · cases hunpack
      exact hcut _
  · split at hunpack
    · cases hunpack
    · cases hunpack
      exact hcut _

theorem length_le_of_readContent {window : Nat} {archive content : Bytes} {entry : Entry}
    (hread : readContent window archive entry = .ok content) : content.length ≤ entry.size := by
  obtain ⟨available, -, hread⟩ := Result.bind_eq_ok.mp hread
  obtain ⟨data, hunpack, hread⟩ := Result.bind_eq_ok.mp hread
  obtain ⟨-, hdata⟩ := Result.of_guard_eq_ok hread
  cases hdata
  exact length_le_of_unpack hunpack

end JarRefinery.Archive

namespace JarRefinery.Strip

open Archive (Entry Member)

variable {archive : Bytes} {entry : Entry} {member : Member}

/-! ### What was written of an entry -/

/-- A member as stripping writes it: it has a name that is not reserved, and if it is a directory it
has no contents. -/
structure Written (member : Member) : Prop where
  fits : member.Fits
  named : member.entry.name ≠ ""
  free : isReserved member.entry.name = false
  directory : member.entry.isDirectory = true → member.content = []

/-- The header of an entry is as wide for its announced size as for the contents that it has. -/
def Steady (archive : Bytes) (entry : Entry) : Prop :=
  entry.isDirectory = false → Member.wideHeaderSize ≤ entry.size →
    ∀ content, Archive.readContent window archive entry = .ok content →
      Member.wideHeaderSize ≤ content.length

theorem of_checkHeader_ok (hheader : Member.checkHeader entry = .ok ()) :
    (Text.Utf8.encode entry.name).length ≤ Member.lengthLimit ∧
      ∀ content, (Member.headerExtra ⟨entry, content⟩).length ≤ Member.lengthLimit := by
  unfold Member.checkHeader at hheader
  split at hheader
  · cases hheader
  rename_i hnot
  obtain ⟨hname, hextra⟩ := not_or.mp hnot
  refine ⟨Nat.not_lt.mp hname, fun content => ?_⟩
  rw [Member.length_headerExtra]
  exact Nat.not_lt.mp hextra

/-- What is written of an entry is settled unless the entry announced a size that it does not have. -/
theorem of_member_ok (hlisted : entry.Listed) (hfree : isReserved entry.name = false)
    (hmember : Strip.member archive entry = .ok member) :
    Written member ∧ (Steady archive entry → member.IsSettled) := by
  unfold Strip.member at hmember
  obtain ⟨hnamed, hmember⟩ := Result.of_guard_eq_ok hmember
  have hname : entry.name ≠ "" := by simpa using hnamed
  split at hmember
  · obtain ⟨hsupported, hmember⟩ := Result.of_guard_eq_ok hmember
    obtain ⟨⟨⟩, hheader, hmember⟩ := Result.bind_eq_ok.mp hmember
    obtain ⟨hlength, hextra⟩ := of_checkHeader_ok hheader
    cases hmember
    refine ⟨⟨⟨{ hlisted with }, by simpa using hsupported, hlength, hextra _⟩, hname, hfree,
      fun _ => rfl⟩, fun _ => ?_⟩
    simp [Member.IsSettled]
  · rename_i hfile
    obtain ⟨data, hopen, hmember⟩ := Result.bind_eq_ok.mp hmember
    obtain ⟨⟨⟩, hheader, hmember⟩ := Result.bind_eq_ok.mp hmember
    obtain ⟨content, hcontent, hmember⟩ := Result.bind_eq_ok.mp hmember
    obtain ⟨hlength, hextra⟩ := of_checkHeader_ok hheader
    cases hmember
    have hle := Archive.length_le_of_readContent hcontent
    refine ⟨⟨⟨hlisted, isSupported_of_openEntry hopen, hlength, hextra _⟩, hname, hfree,
      fun hdirectory => absurd hdirectory hfile⟩, fun hsteady => ⟨fun hwide => ?_, fun hwide => ?_⟩⟩
    · exact hsteady (by simpa using hfile) hwide content hcontent
    · exact Nat.le_trans hwide hle

theorem of_stripBytes_ok {stripped : Stripped} (hstripped : stripBytes archive = .ok stripped) :
    ∃ entries members, Archive.readDirectory archive = .ok entries ∧
      List.Forall₂ (fun entry member => Strip.member archive entry = .ok member)
        (entries.filter fun entry => !isReserved entry.name) members ∧
      stripped.archive = Archive.write members ∧ stripped.kept = members.length := by
  obtain ⟨entries, hdirectory, hrest⟩ := Result.bind_eq_ok.mp hstripped
  obtain ⟨members, hmembers, hrest⟩ := Result.bind_eq_ok.mp hrest
  rw [Result.mapM_eq_ok] at hmembers
  cases hrest
  exact ⟨entries, members, hdirectory, hmembers, rfl, hmembers.length_eq⟩

/-! ### What is written of it again -/

variable {copy : Entry × Bytes} {members : List Member}

theorem name_of_gives (hgives : Archive.Gives member copy) : copy.1.name = member.entry.name := by
  obtain ⟨offset, limit, rfl⟩ := hgives
  exact Archive.cutName_cutName _

theorem Written.rewritten (hwritten : Written member) (hgives : Archive.Gives member copy) :
    rewritten copy = ⟨copy.1, copy.2⟩ := by
  have hdirectory : copy.1.isDirectory = member.entry.isDirectory := by
    rw [Entry.isDirectory, name_of_gives hgives]
    rfl
  unfold Strip.rewritten
  split
  · rename_i hcopy
    have hnone := hwritten.directory (hdirectory ▸ hcopy)
    obtain ⟨offset, limit, rfl⟩ := hgives
    simp [hnone, Member.listed]
  · rfl

theorem Written.portable (hwritten : Written member) (hsettled : member.IsSettled)
    (hgives : Archive.Gives member copy) : Portable copy.1 := by
  have hname := name_of_gives hgives
  refine ⟨hname ▸ hwritten.named, hname ▸ hwritten.fits.name, fun _ => ?_⟩
  rw [← Member.length_headerExtra copy.1 copy.2, Member.Gives.headerExtra hgives hsettled]
  exact hwritten.fits.headerExtra

/-- Stripping an archive of settled members changes nothing. -/
theorem stripBytes_write (hwritten : ∀ member ∈ members, Written member)
    (hsettled : ∀ member ∈ members, member.IsSettled)
    (hnarrow : Archive.IsNarrow (Archive.write members)) :
    stripBytes (Archive.write members) = .ok ⟨Archive.write members, members.length, 0⟩ := by
  obtain ⟨copies, hread, hgives⟩ :=
    Archive.readAll_write (fun member hmem => (hwritten member hmem).fits) hnarrow window
  have hshort : ∀ member ∈ members, member.content.length ≤ Member.narrowLimit :=
    fun member hmem => Nat.le_trans (Member.length_content_le_write hmem) hnarrow.length
  clear hnarrow
  have hall : (∀ copy ∈ copies, isReserved copy.1.name = false ∧ Portable copy.1) ∧
      List.Forall₂ Member.Alike (copies.map rewritten) members := by
    clear hread
    induction hgives with
    | nil => simp
    | cons hfirst _ ih =>
      rw [List.forall_mem_cons] at hwritten hsettled hshort
      obtain ⟨hcopies, halike⟩ := ih hwritten.2 hsettled.2 hshort.2
      refine ⟨List.forall_mem_cons.mpr ⟨⟨?_, ?_⟩, hcopies⟩, .cons ?_ halike⟩
      · rw [name_of_gives hfirst]
        exact hwritten.1.free
      · exact hwritten.1.portable hsettled.1 hfirst
      · rw [hwritten.1.rewritten hfirst]
        exact Member.Gives.alike hfirst hsettled.1 hshort.1
  obtain ⟨hcopies, halike⟩ := hall
  have hkept : copies.filter isKept = copies := by
    rw [List.filter_eq_self]
    exact fun copy hmem => by rw [isKept, (hcopies copy hmem).1]; rfl
  have hnone : (copies.countP fun copy => isReserved copy.1.name) = 0 := by
    rw [List.countP_eq_zero]
    exact fun copy hmem => by simp [(hcopies copy hmem).1]
  rw [stripBytes_eq_ok hread fun copy hmem => (hcopies copy (List.mem_of_mem_filter hmem)).2, hkept,
    hnone, Archive.write_alike halike, ← hgives.length_eq]

/-- Stripping a stripped archive changes nothing. -/
theorem stripBytes_stripped {stripped : Stripped} (hstripped : stripBytes archive = .ok stripped)
    (hsteady : ∀ entries, Archive.readDirectory archive = .ok entries →
      ∀ entry ∈ entries, isReserved entry.name = false → Steady archive entry)
    (hnarrow : Archive.IsNarrow stripped.archive) :
    stripBytes stripped.archive = .ok ⟨stripped.archive, stripped.kept, 0⟩ := by
  obtain ⟨entries, members, hdirectory, hmembers, harchive, hkept⟩ := of_stripBytes_ok hstripped
  have hlisted := Archive.listed_of_readDirectory hdirectory
  have hall : ∀ member ∈ members, Written member ∧ member.IsSettled := by
    intro member hmem
    obtain ⟨entry, hentry, hmember⟩ := Result.exists_item hmembers hmem
    obtain ⟨hin, hfree⟩ := List.mem_filter.mp hentry
    have hfree : isReserved entry.name = false := by simpa using hfree
    obtain ⟨hwritten, hsettled⟩ := of_member_ok (hlisted entry hin) hfree hmember
    exact ⟨hwritten, hsettled (hsteady entries hdirectory entry hin hfree)⟩
  rw [harchive] at hnarrow ⊢
  rw [hkept]
  exact stripBytes_write (fun member hmem => (hall member hmem).1)
    (fun member hmem => (hall member hmem).2) hnarrow

/-! ### Files -/

variable {host : Host} {source first second : Path} {world between : World} {kept dropped : Nat}

/-- A file of one byte that announces so many that its header gets wide. -/
def announcingMember : Member :=
  let plain := smallMember "b"
  { plain with entry := { plain.entry with size := Member.wideHeaderSize } }

/-- An archive that lists the size which its file announces. -/
def announcingArchive : Bytes :=
  let record := Entry.directoryBytes
    { announcingMember.listed 0 with size := Member.wideHeaderSize }
  announcingMember.localBytes ++ record ++
    Archive.endBytes 1 record.length announcingMember.localBytes.length

/-- An archive of two files, the first of them with a comment that looks like a record of wide
offsets once the second one is dropped. -/
def imitatingArchive : Bytes :=
  let comment := Archive.wideEndSignature ++ List.replicate 52 0 ++ Archive.wideLocatorSignature ++
    List.replicate 16 0
  let imitating := smallMember "b"
  Archive.write [{ imitating with entry := { imitating.entry with comment } },
    smallMember "META-INF/a"]

end JarRefinery.Strip
