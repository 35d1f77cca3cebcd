import JarRefinery.Proofs.Files.Receiving
import JarRefinery.Proofs.Stripping

/-!
# Flawed archives

Stripping answers for a flaw of the archive that it reads, except for a few that come from parts which
fail in ways of their own: the text of names, the header that is written, the stream of deflated data.
-/

namespace JarRefinery

open Result (Fails)

namespace Archive

/-- The flaws that no handler for archives knows. -/
inductive Flaw.Escapes : Flaw → Prop
  | undecodableName (error : Text.DecodeError) : Escapes (.undecodableName error)
  | emptyName : Escapes .emptyName
  | longField : Escapes .longField
  | corruptStream : Escapes .corruptStream
  | cutShort : Escapes .cutShort

theorem Flaw.escapes_iff (flaw : Flaw) :
    flaw.Escapes ↔ Strip.isStripFault (.archive flaw) = false := by
  constructor
  · rintro (_ | _) <;> rfl
  · intro hunknown
    cases flaw with
    | undecodableName error => exact .undecodableName error
    | emptyName => exact .emptyName
    | longField => exact .longField
    | corruptStream => exact .corruptStream
    | cutShort => exact .cutShort
    | _ => cases (show true = false from hunknown)

/-- A flaw that a handler knows does not escape. -/
theorem Flaw.not_escapes {flaw : Flaw} (hknown : Strip.isStripFault (.archive flaw) = true) :
    ¬flaw.Escapes := by
  simp [flaw.escapes_iff, hknown]

theorem decodeName_error {flags : Nat} {bytes : Bytes} {error : Text.DecodeError}
    (hdecode : decodeName flags bytes = .error error) : Text.Utf8.decode bytes = .error error := by
  unfold decodeName at hdecode
  split at hdecode
  · rcases hbytes : Text.Utf8.decode bytes with found | chars
    · rw [hbytes] at hdecode
      exact congrArg _ (Except.error.inj hdecode)
    · rw [hbytes] at hdecode
      cases hdecode
  · cases hdecode

theorem isInfix_take_drop (bytes : Bytes) (start size : Nat) :
    (bytes.drop start).take size <:+: bytes :=
  (List.take_prefix _ _).isInfix.trans (List.drop_suffix _ _).isInfix

/-- The flaw that some name in the archive is not encoded as it claims to be. -/
def Misnamed (archive : Bytes) (flaw : Flaw) : Prop :=
  ∃ bytes error, bytes <:+: archive ∧ Text.Utf8.decode bytes = .error error ∧
    flaw = .undecodableName error

/-- A flaw that does not escape, unless it is one of a name. -/
def IsKnown (archive : Bytes) (flaw : Flaw) : Prop :=
  flaw.Escapes → Misnamed archive flaw

theorem IsKnown.of_handled {archive : Bytes} {flaw : Flaw}
    (hhandled : Strip.isStripFault (.archive flaw) = true) : IsKnown archive flaw :=
  fun hescapes => absurd hescapes (Flaw.not_escapes hhandled)

/-! ### The directory -/

theorem wideEnd?_fails (archive : Bytes) (place : Nat) :
    Fails (IsKnown archive) (wideEnd? archive place) := by
  unfold wideEnd?
  split
  · exact .ok none
  dsimp only
  split
  · exact .ok none
  split
  · exact .error (.of_handled rfl)
  split <;> exact .ok _

theorem readEnd_fails (archive : Bytes) : Fails (IsKnown archive) (readEnd archive) := by
  unfold readEnd
  dsimp only
  split
  · exact .error (.of_handled rfl)
  refine (wideEnd?_fails archive _).bind fun wide _ => ?_
  split
  all_goals
    refine Fails.bind (.ok _) fun found _ => ?_
    exact .guard (fun _ => .of_handled rfl) fun _ => .ok _

theorem widen_fails (archive : Bytes) (field : String) (data : Bytes) :
    Fails (IsKnown archive) (widen field data) := by
  unfold widen
  split
  · exact .error (.of_handled rfl)
  · exact .ok _

theorem widened_fails (archive : Bytes) (entry : Entry) (data : Bytes) :
    Fails (IsKnown archive) (entry.widened data) := by
  unfold Entry.widened
  dsimp only
  refine .ite_bind (widen_fails archive _ _) (.ok _) fun size => ?_
  refine .ite_bind (widen_fails archive _ _) (.ok _) fun packedSize => ?_
  refine .ite_bind (.map (widen_fails archive _ _)) (.ok _) fun offset => .ok _

theorem readExtra_fails (archive : Bytes) (entry : Entry) (fuel : Nat) (extra : Bytes) :
    Fails (IsKnown archive) (entry.readExtra fuel extra) := by
  induction fuel generalizing entry extra with
  | zero => exact .ok entry
  | succ fuel ih =>
    unfold Entry.readExtra
    split
    · exact .ok entry
    dsimp only
    refine .guard (fun _ => .of_handled rfl) fun _ => ?_
    refine .ite_bind (widened_fails archive _ _) (.ok _) fun widened => ?_
    exact ih widened _

theorem readEntry_fails {archive bytes : Bytes} (hwithin : bytes <:+: archive) (shift : Int) :
    Fails (IsKnown archive) (readEntry shift bytes) := by
  unfold readEntry
  refine .guard (fun _ => .of_handled rfl) fun _ => ?_
  refine .guard (fun _ => .of_handled rfl) fun _ => ?_
  dsimp only
  split
  · refine Fails.bind (.ok _) fun name _ => ?_
    refine .guard (fun _ => .of_handled rfl) fun _ => ?_
    exact (readExtra_fails archive _ _ _).bind fun entry _ => .ok _
  · rename_i error hdecode
    refine .error fun _ => ⟨_, error, ?_, decodeName_error hdecode, rfl⟩
    exact (isInfix_take_drop _ _ _).trans hwithin

theorem readEntries_fails {archive : Bytes} (shift : Int) (size fuel read : Nat) {bytes : Bytes}
    (hwithin : bytes <:+: archive) :
    Fails (IsKnown archive) (readEntries shift size fuel read bytes) := by
  induction fuel generalizing read bytes with
  | zero => exact .ok []
  | succ fuel ih =>
    unfold readEntries
    split
    · exact .ok []
    refine (readEntry_fails hwithin shift).bind fun found _ => ?_
    exact (ih _ ((List.drop_suffix _ _).isInfix.trans hwithin)).bind fun rest _ => .ok _

theorem readDirectory_fails (archive : Bytes) : Fails (IsKnown archive) (readDirectory archive) := by
  unfold readDirectory
  refine (readEnd_fails archive).bind fun record _ => ?_
  exact (readEntries_fails _ _ _ _ (isInfix_take_drop _ _ _)).bind fun entries _ => .ok _

/-! ### Entries -/

theorem openEntry_fails (archive : Bytes) (entry : Entry) :
    Fails (IsKnown archive) (openEntry archive entry) := by
  unfold openEntry
  iterate 5 refine .guard (fun _ => .of_handled rfl) fun _ => ?_
  dsimp only
  split
  · rename_i error hdecode
    refine .error fun _ => ⟨_, error, ?_, decodeName_error hdecode, rfl⟩
    exact (isInfix_take_drop _ _ _).trans (List.drop_suffix _ _).isInfix
  · iterate 3 refine .guard (fun _ => .of_handled rfl) fun _ => ?_
    exact .guard (fun _ => .of_handled rfl) fun _ => .ok _

/-- Data can only be corrupt or cut short. -/
theorem unpack_escapes (window : Nat) (entry : Entry) (data : Bytes) :
    Fails Flaw.Escapes (unpack window entry data) := by
  unfold unpack
  dsimp only
  split
  · split
    · exact .error .cutShort
    · exact .ok _
  split
  · exact .ok _
  · split
    · exact .error .cutShort
    · exact .ok _
  · split
    · exact .error .corruptStream
    · exact .ok _

end Archive

namespace Strip

open Archive (Entry Flaw IsKnown Member Misnamed)

/-- The flaws of an entry that no handler knows: it has no name, its header would get too long, or its
data cannot be unpacked. -/
inductive Faulty (archive : Bytes) (entry : Entry) : Flaw → Prop
  | unnamed : entry.name = "" → Faulty archive entry .emptyName
  | long {size : Nat} :
    Member.lengthLimit < (Text.Utf8.encode entry.name).length ∨
        Member.lengthLimit < (Member.headerExtra ⟨{ entry with size }, []⟩).length →
      Faulty archive entry .longField
  | data {data : Bytes} {flaw : Flaw} : Archive.openEntry archive entry = .ok data →
    Archive.unpack window entry data = .error flaw → Faulty archive entry flaw

/-- The flaws that stripping does not answer for: those of a name, and those of an entry that is
kept. -/
inductive Unanswered (archive : Bytes) (flaw : Flaw) : Prop
  | name : Misnamed archive flaw → Unanswered archive flaw
  | entry {entries : List Entry} {entry : Entry} : Archive.readDirectory archive = .ok entries →
    entry ∈ entries → isReserved entry.name = false → Faulty archive entry flaw →
      Unanswered archive flaw

theorem Faulty.escapes {archive : Bytes} {entry : Entry} {flaw : Flaw}
    (hfaulty : Faulty archive entry flaw) : flaw.Escapes := by
  cases hfaulty with
  | unnamed _ => exact .emptyName
  | long _ => exact .longField
  | data _ hunpack => exact Archive.unpack_escapes _ _ _ _ hunpack

theorem Unanswered.escapes {archive : Bytes} {flaw : Flaw} (hunanswered : Unanswered archive flaw) :
    flaw.Escapes := by
  cases hunanswered with
  | name hmisnamed =>
    obtain ⟨_, error, _, _, rfl⟩ := hmisnamed
    exact .undecodableName error
  | entry _ _ _ hfaulty => exact hfaulty.escapes

section Entries

variable (archive : Bytes) (entry : Entry)

/-- A flaw that does not escape, unless it is one of a name or of the entry. -/
def IsEntryKnown (flaw : Flaw) : Prop :=
  flaw.Escapes → Misnamed archive flaw ∨ Faulty archive entry flaw

variable {archive entry} in
theorem IsEntryKnown.of_handled {flaw : Flaw} (hhandled : isStripFault (.archive flaw) = true) :
    IsEntryKnown archive entry flaw :=
  fun hescapes => absurd hescapes (Flaw.not_escapes hhandled)

theorem openEntry_fails : Fails (IsEntryKnown archive entry) (Archive.openEntry archive entry) :=
  (Archive.openEntry_fails archive entry).weaken fun _ hknown hescapes => .inl (hknown hescapes)

theorem checkHeader_fails (size : Nat) :
    Fails (IsEntryKnown archive entry) (Member.checkHeader { entry with size }) := by
  unfold Member.checkHeader
  split
  · rename_i hlong
    exact .error fun _ => .inr (.long hlong)
  · exact .ok _

theorem readContent_fails :
    Fails (IsEntryKnown archive entry) (Archive.readContent window archive entry) := by
  unfold Archive.readContent
  refine (openEntry_fails archive entry).bind fun data hdata => ?_
  refine Fails.bind (fun flaw hunpack _ => .inr (.data hdata hunpack)) fun content _ => ?_
  exact .guard (fun _ => .of_handled rfl) fun _ => .ok _

theorem member_fails : Fails (IsEntryKnown archive entry) (member archive entry) := by
  unfold member
  refine .guard (fun hempty _ => .inr (.unnamed (by simpa using hempty))) fun _ => ?_
  split
  · refine .guard (fun _ => .of_handled rfl) fun _ => ?_
    exact (checkHeader_fails archive entry 0).bind fun _ _ => .ok _
  · refine (openEntry_fails archive entry).bind fun data _ => ?_
    refine (checkHeader_fails archive entry entry.size).bind fun _ _ => ?_
    exact (readContent_fails archive entry).bind fun content _ => .ok _

end Entries

/-- Stripping the bytes of an archive fails with a flaw that escapes only if one of a name or of an
entry that is kept does. -/
theorem stripBytes_fails (archive : Bytes) :
    Fails (fun flaw => flaw.Escapes → Unanswered archive flaw) (stripBytes archive) := by
  unfold stripBytes
  refine Fails.bind ((Archive.readDirectory_fails archive).weaken ?_) fun entries hentries => ?_
  · exact fun flaw hknown hescapes => .name (hknown hescapes)
  refine Fails.bind (.mapM fun entry hkept => (member_fails archive entry).weaken ?_)
    fun members _ => .ok _
  intro flaw hknown hescapes
  obtain ⟨hmem, hreserved⟩ := List.mem_filter.mp hkept
  rcases hknown hescapes with hmisnamed | hfaulty
  · exact .name hmisnamed
  · exact .entry hentries hmem (by simpa using hreserved) hfaulty

/-! ### Files -/

section Files

variable {host : Host} {source target : Path} {world : World} {archive : Bytes} {flaw : Flaw}

theorem eval_fill_error {file : Path} (hsource : world.files.Holds source archive)
    (hflaw : stripBytes archive = .error flaw) :
    (fill source file).eval host world = (.error (.archive flaw), world) := by
  unfold fill
  rw [Action.eval_bind_ok (Action.eval_readFile hsource), hflaw,
    Action.eval_bind_error (Action.eval_ofExcept _ _ _ _)]

/-- The handler answers for a flaw that does not escape, and lets another one pass. -/
theorem eval_strip_error (hrooted : ".." ∉ world.files.here)
    (hsource : world.files.Holds source archive)
    (hother : target.normal world.files.here ≠ source.normal world.files.here)
    (hreceives : world.files.Receives target) (hflaw : stripBytes archive = .error flaw) :
    ∃ after, (strip source target).eval host world =
      (.error (if isStripFault (.archive flaw) then .because (.of .sanitizeError
        ("Failed to strip " ++ source.toString ++ ": " ++ flaw.message)) (.archive flaw)
        else .archive flaw), after) := by
  obtain ⟨hreach, -⟩ := FileTree.holds_iff.mp hsource
  have hdifferent : ¬Path.ofLocation (source.normal world.files.here) =
      .ofLocation (target.normal world.files.here) := fun heq => hother (congrArg Path.parts heq).symm
  unfold strip
  rw [Action.eval_bind_ok (Action.eval_resolve hreach.noNull),
    Action.eval_bind_ok (Action.eval_resolve (FileTree.Receives.noNull hreceives hrooted)),
    decide_eq_false hdifferent, Action.eval_bind_ok (Action.eval_refuse_false _ _ _)]
  refine Action.eval_withSibling_error hrooted (FileTree.Receives.prepares hreceives)
    fun ready sibling place hbeside => ?_
  have hmoving : (Action.moving sibling target (fill source sibling)).eval host
      { world with files := ready.put place (.file [] 0o600) } =
        (.error (.archive flaw), { world with files := ready.put place (.file [] 0o600) }) :=
    Action.eval_bind_error (eval_fill_error (hbeside.holds hsource) hflaw)
  rw [Action.eval_explain, hmoving]
  exact ⟨_, rfl⟩

variable (source target world archive)

/-- The ways in which stripping the file at `source` ends, which holds `archive`. -/
inductive StripEnds : Except Fault (Nat × Nat) × World → Prop
  | refused : target.normal world.files.here = source.normal world.files.here →
    StripEnds (.error (.of .sanitizeError ("Refusing to strip " ++ source.toString ++ " in place")),
      world)
  | stripped {stripped : Stripped} {after : World} : stripBytes archive = .ok stripped →
    after.files.Holds target stripped.archive →
      StripEnds (.ok (stripped.kept, stripped.dropped), after)
  | answered {flaw : Flaw} {after : World} : stripBytes archive = .error flaw →
    ¬Unanswered archive flaw →
      StripEnds (.error (.because (.of .sanitizeError
        ("Failed to strip " ++ source.toString ++ ": " ++ flaw.message)) (.archive flaw)), after)
  | escaped {flaw : Flaw} {after : World} : stripBytes archive = .error flaw →
    Unanswered archive flaw → StripEnds (.error (.archive flaw), after)

variable {source target world archive}

end Files

/-! ### A corrupt stream -/

/-- A stored file of one byte that is listed as deflated, which the byte cannot be. -/
def corruptArchive : Bytes :=
  (Archive.write [{ smallMember "b" with content := [7] }]).set 42 (UInt8.ofNat Archive.deflatedMethod)

def corruptWorld : World where
  files := FileTree.bare.put ["work", "in"] (.file corruptArchive 0o644)

end Strip

end JarRefinery
