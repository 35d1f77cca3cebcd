import JarRefinery.Proofs.Producers

/-!
# Atomicity

A producer of a file discards its temporary file however it ends. So its target is replaced as a
whole or not at all, and of everything else only directories above the target may be new.
-/

namespace JarRefinery

open Action (any)

/-! ### Filling the temporary file -/

/-- Files change at one place, which does not become free. -/
def Discipline.filling (host : Host) (here place : Location) : Discipline where
  host := host
  here := here
  inv := fun _ => True
  step := fun before after => Change { written := {place} } before.files after.files
  faults := fun _ => True
  refl := fun world => .refl _ world.files
  trans := fun hfirst hsecond => hfirst.trans hsecond
  keep := fun _ _ => trivial
  ordinary := fun _ _ => trivial

namespace Discipline.filling

variable {host : Host} {here place : Location}

theorem allowsNetwork : (filling host here place).AllowsNetwork where
  ask := fun world _ => .refl _ world.files
  wait := fun world _ => .refl _ world.files
  failure := fun _ _ _ _ => trivial
  broken := fun _ _ _ _ _ _ _ => trivial

theorem allowsFiles (hrooted : ".." ∉ here) :
    (filling host here place).AllowsFiles { written := {place} } :=
  fun _ _ _ _ _ hchange => hchange hrooted

end Discipline.filling

variable {α β : Type}

/-- The action writes to `sibling` alone, and ends well only by moving it to `target`. -/
def Fills (host : Host) (here : Location) (sibling target : Path) (action : Action α) : Prop :=
  ∀ world, world.files.here = here →
    match action.eval host world with
    | (.error _, after) =>
      Change { written := {sibling.normal here} } world.files after.files
    | (.ok _, after) => ∃ middle,
      Change { written := {sibling.normal here} } world.files middle ∧
        (FileTree.rename sibling target).eval middle = (.ok (), after.files)

namespace Fills

variable {host : Host} {here : Location} {sibling target : Path}

theorem moving {fill : Action α}
    (hfill : fill.Keeps (.filling host here (sibling.normal here)) any) :
    Fills host here sibling target (Action.moving sibling target fill) := by
  intro world hhere
  have hstep := hfill.step hhere trivial
  change Change _ world.files (fill.eval host world).2.files at hstep
  unfold Action.moving
  rw [Action.eval_bind]
  rcases heval : fill.eval host world with ⟨fault | value, filled⟩
  · rw [heval] at hstep
    exact hstep
  rw [heval] at hstep
  simp only
  rw [Action.eval_bind, Action.eval_onFiles]
  rcases FileTree.rename_cases filled.files sibling target with
    ⟨contents, mode, -, -, -, -, -, hrename⟩ | ⟨error, hrename⟩
  · rw [hrename]
    exact ⟨filled.files, hstep, hrename⟩
  · rw [hrename]
    exact hstep

theorem explain {action : Action α} {answers : Fault → Bool} {outer : Fault → Fault}
    (hfills : Fills host here sibling target action) :
    Fills host here sibling target (action.explain answers outer) := by
  intro world hhere
  have haction := hfills world hhere
  rw [Action.eval_explain]
  rcases heval : action.eval host world with ⟨fault | value, after⟩ <;> rw [heval] at haction <;>
    exact haction

end Fills

/-- The target is replaced as a whole if the action comes to its end, and else not at all. Of all
other places only those that the path of the target passes may change, and only by a directory that
is made there. -/
def Replaces (host : Host) (here : Location) (target : Path) (action : Action α) : Prop :=
  ∀ world, world.files.here = here →
    match action.eval host world with
    | (.error _, after) => Change { made := target.parent.trail here } world.files after.files
    | (.ok _, after) =>
      Change { made := target.parent.trail here, written := {target.normal here} }
        world.files after.files ∧
        ∃ contents mode, after.files.node? (target.normal here) = some (.file contents mode)

/-- Files stay as they are. -/
def Discipline.still (host : Host) (here : Location) : Discipline where
  host := host
  here := here
  inv := fun _ => True
  step := fun before after => after.files = before.files
  faults := fun _ => True
  refl := fun _ => rfl
  trans := fun hfirst hsecond => hsecond.trans hfirst
  keep := fun _ _ => trivial
  ordinary := fun _ _ => trivial

theorem Discipline.still.allowsNetwork {host : Host} {here : Location} :
    (still host here).AllowsNetwork where
  ask := fun _ _ => rfl
  wait := fun _ _ => rfl
  failure := fun _ _ _ _ => trivial
  broken := fun _ _ _ _ _ _ _ => trivial

/-- Whatever keeps to it in every directory leaves the files as they are. -/
theorem Action.files_eq_of_still {host : Host} {action : Action α}
    (hkeeps : ∀ here, action.Keeps (.still host here) any) (world : World) :
    (action.eval host world).2.files = world.files :=
  (hkeeps world.files.here).step rfl trivial

namespace Replaces

variable {host : Host} {here : Location} {target : Path}

/-- **Temporary files.** Whatever fills a file beside its target and moves it there replaces the
target. -/
theorem withSibling (hrooted : ".." ∉ here) {use : Path → Action α}
    (hfills : ∀ sibling, Fills host here sibling target (use sibling)) :
    Replaces host here target (Action.withSibling target use) := by
  intro world hhere
  subst hhere
  rw [Action.eval_withSibling]
  rcases FileTree.newSibling_cases hrooted target with
    ⟨ready, sibling, place, hbeside, heval⟩ | ⟨error, after, hmade, heval⟩
  swap
  · rw [heval]
    exact hmade
  rw [heval]
  simp only
  rw [Action.eval_discarding]
  have hstart : (ready.put place (.file [] 0o600)).here = world.files.here := hbeside.made.here
  have huse := hfills sibling { world with files := ready.put place (.file [] 0o600) } hstart
  rw [hbeside.normal] at huse
  rcases hresult : (use sibling).eval host { world with files := ready.put place (.file [] 0o600) }
    with ⟨fault | value, after⟩
  · rw [hresult] at huse
    exact hbeside.discarded huse
  · rw [hresult] at huse
    obtain ⟨filled, hfilled, hrename⟩ := huse
    obtain ⟨hchange, ⟨contents, mode, -, hfile⟩, hsame⟩ := hbeside.moved hfilled hrename
    simp only [hsame]
    exact ⟨hchange, contents, mode, hfile⟩

theorem bind {first : Action α} {next : α → Action β}
    (hfirst : first.Keeps (.still host here) any)
    (hnext : ∀ value, Replaces host here target (next value)) :
    Replaces host here target (first >>= next) := by
  intro world hhere
  have hsame := hfirst.step hhere trivial
  change (first.eval host world).2.files = world.files at hsame
  rw [Action.eval_bind]
  rcases heval : first.eval host world with ⟨fault | value, middle⟩
  · rw [heval] at hsame
    change Change _ world.files middle.files
    exact hsame ▸ .refl _ _
  · rw [heval] at hsame
    change middle.files = world.files at hsame
    rw [← hsame]
    exact hnext value middle (hsame ▸ hhere)

theorem map {action : Action α} {change : α → β} (haction : Replaces host here target action) :
    Replaces host here target (action >>= fun value => pure (change value)) := by
  intro world hhere
  have hreplaced := haction world hhere
  rw [Action.eval_bind]
  rcases heval : action.eval host world with ⟨fault | value, after⟩ <;>
    rw [heval] at hreplaced <;> exact hreplaced

variable (hrooted : ".." ∉ here)

include hrooted

theorem downloadBy (piece maxAttempts : Int) (url : String) :
    Replaces host here target (Http.downloadBy piece maxAttempts url target) := by
  refine withSibling hrooted fun sibling => .moving ?_
  exact Http.fetch_keeps Discipline.filling.allowsNetwork
    (fun response hsound =>
      Http.writeBody_keeps (Discipline.filling.allowsFiles hrooted) piece hsound) maxAttempts url

theorem extractEntry (container : Path) (name : String) :
    Replaces host here target (Mapping.extractEntry container name target) := by
  refine withSibling hrooted fun sibling => .explain (.moving ?_)
  exact (Mapping.fillFromEntry_keeps (Discipline.filling.allowsFiles hrooted) container name).andThen
    fun _ => .pure trivial

theorem gunzip (source : Path) : Replaces host here target (Mapping.gunzip source target) := by
  refine withSibling hrooted fun sibling => .explain (.moving ?_)
  exact (Mapping.fillFromCompressed_keeps (Discipline.filling.allowsFiles hrooted) source).andThen
    fun _ => .pure trivial

theorem write (style : TextFile.Style) (text : String) :
    Replaces host here target (TextFile.write style target text) :=
  withSibling hrooted fun _ =>
    .moving (TextFile.fill_keeps (Discipline.filling.allowsFiles hrooted) style text)

theorem strip (source : Path) : Replaces host here target (Strip.strip source target) := by
  unfold Strip.strip
  refine bind (resolve_keeps source) fun from_ => bind (resolve_keeps target) fun to_ => ?_
  refine bind (Action.Keeps.refuse fun _ => trivial).anyway fun _ => ?_
  refine withSibling hrooted fun sibling => .explain (.moving ?_)
  exact Strip.fill_keeps (Discipline.filling.allowsFiles hrooted) source

theorem normalizeFile (source space : String) (document : Path) :
    Replaces host here target (Mapping.normalizeFile source space document target) := by
  unfold Mapping.normalizeFile
  refine bind (resolve_keeps document) fun from_ => bind (resolve_keeps target) fun to_ => ?_
  refine bind (Action.Keeps.refuse fun _ => trivial).anyway fun _ => ?_
  refine bind (TextFile.read_keeps document) fun text => ?_
  exact map (write hrooted _ _)

end Replaces

/-! ### Atomicity -/

/-- The operations that produce a file, each with what it is made from. -/
inductive Producer where
  | download (piece maxAttempts : Int) (url : String)
  | extract (container : Path) (name : String)
  | gunzip (source : Path)
  | strip (source : Path)
  | normalize (source space : String) (document : Path)
  | write (style : TextFile.Style) (text : String)

namespace Producer

/-- Produces the file at `target`. -/
def produce (target : Path) : Producer → Action Unit
  | download piece maxAttempts url => do
    let _ ← Http.downloadBy piece maxAttempts url target
    pure ()
  | extract container name => do
    let _ ← Mapping.extractEntry container name target
    pure ()
  | gunzip source => do
    let _ ← Mapping.gunzip source target
    pure ()
  | strip source => do
    let _ ← Strip.strip source target
    pure ()
  | normalize source space document => do
    let _ ← Mapping.normalizeFile source space document target
    pure ()
  | write style text => TextFile.write style target text

theorem produce_replaces (producer : Producer) (host : Host) {here : Location}
    (hrooted : ".." ∉ here) (target : Path) :
    Replaces host here target (producer.produce target) := by
  cases producer with
  | download piece maxAttempts url => exact (Replaces.downloadBy hrooted _ _ _).map
  | extract container name => exact (Replaces.extractEntry hrooted _ _).map
  | gunzip source => exact (Replaces.gunzip hrooted _).map
  | strip source => exact (Replaces.strip hrooted _).map
  | normalize source space document => exact (Replaces.normalizeFile hrooted _ _ _).map
  | write style text => exact Replaces.write hrooted _ _

end Producer

/-- A place has not changed, or it is one above the target, was free and has got a directory. -/
def SameOrAbove (target : Path) (before after : FileTree) (location : Location) : Prop :=
  after.node? location = before.node? location ∨
    location ∈ target.parent.trail before.here ∧ before.node? location = none ∧
      after.node? location = some .directory

/-- What an atomic producer leaves: with a fault, the target as it was; else a file in its place. All
other places are the same in both cases, but for directories above the target. -/
def LeavesWhole (target : Path) (before : FileTree) (result : Except Fault Unit)
    (after : FileTree) : Prop :=
  match result with
  | .error _ =>
    after.node? (target.normal before.here) = before.node? (target.normal before.here) ∧
      ∀ location, SameOrAbove target before after location
  | .ok _ =>
    (∃ contents mode, after.node? (target.normal before.here) = some (.file contents mode)) ∧
      ∀ location, location ≠ target.normal before.here →
        SameOrAbove target before after location

/-- A missing target is not one of the places that its own path passes, as `a` is for `a/../a`. -/
def Proper (target : Path) (before : FileTree) : Prop :=
  before.node? (target.normal before.here) = none →
    target.normal before.here ∉ target.parent.trail before.here

/-- **Atomicity.** Whatever the network answers and whatever the files hold, a producer leaves its
target whole. -/
theorem Producer.produce_leavesWhole (producer : Producer) (target : Path) (host : Host)
    (world : World) (hrooted : ".." ∉ world.files.here) (hproper : Proper target world.files) :
    LeavesWhole target world.files ((producer.produce target).eval host world).1
      ((producer.produce target).eval host world).2.files := by
  have hreplaces := producer.produce_replaces host hrooted target world rfl
  rcases heval : (producer.produce target).eval host world with ⟨fault | value, after⟩
  · rw [heval] at hreplaces
    have hframe : ∀ location, SameOrAbove target world.files after.files location :=
      fun location => hreplaces.same_or_made (Set.notMem_empty _) (Set.notMem_empty _)
    refine ⟨?_, hframe⟩
    rcases hframe (target.normal world.files.here) with hsame | ⟨habove, hfree, -⟩
    · exact hsame
    · exact absurd habove (hproper hfree)
  · rw [heval] at hreplaces
    obtain ⟨hchange, hfile⟩ := hreplaces
    exact ⟨hfile, fun location hother =>
      hchange.same_or_made (by simpa using hother) (Set.notMem_empty _)⟩

theorem write_leavesWhole_bare :
    LeavesWhole ⟨"", ["out"]⟩ FileTree.bare
      (((Producer.write TextFile.defaultStyle "text").produce ⟨"", ["out"]⟩).eval .idle
        { files := .bare }).1
      (((Producer.write TextFile.defaultStyle "text").produce ⟨"", ["out"]⟩).eval .idle
        { files := .bare }).2.files := by
  refine Producer.produce_leavesWhole (.write TextFile.defaultStyle "text") ⟨"", ["out"]⟩ .idle
    { files := .bare } (by decide) ?_
  rintro - ⟨front, back, hparts, hlocation⟩
  obtain ⟨rfl, rfl⟩ : front = [] ∧ back = [] := by simpa [Path.parent] using hparts.symm
  exact absurd hlocation (by decide)

/-- A missing target that its own path passes comes into being as a directory, though there was
nothing to decompress. -/
theorem gunzip_not_leavesWhole :
    ¬LeavesWhole ⟨"", ["a", "..", "a"]⟩ FileTree.bare
      (((Producer.gunzip ⟨"", ["s"]⟩).produce ⟨"", ["a", "..", "a"]⟩).eval .idle
        { files := .bare }).1
      (((Producer.gunzip ⟨"", ["s"]⟩).produce ⟨"", ["a", "..", "a"]⟩).eval .idle
        { files := .bare }).2.files := by
  have hafter : (((Producer.gunzip ⟨"", ["s"]⟩).produce ⟨"", ["a", "..", "a"]⟩).eval .idle
      { files := .bare }).2.files.node? ["work", "a"] = some .directory := by decide +kernel
  generalize ((Producer.gunzip ⟨"", ["s"]⟩).produce ⟨"", ["a", "..", "a"]⟩).eval .idle
    { files := .bare } = ending at hafter
  intro hleaves
  obtain ⟨fault | value, after⟩ := ending
  · have hsame : after.files.node? ["work", "a"] = FileTree.bare.node? ["work", "a"] := hleaves.1
    rw [hafter] at hsame
    exact absurd hsame (by decide)
  · obtain ⟨⟨contents, mode, hfile⟩, -⟩ := hleaves
    have hplace : after.files.node? ["work", "a"] = some (.file contents mode) := hfile
    simp [hafter] at hplace

end JarRefinery
