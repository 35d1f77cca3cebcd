import JarRefinery.Proofs.Files.Grounded
import JarRefinery.Proofs.Files.Receiving
import Mathlib.Data.Nat.Digits.Defs

/-!
# Room beside a place

The temporary names of a place are all of one length. So whether a temporary file can be made beside
it, where the directory is there, takes no more than a free one among them and room for any.
-/

namespace JarRefinery.FileTree

open FileTree.Action (eval)

variable {tree : FileTree}

/-! ### Temporary names -/

theorem mem_serialText {n : Nat} {c : Char} (hc : c ∈ (serialText n).toList) :
    c = 'a' ∨ c.isDigit = true := by
  rw [serialText, String.toList_ofList, List.mem_append] at hc
  rcases hc with hpadding | hdigit
  · exact .inl (List.eq_of_mem_replicate hpadding)
  · exact .inr (Nat.isDigit_of_mem_toDigits (by decide) (by decide) hdigit)

theorem utf8ByteSize_serialText {n : Nat} (hn : n < siblingTries) :
    (serialText n).utf8ByteSize = 8 := by
  have hdigits : (Nat.toDigits 10 n).length ≤ 8 := Nat.toDigits_length 10 n 8 (by decide) hn
  have hchars : ∀ chars : List Char, (∀ c ∈ chars, c = 'a' ∨ c.isDigit = true) →
      (String.ofList chars).utf8ByteSize = chars.length := by
    intro chars hall
    induction chars with
    | nil => rfl
    | cons c rest ih =>
      have hc : c.utf8Size = 1 := by
        have hle : c.val ≤ 127 := by
          rcases hall c List.mem_cons_self with rfl | hdigit
          · decide
          · simp only [Char.isDigit, Bool.and_eq_true, decide_eq_true_eq] at hdigit
            exact UInt32.le_trans hdigit.2 (by decide)
        exact if_pos hle
      rw [String.ofList_cons, String.utf8ByteSize_append,
        ih fun d hd => hall d (List.mem_cons_of_mem _ hd), List.length_cons]
      have hsize : (String.singleton c).utf8ByteSize = c.utf8Size := by simp
      omega
  have hsize := hchars (serialText n).toList fun c hc => mem_serialText hc
  rw [String.ofList_toList] at hsize
  rw [hsize, serialText, String.toList_ofList, List.length_append, List.length_replicate]
  omega

theorem serialText_injective : Function.Injective serialText := by
  have hdigits : ∀ n, (serialText n).toList.filter Char.isDigit = Nat.toDigits 10 n := by
    intro n
    rw [serialText, String.toList_ofList, List.filter_append, List.filter_eq_nil_iff.mpr,
      List.nil_append, List.filter_eq_self]
    · exact fun c hc => Nat.isDigit_of_mem_toDigits (by decide) (by decide) hc
    · intro c hc
      rw [List.eq_of_mem_replicate hc]
      decide
  intro n m hsame
  have hvalue : Nat.ofDigitChars 10 (Nat.toDigits 10 n) 0 = Nat.ofDigitChars 10 (Nat.toDigits 10 m) 0 := by
    rw [← hdigits, ← hdigits, hsame]
  rwa [Nat.ofDigitChars_ten_toDigits, Nat.ofDigitChars_ten_toDigits] at hvalue

theorem siblingName_injective (name : String) : Function.Injective (siblingName name) := by
  intro n m hsame
  have hlists := congrArg String.toList hsame
  simp only [siblingName, String.toList_append] at hlists
  exact serialText_injective
    (String.toList_injective (List.append_cancel_left (List.append_cancel_right hlists)))

/-- If a name that is tried is free, one is found. -/
theorem unusedSibling?_ne_none {directory : Location} {name : String} {tries n m : Nat} (hfrom : n ≤ m)
    (hto : m < n + tries) (hfree : tree.node? (directory ++ [siblingName name m]) = none) :
    tree.unusedSibling? directory name tries n ≠ none := by
  induction tries generalizing n with
  | zero => omega
  | succ tries ih =>
    unfold unusedSibling?
    by_cases hn : (tree.node? (directory ++ [siblingName name n])).isNone = true
    · simp [hn]
    · have hne : n ≠ m := by
        rintro rfl
        exact hn (Option.isNone_iff_eq_none.mpr hfree)
      simpa [hn] using ih (n := n + 1) (by omega) (by omega)

/-! ### Temporary files -/

/-- A temporary name of the place is free, and neither it nor the path to it is too long. -/
structure Roomy (tree : FileTree) (directory : Location) (name : String) : Prop where
  nameLength : name.utf8ByteSize + 14 ≤ nameLimit
  pathLength : (Path.ofLocation (directory ++ [name])).toString.utf8ByteSize + 14 ≤ pathLimit
  spare : ∃ n < siblingTries, tree.node? (directory ++ [siblingName name n]) = none

theorem Roomy.congr {other : FileTree} {directory : Location} {name : String}
    (hsame : ∀ n < siblingTries, tree.node? (directory ++ [siblingName name n]) = none →
      other.node? (directory ++ [siblingName name n]) = none) (hroomy : tree.Roomy directory name) :
    other.Roomy directory name := by
  obtain ⟨n, hn, hfree⟩ := hroomy.spare
  exact ⟨hroomy.nameLength, hroomy.pathLength, n, hn, hsame n hn hfree⟩

theorem hasNull_append {front back : Location} :
    hasNull (.ofLocation (front ++ back)) =
      (hasNull (.ofLocation front) || hasNull (.ofLocation back)) := by
  simp [hasNull, Path.ofLocation]

theorem hasNull_siblingName {name : String} (hnull : hasNull (.ofLocation [name]) = false) (n : Nat) :
    hasNull (.ofLocation [siblingName name n]) = false := by
  have hserial : '\x00' ∉ (serialText n).toList := fun hmem => by
    rcases mem_serialText hmem with heq | hdigit
    · exact absurd heq (by decide)
    · exact absurd hdigit (by decide)
  simpa [hasNull, Path.ofLocation, siblingName, hserial] using hnull

section Beside

variable {directory : Location} {name : String} (hdots : ".." ∉ directory ++ [name])
  (hnull : hasNull (.ofLocation (directory ++ [name])) = false)

theorem utf8ByteSize_siblingName_eq {n : Nat} (hn : n < siblingTries) :
    (siblingName name n).utf8ByteSize = name.utf8ByteSize + 14 := by
  rw [utf8ByteSize_siblingName, utf8ByteSize_serialText hn]

include hdots hnull

/-- Where a directory is, a place in it can be asked for if its name and its path have room. -/
theorem HasDirectory.reachable_append (hdirectory : tree.HasDirectory (.ofLocation directory)) :
    tree.Reachable (.ofLocation (directory ++ [name])) ↔
      (Path.ofLocation (directory ++ [name])).toString.utf8ByteSize ≤ pathLimit ∧
        name.utf8ByteSize ≤ nameLimit := by
  have habove : ".." ∉ directory := fun hmem => hdots (List.mem_append_left _ hmem)
  obtain ⟨-, -, hleads, hshort⟩ := (reachable_ofLocation_iff habove).mp hdirectory.reachable
  rw [reachable_ofLocation_iff hdots]
  constructor
  · rintro ⟨-, hlength, -, hnames⟩
    exact ⟨hlength, hnames name (by simp)⟩
  · rintro ⟨hlength, hname⟩
    refine ⟨hnull, hlength, fun above honto hne => ?_, fun other hother => ?_⟩
    · rcases List.prefix_concat_iff.mp honto with heq | honto
      · exact absurd heq hne
      · by_cases heq : above = directory
        · rw [heq, ← Path.normal_ofLocation habove tree.here]
          exact hdirectory.node
        · exact hleads above honto heq
    · rcases List.mem_append.mp hother with hother | hother
      · exact hshort other hother
      · exact List.mem_singleton.mp hother ▸ hname

variable (hdirectory : tree.HasDirectory (.ofLocation directory))

include hdirectory

theorem HasDirectory.reachable_sibling {n : Nat} (hn : n < siblingTries) :
    tree.Reachable (.ofLocation (directory ++ [siblingName name n])) ↔
      (Path.ofLocation (directory ++ [name])).toString.utf8ByteSize + 14 ≤ pathLimit ∧
        name.utf8ByteSize + 14 ≤ nameLimit := by
  have hsiblingDots : ".." ∉ directory ++ [siblingName name n] :=
    dots_notMem_sibling (fun hmem => hdots (List.mem_append_left _ hmem)) name n
  have hsiblingNull : hasNull (.ofLocation (directory ++ [siblingName name n])) = false := by
    rw [hasNull_append, Bool.or_eq_false_iff] at hnull ⊢
    exact ⟨hnull.1, hasNull_siblingName hnull.2 n⟩
  have hlength : (Path.ofLocation (directory ++ [siblingName name n])).toString.utf8ByteSize =
      (Path.ofLocation (directory ++ [name])).toString.utf8ByteSize + 14 := by
    simp only [Path.utf8ByteSize_ofLocation, List.map_append, List.sum_append, List.map_cons,
      List.map_nil, List.sum_cons, List.sum_nil, utf8ByteSize_siblingName_eq hn, List.length_append,
      List.length_singleton]
    omega
  rw [hdirectory.reachable_append hsiblingDots hsiblingNull, hlength, utf8ByteSize_siblingName_eq hn]

variable (hrooted : ".." ∉ tree.here)

include hrooted

/-- In a directory that is there, a temporary file can be made exactly if there is room. -/
theorem HasDirectory.prepares_append_iff :
    tree.Prepares (.ofLocation (directory ++ [name])) ↔ tree.Roomy directory name := by
  have habove : ".." ∉ directory := fun hmem => hdots (List.mem_append_left _ hmem)
  have hparent := Path.parent_ofLocation_append directory name
  have hname : (Path.ofLocation (directory ++ [name])).name = name := by
    simp [Path.name, Path.ofLocation]
  rw [HasDirectory.prepares_iff (hparent.symm ▸ hdirectory) hrooted, hparent, hname,
    Path.normal_ofLocation habove]
  constructor
  · rintro ⟨found, hfound, hsibling⟩
    obtain ⟨n, hn, rfl, hfree⟩ := unusedSibling?_some hfound
    rw [Nat.zero_add] at hn
    obtain ⟨hpath, hname⟩ := (hdirectory.reachable_sibling hdots hnull hn).mp hsibling
    exact ⟨hname, hpath, n, hn, hfree⟩
  · rintro ⟨hname, hpath, m, hm, hfree⟩
    obtain ⟨found, hfound⟩ := Option.ne_none_iff_exists'.mp
      (unusedSibling?_ne_none (Nat.zero_le m) (by simpa using hm) hfree)
    obtain ⟨n, hn, rfl, -⟩ := unusedSibling?_some hfound
    rw [Nat.zero_add] at hn
    exact ⟨_, hfound, (hdirectory.reachable_sibling hdots hnull hn).mpr ⟨hpath, hname⟩⟩

/-- Where nothing is yet, a file can be written exactly if a temporary one can be made. -/
theorem HasDirectory.receives_append_iff (hnone : tree.node? (directory ++ [name]) = none) :
    tree.Receives (.ofLocation (directory ++ [name])) ↔ tree.Roomy directory name := by
  have hparent := Path.parent_ofLocation_append directory name
  have hends : endsInDots (.ofLocation (directory ++ [name])) = false := by
    have hlast : name ≠ ".." := fun heq => hdots (by simp [heq])
    simpa [endsInDots, Path.ofLocation] using hlast
  rw [HasDirectory.receives_iff (hparent.symm ▸ hdirectory) hrooted,
    hdirectory.prepares_append_iff hdots hnull hrooted]
  refine ⟨And.left, fun hroomy => ⟨hroomy, ?_, hends, ?_⟩⟩
  · refine (hdirectory.reachable_append hdots hnull).mpr ⟨?_, ?_⟩
    · have hpath := hroomy.pathLength
      omega
    · have hname := hroomy.nameLength
      omega
  · rw [Path.normal_ofLocation hdots, hnone]
    exact (Option.some_ne_none _).symm

end Beside

end JarRefinery.FileTree
