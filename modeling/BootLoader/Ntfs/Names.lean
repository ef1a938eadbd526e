import BootLoader.Ntfs.Open
import Mathlib.Data.List.Lex

/-!
# Comparing names

`bl_ntfs_strcmp` against the order of the names in upper case. It compares signed bytes, the low
ones of the units, and stops with the file name.
-/

open ByteMemory

namespace BootLoader.Ntfs

open Driver

variable {name m : Mem} {filename n p left i : Nat} {α υ : Nat → Nat}

/-! ## The order of names -/

/-- `bl_toupper`, of a character that is no `char`. -/
def upperUnit (u : Nat) : Nat := if 0x61 ≤ u ∧ u ≤ 0x7a then u - 0x20 else u

/-- The string ends after `n` characters. -/
def EndsAfter (name : Mem) (n : Nat) : Prop := (∀ i < n, name i ≠ 0) ∧ name n = 0

/-- The first `n` characters of a string, in upper case. -/
def upperName (name : Mem) (n : Nat) : List Nat :=
  (List.range n).map fun i => upperUnit (name i).toNat

/-- `filename->filename_length`. -/
def filenameLength (m : Mem) (filename : Nat) : Nat := (m (filename + 64)).toNat

/-- `filename->filename[i]`. -/
def filenameUnit (m : Mem) (filename i : Nat) : Nat := read16 m (filename + 66 + 2 * i)

def upperFilename (m : Mem) (filename : Nat) : List Nat :=
  (List.range (filenameLength m filename)).map fun i => upperUnit (filenameUnit m filename i)

/-- The place where the loop is left. It has read both names up to there. -/
def strcmpStop (name m : Mem) (filename : Nat) : Nat → Nat → Nat
  | 0, i => i
  | left + 1, i =>
    if blToupper (name i) = blToupper (filenameChar m filename i) ∧ left ≠ 0 then
      strcmpStop name m filename left (i + 1)
    else i

/-- The last character that is read of both names. -/
def lastRead (name m : Mem) (filename : Nat) : Nat :=
  strcmpStop name m filename (filenameLength m filename) 0

/-- A string of `n` characters is compared by its order, and no name is read past its end. -/
structure ComparedRight (name m : Mem) (filename n : Nat) : Prop where
  nameRead : lastRead name m filename ≤ n
  unitsRead : lastRead name m filename < filenameLength m filename
  equal_iff : blNtfsStrcmp name m filename = 0 ↔ upperName name n = upperFilename m filename
  less_iff : blNtfsStrcmp name m filename < 0 ↔ upperName name n < upperFilename m filename

/-! ## When it is right -/

/-- At `p` the characters differ, as bytes in upper case, for the first time. -/
structure DifferAt (name m : Mem) (filename p : Nat) : Prop where
  before : ∀ i < p, blToupper (name i) = blToupper (filenameChar m filename i)
  here : blToupper (name p) ≠ blToupper (filenameChar m filename p)

/-- What the first bytes that differ say is what the names say. Without a unit above 255 both bytes
are ASCII, or neither is; with one the name is the smaller one. -/
structure Tells (name m : Mem) (filename p : Nat) : Prop where
  bytes : (∀ i ≤ p, filenameUnit m filename i < 256) →
    ((name p).toNat < 128 ↔ (filenameChar m filename p).toNat < 128)
  units : (∃ i ≤ p, 256 ≤ filenameUnit m filename i) →
    blToupper (name p) < blToupper (filenameChar m filename p)

/-- The names are the same, or bytes that tell differ before one of them is through. The terminator
of the string counts. -/
def Comparable (name m : Mem) (filename n : Nat) : Prop :=
  upperName name n = upperFilename m filename ∨
    ∃ p ≤ n, p < filenameLength m filename ∧ DifferAt name m filename p ∧ Tells name m filename p

/-! ## Lists by their characters -/

theorem append_lt_append_iff (common as bs : List Nat) :
    common ++ as < common ++ bs ↔ as < bs := by
  induction common with
  | nil => rfl
  | cons x rest ih => simp [ih]

theorem map_range_split {k : Nat} (α : Nat → Nat) (h : p ≤ k) :
    (List.range k).map α = (List.range p).map α ++ (List.range' p (k - p)).map α := by
  have hrange : List.range' 0 p ++ List.range' (0 + p) (k - p) = List.range' 0 (p + (k - p)) :=
    List.range'_append_1
  rw [Nat.zero_add, Nat.add_sub_cancel' h] at hrange
  rw [← List.map_append, List.range_eq_range', List.range_eq_range', hrange]

theorem map_range_lt_iff {k : Nat} (hn : p ≤ n) (hk : p < k) (hsame : ∀ i < p, α i = υ i)
    (hne : p < n → α p ≠ υ p) :
    (List.range n).map α < (List.range k).map υ ↔ (p < n → α p < υ p) := by
  have hcommon : (List.range p).map α = (List.range p).map υ :=
    List.map_congr_left fun i hi => hsame i (List.mem_range.mp hi)
  have hmore : k - p = (k - p - 1) + 1 := by omega
  rw [map_range_split α hn, map_range_split υ hk.le, hcommon, append_lt_append_iff, hmore,
    List.range'_succ, List.map_cons]
  rcases Nat.lt_or_ge p n with hlt | hge
  · have hmore' : n - p = (n - p - 1) + 1 := by omega
    rw [hmore', List.range'_succ, List.map_cons, List.cons_lt_cons_iff]
    simp [hlt, hne hlt]
  · rw [Nat.sub_eq_zero_of_le hge]
    simp [hge.not_gt]

theorem map_range_eq_iff {k : Nat} :
    (List.range n).map α = (List.range k).map υ ↔ n = k ∧ ∀ i < n, α i = υ i := by
  constructor
  · intro h
    have hlength := congrArg List.length h
    simp only [List.length_map, List.length_range] at hlength
    subst hlength
    exact ⟨rfl, fun i hi => List.map_inj_left.mp h i (List.mem_range.mpr hi)⟩
  · rintro ⟨rfl, h⟩
    exact List.map_congr_left fun i hi => h i (List.mem_range.mp hi)

/-! ## Characters -/

theorem blToupper_eq_iff (c d : Byte) :
    blToupper c = blToupper d ↔ upperUnit c.toNat = upperUnit d.toNat := by
  have hc := c.isLt
  have hd := d.isLt
  unfold blToupper upperUnit
  rw [BitVec.toInt_eq_toNat_cond, BitVec.toInt_eq_toNat_cond]
  dsimp only
  split_ifs <;> omega

theorem blToupper_lt_iff {c d : Byte} (h : c.toNat < 128 ↔ d.toNat < 128) :
    blToupper c < blToupper d ↔ upperUnit c.toNat < upperUnit d.toNat := by
  have hc := c.isLt
  have hd := d.isLt
  unfold blToupper upperUnit
  rw [BitVec.toInt_eq_toNat_cond, BitVec.toInt_eq_toNat_cond]
  dsimp only
  split_ifs <;> omega

theorem upperUnit_lt_256 {u : Nat} : upperUnit u < 256 ↔ u < 256 := by
  unfold upperUnit
  split_ifs <;> omega

theorem filenameChar_toNat (i : Nat) :
    (filenameChar m filename i).toNat = filenameUnit m filename i % 256 := by
  have hlow : filenameUnit m filename i % 256 ^ 1 = readLE m (filename + 66 + 2 * i) 1 :=
    readLE_mod m _ (by omega)
  rw [pow_one] at hlow
  rw [hlow]
  simp [filenameChar, readLE]

theorem filenameChar_of_lt (h : filenameUnit m filename i < 256) :
    (filenameChar m filename i).toNat = filenameUnit m filename i := by
  rw [filenameChar_toNat, Nat.mod_eq_of_lt h]

/-! ## Where the loop stops -/

theorem strcmpFrom_eq (left i : Nat) :
    strcmpFrom name m filename left i =
      blToupper (name (strcmpStop name m filename left i)) -
        blToupper (filenameChar m filename (strcmpStop name m filename left i)) := by
  induction left generalizing i with
  | zero => rfl
  | succ left ih =>
    simp only [strcmpFrom, strcmpStop]
    split_ifs
    · exact ih (i + 1)
    · rfl

theorem strcmpStop_lt (left i : Nat) :
    strcmpStop name m filename (left + 1) i < i + (left + 1) := by
  induction left generalizing i with
  | zero => simp [strcmpStop]
  | succ left ih =>
    rw [strcmpStop]
    split_ifs
    · exact (ih (i + 1)).trans_eq (by omega)
    · omega

theorem strcmpStop_before (left : Nat) {j : Nat} (hi : i ≤ j)
    (hj : j < strcmpStop name m filename left i) :
    blToupper (name j) = blToupper (filenameChar m filename j) := by
  induction left generalizing i with
  | zero => exact absurd hj hi.not_gt
  | succ left ih =>
    rw [strcmpStop] at hj
    split_ifs at hj with hgoes
    · rcases hi.eq_or_lt with rfl | hlt
      · exact hgoes.1
      · exact ih hlt hj
    · exact absurd hj hi.not_gt

theorem strcmpStop_here (left i : Nat) :
    strcmpStop name m filename (left + 1) i + 1 = i + (left + 1) ∨
      blToupper (name (strcmpStop name m filename (left + 1) i)) ≠
        blToupper (filenameChar m filename (strcmpStop name m filename (left + 1) i)) := by
  induction left generalizing i with
  | zero => simp [strcmpStop]
  | succ left ih =>
    rw [strcmpStop]
    split_ifs with hgoes
    · exact (ih (i + 1)).imp (·.trans (by omega)) id
    · exact Or.inr fun hsame => hgoes ⟨hsame, by omega⟩

/-! ## The claims of the order -/

theorem upperName_getElem_lt (i : Nat) : upperUnit (name i).toNat < 256 :=
  upperUnit_lt_256.mpr (name i).isLt

/-- Before a unit above 255 bytes are the same where characters are. -/
theorem same_iff (h : filenameUnit m filename i < 256) :
    blToupper (name i) = blToupper (filenameChar m filename i) ↔
      upperUnit (name i).toNat = upperUnit (filenameUnit m filename i) := by
  rw [blToupper_eq_iff, filenameChar_of_lt h]

theorem upperName_eq_iff : upperName name n = upperFilename m filename ↔
    n = filenameLength m filename ∧
      ∀ i < n, upperUnit (name i).toNat = upperUnit (filenameUnit m filename i) :=
  map_range_eq_iff

theorem same_of_upperName_eq (h : upperName name n = upperFilename m filename) (hi : i < n) :
    blToupper (name i) = blToupper (filenameChar m filename i) := by
  have hunit := (upperName_eq_iff.mp h).2 i hi
  have hlow : filenameUnit m filename i < 256 := by
    rw [← upperUnit_lt_256, ← hunit]
    exact upperName_getElem_lt i
  exact (same_iff hlow).mpr hunit

theorem upperName_lt_iff (hn : p ≤ n) (hp : p < filenameLength m filename)
    (hlow : ∀ i < p, filenameUnit m filename i < 256)
    (hbefore : ∀ i < p, blToupper (name i) = blToupper (filenameChar m filename i))
    (hhere : upperUnit (name p).toNat ≠ upperUnit (filenameUnit m filename p)) :
    upperName name n < upperFilename m filename ↔
      (p < n → upperUnit (name p).toNat < upperUnit (filenameUnit m filename p)) :=
  map_range_lt_iff hn hp (fun i hi => (same_iff (hlow i hi)).mp (hbefore i hi)) fun _ => hhere

/-- A first unit above 255 makes the file name the greater one. -/
theorem upperName_lt_of_wide (hn : p ≤ n) (hp : p < filenameLength m filename)
    (hbefore : ∀ i < p, blToupper (name i) = blToupper (filenameChar m filename i))
    (hwide : ∃ i ≤ p, 256 ≤ filenameUnit m filename i) :
    upperName name n < upperFilename m filename := by
  classical
  let q := Nat.find hwide
  obtain ⟨hq, hunit⟩ := Nat.find_spec hwide
  have hfirst : ∀ i < q, filenameUnit m filename i < 256 := fun i hi =>
    not_le.mp fun hge => Nat.find_min hwide hi ⟨(hi.trans_le hq).le, hge⟩
  have hless : upperUnit (name q).toNat < upperUnit (filenameUnit m filename q) :=
    (upperName_getElem_lt q).trans_le (not_lt.mp (upperUnit_lt_256.not.mpr hunit.not_gt))
  exact (upperName_lt_iff (hq.trans hn) (hq.trans_lt hp) hfirst
    (fun i hi => hbefore i (hi.trans_le hq)) hless.ne).mpr fun _ => hless

theorem upperName_ne (hp : p < filenameLength m filename)
    (hhere : blToupper (name p) ≠ blToupper (filenameChar m filename p)) :
    upperName name n ≠ upperFilename m filename := by
  intro h
  exact hhere (same_of_upperName_eq h ((upperName_eq_iff.mp h).1 ▸ hp))

theorem blToupper_nonneg_iff (c : Byte) : 0 ≤ blToupper c ↔ c.toNat < 128 := by
  have hc := c.isLt
  unfold blToupper
  rw [BitVec.toInt_eq_toNat_cond]
  dsimp only
  split_ifs <;> omega

theorem upperUnit_lt_128 {u : Nat} : upperUnit u < 128 ↔ u < 128 := by
  unfold upperUnit
  split_ifs <;> omega

theorem tells_iff (hend : EndsAfter name n) (hn : p ≤ n) (hp : p < filenameLength m filename)
    (hdiffer : DifferAt name m filename p) :
    (blToupper (name p) < blToupper (filenameChar m filename p) ↔
      upperName name n < upperFilename m filename) ↔ Tells name m filename p := by
  by_cases hwide : ∃ i ≤ p, 256 ≤ filenameUnit m filename i
  · have hless := upperName_lt_of_wide hn hp hdiffer.before hwide
    constructor
    · intro h
      refine ⟨fun hlow => ?_, fun _ => h.mpr hless⟩
      obtain ⟨i, hi, hunit⟩ := hwide
      exact absurd (hlow i hi) hunit.not_gt
    · intro h
      exact iff_of_true (h.units hwide) hless
  push Not at hwide
  have hchar := filenameChar_of_lt (hwide p le_rfl)
  have hhere : upperUnit (name p).toNat ≠ upperUnit (filenameUnit m filename p) :=
    (same_iff (hwide p le_rfl)).not.mp hdiffer.here
  rw [upperName_lt_iff hn hp (fun i hi => hwide i hi.le) hdiffer.before hhere]
  -- The terminator is less than every character that differs from it.
  have hlast : ¬ p < n → (name p).toNat = 0 := fun hge => by
    rw [Nat.le_antisymm hn (not_lt.mp hge), hend.2]
    rfl
  have hless : (p < n → upperUnit (name p).toNat < upperUnit (filenameUnit m filename p)) ↔
      upperUnit (name p).toNat < upperUnit (filenameUnit m filename p) := by
    refine ⟨fun h => ?_, fun h _ => h⟩
    by_cases hlt : p < n
    · exact h hlt
    · rw [hlast hlt] at hhere ⊢
      exact Nat.pos_of_ne_zero (Ne.symm hhere)
  rw [hless, ← hchar]
  constructor
  · intro h
    refine ⟨fun _ => ?_, fun ⟨i, hi, hunit⟩ => absurd (hwide i hi) hunit.not_gt⟩
    have hc := blToupper_nonneg_iff (name p)
    have hd := blToupper_nonneg_iff (filenameChar m filename p)
    have hc' := upperUnit_lt_128 (u := (name p).toNat)
    have hd' := upperUnit_lt_128 (u := (filenameChar m filename p).toNat)
    omega
  · intro h
    exact blToupper_lt_iff (h.bytes hwide)

/-! ## The comparison -/

theorem lastRead_lt (hlength : 1 ≤ filenameLength m filename) :
    lastRead name m filename < filenameLength m filename := by
  obtain ⟨left, hleft⟩ := Nat.exists_eq_add_of_le' hlength
  rw [lastRead, hleft]
  exact (strcmpStop_lt left 0).trans_eq (Nat.zero_add _)

theorem lastRead_before (hi : i < lastRead name m filename) :
    blToupper (name i) = blToupper (filenameChar m filename i) :=
  strcmpStop_before _ i.zero_le hi

theorem lastRead_here (name : Mem) (hlength : 1 ≤ filenameLength m filename) :
    lastRead name m filename + 1 = filenameLength m filename ∨
      blToupper (name (lastRead name m filename)) ≠
        blToupper (filenameChar m filename (lastRead name m filename)) := by
  obtain ⟨left, hleft⟩ := Nat.exists_eq_add_of_le' hlength
  rw [lastRead, hleft]
  exact (strcmpStop_here left 0).imp_left (·.trans (Nat.zero_add _))

theorem blNtfsStrcmp_eq (hlength : 1 ≤ filenameLength m filename) :
    blNtfsStrcmp name m filename =
      blToupper (name (lastRead name m filename)) -
        blToupper (filenameChar m filename (lastRead name m filename)) := by
  have hpositive : (m (filename + 64)).toNat ≠ 0 := Nat.one_le_iff_ne_zero.mp hlength
  simp only [blNtfsStrcmp, if_neg hpositive, strcmpFrom_eq]
  rfl

theorem lastRead_of_differ (hlength : 1 ≤ filenameLength m filename)
    (hp : p < filenameLength m filename) (hdiffer : DifferAt name m filename p) :
    lastRead name m filename = p := by
  have hhere := lastRead_here name hlength
  rcases lt_trichotomy (lastRead name m filename) p with hlt | heq | hgt
  · rcases hhere with hlast | hdiff
    · omega
    · exact absurd (hdiffer.before _ hlt) hdiff
  · exact heq
  · exact absurd (lastRead_before hgt) hdiffer.here

theorem comparedRight_of_eq (hlength : 1 ≤ filenameLength m filename)
    (hsame : upperName name n = upperFilename m filename) : ComparedRight name m filename n := by
  have hn := (upperName_eq_iff.mp hsame).1
  have hlast : lastRead name m filename < n := (lastRead_lt hlength).trans_eq hn.symm
  have hequal : blNtfsStrcmp name m filename = 0 := by
    rw [blNtfsStrcmp_eq hlength, sub_eq_zero]
    exact same_of_upperName_eq hsame hlast
  refine ⟨hlast.le, lastRead_lt hlength, iff_of_true hequal hsame, ?_⟩
  rw [hequal, hsame]
  exact iff_of_false (lt_irrefl 0) (lt_irrefl _)

theorem comparedRight_of_differ (hend : EndsAfter name n) (hlength : 1 ≤ filenameLength m filename)
    (hn : p ≤ n) (hp : p < filenameLength m filename) (hdiffer : DifferAt name m filename p)
    (htells : Tells name m filename p) : ComparedRight name m filename n := by
  have hlast := lastRead_of_differ hlength hp hdiffer
  refine ⟨hlast.trans_le hn, lastRead_lt hlength, ?_, ?_⟩
  · rw [blNtfsStrcmp_eq hlength, hlast, sub_eq_zero]
    exact iff_of_false hdiffer.here (upperName_ne hp hdiffer.here)
  · rw [blNtfsStrcmp_eq hlength, hlast, sub_neg]
    exact (tells_iff hend hn hp hdiffer).mpr htells

/-- A name is compared right exactly when it is the file name, in upper case, or bytes that tell
differ before either of them is through. -/
theorem compared_right_iff (hend : EndsAfter name n) (hlength : 1 ≤ filenameLength m filename) :
    ComparedRight name m filename n ↔ Comparable name m filename n := by
  constructor
  · rintro ⟨hname, hunits, hequal, hless⟩
    by_cases hsame : upperName name n = upperFilename m filename
    · exact Or.inl hsame
    have hdiffer : DifferAt name m filename (lastRead name m filename) := by
      refine ⟨fun i hi => lastRead_before hi, fun h => hsame (hequal.mp ?_)⟩
      rw [blNtfsStrcmp_eq hlength, h, sub_self]
    rw [blNtfsStrcmp_eq hlength, sub_neg] at hless
    exact Or.inr ⟨_, hname, hunits, hdiffer, (tells_iff hend hname hunits hdiffer).mp hless⟩
  · rintro (hsame | ⟨p, hn, hp, hdiffer, htells⟩)
    · exact comparedRight_of_eq hlength hsame
    · exact comparedRight_of_differ hend hlength hn hp hdiffer htells

/-! ## A name that a file's begins -/

/-- The file name `A`, and the string `AB`. -/
def fileA : Mem := writeLE (writeLE (fun _ => 0) 64 1 1) 66 2 0x41

def stringAb : Mem := writeLE (fun _ => 0) 0 2 0x4241

theorem stringAb_ends : EndsAfter stringAb 2 := by
  refine ⟨?_, by decide⟩
  decide

theorem stringAb_compared_iff :
    ComparedRight stringAb fileA 0 2 ↔ Comparable stringAb fileA 0 2 :=
  compared_right_iff stringAb_ends (by decide)

/-- `AB` is not told apart from the file `A`. -/
theorem stringAb_not_compared : ¬ ∀ name m filename n, EndsAfter name n →
    1 ≤ filenameLength m filename → ComparedRight name m filename n := by
  intro h
  have hequal : upperName stringAb 2 = upperFilename fileA 0 :=
    (h stringAb fileA 0 2 stringAb_ends (by decide)).equal_iff.mp (by decide)
  exact absurd hequal (by decide)

end BootLoader.Ntfs
