import BootLoader.Lib.ByteMemory

/-!
# Strings (`core/utils/string.c`)

A string is what a pointer points to. It ends at its first zero, or where a limit cuts it off.
-/

open ByteMemory

namespace BootLoader.Utils

/-- The loop of `bl_strncpy`, `left` more bytes at most. -/
def strncpyFrom (src : Mem) : Nat → Nat → Mem → Mem
  | 0, _, dest => dest
  | left + 1, i, dest =>
    let dest := store dest i (src i)
    if src i = 0 then dest else strncpyFrom src left (i + 1) dest

/-- `bl_strncpy`, for a limit that is not zero. A string as long as the limit gets no zero. -/
def blStrncpy (dest src : Mem) (n : Nat) : Mem := strncpyFrom src n 0 dest

/-- The loop of `bl_strncmp`. -/
def strncmpFrom (s₁ s₂ : Mem) : Nat → Nat → Int
  | 0, _ => 0
  | left + 1, i =>
    if s₁ i = s₂ i ∧ s₁ i ≠ 0 ∧ left ≠ 0 then strncmpFrom s₁ s₂ left (i + 1)
    else (s₁ i).toInt - (s₂ i).toInt

def blStrncmp (s₁ s₂ : Mem) (n : Nat) : Int := strncmpFrom s₁ s₂ n 0

/-! ## The same string, up to a limit -/

/-- From `i` on, up to `n`, the strings agree until one of them ends. -/
def SameFrom (n i : Nat) (s₁ s₂ : Mem) : Prop :=
  ∀ k, i ≤ k → k < n → (∀ j, i ≤ j → j < k → s₁ j ≠ 0) → s₁ k = s₂ k

/-- The strings are the same if cut off after `n` bytes. -/
def SameString (n : Nat) (s₁ s₂ : Mem) : Prop := SameFrom n 0 s₁ s₂

variable {s₁ s₂ s₃ : Mem} {n i left : Nat}

theorem SameFrom.symm (h : SameFrom n i s₁ s₂) : SameFrom n i s₂ s₁ := by
  intro k
  induction k using Nat.strong_induction_on with
  | _ k ih =>
    intro hi hk hbefore
    refine (h k hi hk fun j hj hjk => ?_).symm
    rw [← ih j hjk hj (by omega) fun j' hj' hj'j => hbefore j' hj' (by omega)]
    exact hbefore j hj hjk

theorem SameFrom.trans (h : SameFrom n i s₁ s₂) (h' : SameFrom n i s₂ s₃) :
    SameFrom n i s₁ s₃ := by
  intro k hi hk hbefore
  rw [h k hi hk hbefore]
  refine h' k hi hk fun j hj hjk => ?_
  rw [← h j hj (by omega) fun j' hj' hj'j => hbefore j' hj' (by omega)]
  exact hbefore j hj hjk

theorem SameString.symm (h : SameString n s₁ s₂) : SameString n s₂ s₁ := SameFrom.symm h

theorem SameString.trans (h : SameString n s₁ s₂) (h' : SameString n s₂ s₃) :
    SameString n s₁ s₃ := SameFrom.trans h h'

theorem sameFrom_step (hi : i < n) :
    SameFrom n i s₁ s₂ ↔ s₁ i = s₂ i ∧ (s₁ i ≠ 0 → SameFrom n (i + 1) s₁ s₂) := by
  constructor
  · refine fun h => ⟨h i le_rfl hi fun j hj hji => by omega, fun hne k hk hkn hbefore => ?_⟩
    refine h k (by omega) hkn fun j hj hjk => ?_
    rcases Nat.eq_or_lt_of_le hj with rfl | hj
    · exact hne
    · exact hbefore j hj hjk
  · rintro ⟨hhead, hrest⟩ k hk hkn hbefore
    rcases Nat.eq_or_lt_of_le hk with rfl | hk
    · exact hhead
    · exact hrest (hbefore i le_rfl hk) k hk hkn fun j hj hjk => hbefore j (by omega) hjk

theorem toInt_sub_eq_zero_iff (a b : Byte) : a.toInt - b.toInt = 0 ↔ a = b :=
  ⟨fun h => BitVec.eq_of_toInt_eq (by omega), fun h => by rw [h, Int.sub_self]⟩

theorem strncmpFrom_eq_zero_iff (h : i + left = n) :
    strncmpFrom s₁ s₂ left i = 0 ↔ SameFrom n i s₁ s₂ := by
  induction left generalizing i with
  | zero => exact iff_of_true rfl fun k hk hkn => by omega
  | succ left ih =>
    rw [sameFrom_step (by omega), strncmpFrom]
    by_cases hgo : s₁ i = s₂ i ∧ s₁ i ≠ 0 ∧ left ≠ 0
    · obtain ⟨heq, hne, hleft⟩ := hgo
      rw [if_pos ⟨heq, hne, hleft⟩, ih (by omega)]
      exact ⟨fun h => ⟨heq, fun _ => h⟩, fun h => h.2 hne⟩
    · rw [if_neg hgo, toInt_sub_eq_zero_iff]
      refine ⟨fun heq => ⟨heq, fun hne k hk hkn => ?_⟩, fun h => h.1⟩
      have hlast : left = 0 := by
        by_contra hleft
        exact hgo ⟨heq, hne, hleft⟩
      omega

theorem blStrncmp_eq_zero_iff : blStrncmp s₁ s₂ n = 0 ↔ SameString n s₁ s₂ :=
  strncmpFrom_eq_zero_iff (Nat.zero_add n)

theorem strncpyFrom_before {dest : Mem} {k : Nat} (hk : k < i) :
    strncpyFrom s₁ left i dest k = dest k := by
  induction left generalizing i dest with
  | zero => rfl
  | succ left ih =>
    rw [strncpyFrom]
    split_ifs
    · exact store_other _ _ (by omega)
    · rw [ih (by omega), store_other _ _ (by omega)]

theorem strncpyFrom_same {dest : Mem} (h : i + left = n) :
    SameFrom n i s₁ (strncpyFrom s₁ left i dest) := by
  induction left generalizing i dest with
  | zero => exact fun k hk hkn => by omega
  | succ left ih =>
    rw [sameFrom_step (by omega), strncpyFrom]
    split_ifs with hzero
    · exact ⟨(store_same _ _ _).symm, fun hne => absurd hzero hne⟩
    · refine ⟨?_, fun _ => ih (by omega)⟩
      rw [strncpyFrom_before (Nat.lt_succ_self i), store_same]

theorem blStrncpy_same (dest src : Mem) (n : Nat) : SameString n src (blStrncpy dest src n) :=
  strncpyFrom_same (Nat.zero_add n)

end BootLoader.Utils
