import BootLoader.Utils.Compare

/-!
# Comparisons that leave out the case (`core/utils/string.c`)

The loop compares the characters in lower case; what is returned is the difference of the two that
it stops at, as they are.
-/

open ByteMemory ThreeWay

namespace BootLoader.Utils.Compare

variable {m : Mem} {a b c : CString m} {fold : Int → Int} {limit : Option Nat}

/-- An upper-case letter `c`, and a `d` between `Z` and its lower-case form: the two are in the
other order once the case is left out. -/
def StandsBetween (c d : Int) : Prop := (0x41 ≤ c ∧ c ≤ 0x5a) ∧ 0x5a < d ∧ d < blTolower c

/-- Neither string has ended before its character `k`, and up to there they differ in case alone. -/
def AgreeBefore (s t : List Byte) (k : Nat) : Prop :=
  k ≤ s.length ∧ k ≤ t.length ∧ ∀ j < k, blTolower (charAt s j) = blTolower (charAt t j)

/-- Wherever the comparison gets to, leaving out the case does not turn the two characters round,
and where the limit is reached they do not differ in case alone. -/
def CaseHarmless (limit : Option Nat) (s t : List Byte) : Prop :=
  ∀ k, AgreeBefore s t k → (∀ n ∈ limit, k < n) →
    ¬ StandsBetween (charAt s k) (charAt t k) ∧ ¬ StandsBetween (charAt t k) (charAt s k) ∧
    (limit = some (k + 1) → blTolower (charAt s k) = blTolower (charAt t k) →
      charAt s k = charAt t k)

/-! ## Where the loop stops -/

theorem keepsNul_blTolower : KeepsNul blTolower := by
  intro c hc h
  refine hc (BitVec.eq_of_toInt_eq ?_)
  have hzero : (0 : Byte).toInt = 0 := rfl
  unfold folded blTolower at h
  rw [hzero] at h ⊢
  split_ifs at h <;> omega

theorem StandsBetween.blTolower_ne {x y : Int} (h : StandsBetween x y) :
    blTolower x ≠ blTolower y := by
  obtain ⟨-, hbehind, hbefore⟩ := h
  have hy : blTolower y = y := if_neg (by omega)
  rw [hy]
  exact hbefore.ne'

theorem tells_blTolower_iff (x y : Int) :
    Tells (x - y) (blTolower x) (blTolower y) ↔
      (blTolower x = blTolower y → x = y) ∧ ¬ StandsBetween x y ∧ ¬ StandsBetween y x := by
  have hiff : Tells (x - y) (blTolower x) (blTolower y) ↔
      (x - y = 0 ↔ blTolower x = blTolower y) ∧ (x - y < 0 ↔ blTolower x < blTolower y) :=
    ⟨fun h => ⟨h.zero, h.neg⟩, fun h => ⟨h.1, h.2⟩⟩
  rw [hiff]
  unfold StandsBetween blTolower
  split_ifs <;> omega

theorem agreeBefore_stopAt (s t : List Byte) :
    AgreeBefore s t (stopAt (folded blTolower) limit s t) := by
  refine ⟨stopAt_le _ _ _, ?_, fun j hj => key_eq_of_lt_stopAt hj⟩
  rw [stopAt_comm]
  exact stopAt_le _ _ _

theorem caseHarmless_iff (a b : CString m) (hlimit : limit ≠ some 0) :
    CaseHarmless limit a.text b.text ↔
      let k := stopAt (folded blTolower) limit a.text b.text
      (blTolower (charAt a.text k) = blTolower (charAt b.text k) →
        charAt a.text k = charAt b.text k) ∧
      ¬ StandsBetween (charAt a.text k) (charAt b.text k) ∧
      ¬ StandsBetween (charAt b.text k) (charAt a.text k) := by
  have hbound : ∀ n ∈ limit, stopAt (folded blTolower) limit a.text b.text < n := by
    rintro n rfl
    exact stopAt_lt (fun h => hlimit (congrArg some h)) _ _
  constructor
  · intro h
    obtain ⟨hab, hba, hlast⟩ := h _ (agreeBefore_stopAt a.text b.text) hbound
    refine ⟨fun heq => ?_, hab, hba⟩
    rcases stopAt_of_key_eq hlimit (a.key_ne keepsNul_blTolower) (b.key_ne keepsNul_blTolower) heq
      with hend | ⟨ha, hb⟩
    · exact hlast hend heq
    · rw [charAt, charAt, List.getD_eq_default _ _ ha.le, List.getD_eq_default _ _ hb.le]
  · rintro ⟨hcase, hab, hba⟩ k ⟨ha, hb, hagree⟩ hk
    have hle : k ≤ stopAt (folded blTolower) limit a.text b.text := le_stopAt ha hb hagree hk
    rcases hle.lt_or_eq with hlt | rfl
    -- The loop goes on at `k`: there the characters are the same but for case.
    · have heq : blTolower (charAt a.text k) = blTolower (charAt b.text k) :=
        key_eq_of_lt_stopAt hlt
      refine ⟨fun h => h.blTolower_ne heq, fun h => h.blTolower_ne heq.symm, ?_⟩
      rintro rfl
      have := hbound (k + 1) rfl
      omega
    · exact ⟨hab, hba, fun _ => hcase⟩

theorem compared_case_iff (limit : Option Nat) (a b : CString m) :
    Decides blTolower limit a.text b.text (compared blTolower limit a b).result ↔
      CaseHarmless limit a.text b.text := by
  by_cases hlimit : limit = some 0
  · rw [compared, if_pos hlimit, hlimit]
    exact iff_of_true (decides_zero _ _ _) fun k _ hk => absurd (hk 0 rfl) (Nat.not_lt_zero k)
  · rw [compared_decides_iff keepsNul_blTolower a b hlimit, caseHarmless_iff a b hlimit]
    exact tells_blTolower_iff _ _

/-! ## Transitivity -/

theorem compared_trans_of_harmless (hab : CaseHarmless limit a.text b.text)
    (hbc : CaseHarmless limit b.text c.text) (hac : CaseHarmless limit a.text c.text)
    (h : (compared blTolower limit a b).result ≤ 0)
    (h' : (compared blTolower limit b c).result ≤ 0) :
    (compared blTolower limit a c).result ≤ 0 := by
  have htells : ∀ {a b : CString m}, CaseHarmless limit a.text b.text →
      Tells (compared blTolower limit a b).result (keys (folded blTolower) 0 limit a.text)
        (keys (folded blTolower) 0 limit b.text) :=
    fun h => (decides_iff keepsNul_blTolower _ _).mp ((compared_case_iff _ _ _).mpr h)
  exact (htells hab).trans (htells hbc) (htells hac) h h'

/-- `bl_strcasecmp` is transitive, or `bl_strncasecmp` where there is a limit. -/
def CaseTransitive (limit : Option Nat) : Prop :=
  ∀ (m : Mem) (a b c : CString m) (r r' r'' : Compared),
    compareStrings blTolower limit m a.ptr b.ptr = some r →
    compareStrings blTolower limit m b.ptr c.ptr = some r' →
    compareStrings blTolower limit m a.ptr c.ptr = some r'' →
    r.result ≤ 0 → r'.result ≤ 0 → r''.result ≤ 0

/-- `a`, `B` and `b`. -/
def letters : Mem := ofPieces [(0x1000, [0x61, 0]), (0x2000, [0x42, 0]), (0x3000, [0x62, 0])]

def lowerA : CString letters :=
  ⟨0x1000, [0x61], ⟨by decide, by decide, trivial⟩, by decide, by decide, by decide⟩

def upperB : CString letters :=
  ⟨0x2000, [0x42], ⟨by decide, by decide, trivial⟩, by decide, by decide, by decide⟩

def lowerB : CString letters :=
  ⟨0x3000, [0x62], ⟨by decide, by decide, trivial⟩, by decide, by decide, by decide⟩

/-- With two characters at the least, `b` is the same as `B`, and `B` comes before `a`. -/
theorem compared_letters (h₀ : limit ≠ some 0) (h₁ : limit ≠ some 1) :
    (compared blTolower limit lowerB upperB).result = 0 ∧
      (compared blTolower limit upperB lowerA).result = -31 ∧
      (compared blTolower limit lowerB lowerA).result = 1 := by
  have hgo : limit.map (· - 1) ≠ some 0 := by
    intro h
    obtain ⟨n, rfl, hn⟩ := Option.map_eq_some_iff.mp h
    have hn₀ : n ≠ 0 := fun hn => h₀ (congrArg some hn)
    have hn₁ : n ≠ 1 := fun hn => h₁ (congrArg some hn)
    omega
  refine ⟨?_, ?_, ?_⟩ <;>
    simp [compared, h₀, hgo, lowerA, upperB, lowerB, stopAt, folded, blTolower, charAt]

theorem compared_one (a b : CString m) :
    (compared fold (some 1) a b).result = charAt a.text 0 - charAt b.text 0 := by
  have hstop : stopAt (folded fold) (some 1) a.text b.text = 0 :=
    Nat.lt_one_iff.mp (stopAt_lt one_ne_zero a.text b.text)
  rw [compared, if_neg (by decide), hstop]

theorem caseTransitive_iff : CaseTransitive limit ↔ limit = some 0 ∨ limit = some 1 := by
  unfold CaseTransitive
  simp only [compareStrings_eq, Option.some.injEq]
  constructor
  · intro h
    by_contra hneither
    obtain ⟨h₀, h₁⟩ := not_or.mp hneither
    obtain ⟨hsame, hbefore, hbehind⟩ := compared_letters h₀ h₁
    have hle : (compared blTolower limit lowerB lowerA).result ≤ 0 :=
      h _ lowerB upperB lowerA _ _ _ rfl rfl rfl hsame.le (by omega)
    omega
  · rintro (rfl | rfl) m a b c _ _ _ rfl rfl rfl hab hbc
    · exact le_rfl
    · rw [compared_one] at *
      omega

/-- **When the case is left out.** The result is wrong where the characters at the first difference
are in the other order, and where the limit is reached at a difference of case. -/
theorem case_left_out_iff (m : Mem) :
    (∃ compare : Option Nat → CString m → CString m → Compared,
      (∀ a b, blStrcasecmp m a.ptr b.ptr = some (compare none a b)) ∧
      (∀ n a b, blStrncasecmp m a.ptr b.ptr n = some (compare (some n) a b)) ∧
      ∀ limit,
        (∀ a b, Decides blTolower limit a.text b.text (compare limit a b).result ↔
          CaseHarmless limit a.text b.text) ∧
        (∀ a b, (compare limit b a).result = -(compare limit a b).result) ∧
        ∀ a b c, CaseHarmless limit a.text b.text → CaseHarmless limit b.text c.text →
          CaseHarmless limit a.text c.text → (compare limit a b).result ≤ 0 →
          (compare limit b c).result ≤ 0 → (compare limit a c).result ≤ 0) ∧
    ∀ limit, CaseTransitive limit ↔ limit = some 0 ∨ limit = some 1 := by
  refine ⟨⟨compared blTolower, compareStrings_eq blTolower none,
    fun n => compareStrings_eq blTolower (some n), fun limit => ?_⟩, fun _ => caseTransitive_iff⟩
  exact ⟨compared_case_iff limit, compared_swap blTolower limit,
    fun _ _ _ => compared_trans_of_harmless⟩

/-- `B` comes before `a`, and `b` is not the same as `B` up to the first character. -/
theorem case_not_left_out :
    (¬ ∀ (m : Mem) (a b : CString m), ∃ r, blStrcasecmp m a.ptr b.ptr = some r ∧
      Decides blTolower none a.text b.text r.result) ∧
    ¬ ∀ (m : Mem) (a b : CString m) (n : Nat), ∃ r, blStrncasecmp m a.ptr b.ptr n = some r ∧
      Decides blTolower (some n) a.text b.text r.result := by
  constructor
  · intro h
    obtain ⟨r, hr, hdecides⟩ := h letters upperB lowerA
    obtain rfl : compared blTolower none upperB lowerA = r :=
      Option.some.inj ((compareStrings_eq _ _ _ _).symm.trans hr)
    have hagree : AgreeBefore upperB.text lowerA.text 0 := ⟨by decide, by decide, by simp⟩
    have hharmless := (compared_case_iff _ _ _).mp hdecides 0 hagree (by simp)
    have hbetween : StandsBetween 0x42 0x61 := ⟨by decide, by decide, by decide⟩
    exact hharmless.1 hbetween
  · intro h
    obtain ⟨r, hr, hdecides⟩ := h letters lowerB upperB 1
    obtain rfl : compared blTolower (some 1) lowerB upperB = r :=
      Option.some.inj ((compareStrings_eq _ _ _ _).symm.trans hr)
    have hsame := hdecides.same.mpr rfl
    rw [compared_one] at hsame
    exact absurd hsame (by decide)

end BootLoader.Utils.Compare
