import Mathlib.Data.Nat.Bitwise
import Mathlib.Logic.Function.Iterate
import Mathlib.Tactic.Ring

/-! # 64-bit division (`core/utils/divmod64.c`) -/

namespace BootLoader.Utils

variable {n q r d : BitVec 64}

/-- The loop of `bl_divmod64` with `i` bits of the dividend to go. -/
def divmodFrom (d : BitVec 64) : Nat → BitVec 64 → BitVec 64 → BitVec 64 →
    BitVec 64 × BitVec 64
  | 0, _, q, r => (q, r)
  | i + 1, n, q, r =>
    let r := r <<< 1
    let r := if n &&& 1 <<< 63 ≠ 0 then r ||| 1 else r
    let q := q <<< 1
    let n := n <<< 1
    if d ≤ r then divmodFrom d i n (q ||| 1) (r - d) else divmodFrom d i n q r

def blDivmod64 (n d : BitVec 64) : BitVec 64 × BitVec 64 := divmodFrom d 64 n 0 0

/-- `n`, `_q` and `_r` between two rounds. -/
structure Registers where
  n : BitVec 64
  q : BitVec 64
  r : BitVec 64

/-- One round of the loop. -/
def divmodRound (d : BitVec 64) (s : Registers) : Registers :=
  let r := s.r <<< 1
  let r := if s.n &&& 1 <<< 63 ≠ 0 then r ||| 1 else r
  let q := s.q <<< 1
  if d ≤ r then ⟨s.n <<< 1, q ||| 1, r - d⟩ else ⟨s.n <<< 1, q, r⟩

/-! ## One bit -/

theorem topBit_iff : n &&& 1 <<< 63 ≠ 0 ↔ 2 ^ 63 ≤ n.toNat := by
  have hpow : (1 <<< 63 : BitVec 64) = BitVec.twoPow 64 63 := by decide
  have htop : n.getLsbD 63 = true ↔ 2 ^ 63 ≤ n.toNat := by
    change n.toNat.testBit 63 = true ↔ _
    rw [Nat.testBit_eq_decide_div_mod_eq, decide_eq_true_iff]
    omega
  rw [← htop, hpow, BitVec.and_twoPow]
  cases n.getLsbD 63 <;> decide

theorem toNat_shiftIn (h : r.toNat < 2 ^ 63) :
    (r <<< 1).toNat = 2 * r.toNat ∧ (r <<< 1 ||| 1).toNat = 2 * r.toNat + 1 := by
  have hshift : (r <<< 1).toNat = 2 * r.toNat := by
    rw [BitVec.toNat_shiftLeft, Nat.shiftLeft_eq]
    omega
  have hor : r <<< 1 + 1 = r <<< 1 ||| 1 := BitVec.shiftLeft_add_eq_shiftLeft_or (x := 1#64)
  refine ⟨hshift, ?_⟩
  rw [← hor, BitVec.toNat_add, hshift]
  change (2 * r.toNat + 1) % 2 ^ 64 = _
  omega

/-- What is divided after `64 - i` bits are those bits of `whole`. The bits to go stand at the top
of `n`. -/
structure Dividing (whole i : Nat) (d n q r : BitVec 64) : Prop where
  remainder_lt : r.toNat < d.toNat
  divided : whole / 2 ^ i = q.toNat * d.toNat + r.toNat
  rest : n.toNat * 2 ^ i = whole % 2 ^ i * 2 ^ 64
  quotient_lt : q.toNat < 2 ^ (64 - i)

theorem next_bit {whole i left : Nat} (hleft : left < 2 ^ 64)
    (h : left * 2 ^ (i + 1) = whole % 2 ^ (i + 1) * 2 ^ 64) :
    ∃ bit, (bit = 0 ∧ left < 2 ^ 63 ∨ bit = 1 ∧ 2 ^ 63 ≤ left) ∧
      whole / 2 ^ i = 2 * (whole / 2 ^ (i + 1)) + bit ∧
      2 * left % 2 ^ 64 * 2 ^ i = whole % 2 ^ i * 2 ^ 64 := by
  have hhalf : whole / 2 ^ (i + 1) = whole / 2 ^ i / 2 := by
    rw [pow_succ, Nat.div_div_eq_div_mul]
  have hlow : whole % 2 ^ (i + 1) = whole / 2 ^ i % 2 * 2 ^ i + whole % 2 ^ i := by
    rw [pow_succ, Nat.mod_mul, Nat.add_comm, Nat.mul_comm]
  have hrest : whole % 2 ^ i < 2 ^ i := Nat.mod_lt _ (Nat.two_pow_pos i)
  have htwice : 2 * (left * 2 ^ i) = left * 2 ^ (i + 1) := by
    rw [pow_succ]
    ring
  rw [← htwice, hlow] at h
  rcases Nat.mod_two_eq_zero_or_one (whole / 2 ^ i) with hbit | hbit
  · rw [hbit, Nat.zero_mul, Nat.zero_add] at h
    have hsmall : left < 2 ^ 63 := by
      by_contra hge
      have hmul := Nat.mul_le_mul_right (2 ^ i) (not_lt.mp hge)
      omega
    refine ⟨0, Or.inl ⟨rfl, hsmall⟩, by omega, ?_⟩
    rw [Nat.mod_eq_of_lt (by omega), mul_assoc, h]
  · rw [hbit, Nat.one_mul] at h
    have hlarge : 2 ^ 63 ≤ left := by
      by_contra hlt
      have hmul := Nat.mul_le_mul_right (2 ^ i) (show left ≤ 2 ^ 63 - 1 by omega)
      omega
    refine ⟨1, Or.inr ⟨rfl, hlarge⟩, by omega, ?_⟩
    rw [show 2 * left % 2 ^ 64 = 2 * left - 2 ^ 64 by omega, Nat.sub_mul, mul_assoc, h]
    omega

/-- A remainder is no larger than the bits that it comes from, however large the divisor is. -/
theorem Dividing.top_bits {whole i : Nat} (hwhole : whole < 2 ^ 64) (hi : i < 64)
    (h : Dividing whole (i + 1) d n q r) : r.toNat < 2 ^ 63 ∧ q.toNat < 2 ^ 63 := by
  have hbits : whole / 2 ^ (i + 1) < 2 ^ 63 := by
    have hle : 2 ^ 1 ≤ 2 ^ (i + 1) := Nat.pow_le_pow_right (by omega) (by omega)
    exact (Nat.div_le_div_left hle (by omega)).trans_lt (by omega)
  have hr := h.divided
  exact ⟨by omega, h.quotient_lt.trans_le (Nat.pow_le_pow_right (by omega) (by omega))⟩

theorem Dividing.round {whole i : Nat} (hwhole : whole < 2 ^ 64) (hi : i < 64)
    (h : Dividing whole (i + 1) d n q r) :
    Dividing whole i d (divmodRound d ⟨n, q, r⟩).n (divmodRound d ⟨n, q, r⟩).q
      (divmodRound d ⟨n, q, r⟩).r := by
  obtain ⟨hrlt, hqlt⟩ := h.top_bits hwhole hi
  obtain ⟨hr, hdivided, hrest, hq⟩ := h
  obtain ⟨bit, hbit, hhead, hrest⟩ := next_bit n.isLt hrest
  have hqspace : 2 ^ (64 - i) = 2 * 2 ^ (64 - (i + 1)) := by
    rw [← pow_succ']
    congr 1
    omega
  obtain ⟨hr0, hr1⟩ := toNat_shiftIn hrlt
  obtain ⟨hq0, hq1⟩ := toNat_shiftIn hqlt
  have hn : (n <<< 1).toNat = 2 * n.toNat % 2 ^ 64 := by
    rw [BitVec.toNat_shiftLeft, Nat.shiftLeft_eq, pow_one, Nat.mul_comm]
  rw [hdivided] at hhead
  obtain ⟨r', hr', hcode⟩ : ∃ r' : BitVec 64, r'.toNat = 2 * r.toNat + bit ∧
      (if n &&& 1 <<< 63 ≠ 0 then r <<< 1 ||| 1 else r <<< 1) = r' := by
    refine ⟨_, ?_, rfl⟩
    rcases hbit with ⟨rfl, hlt⟩ | ⟨rfl, hge⟩
    · rw [if_neg (topBit_iff.not.mpr (by omega)), hr0, Nat.add_zero]
    · rw [if_pos (topBit_iff.mpr hge), hr1]
  unfold divmodRound
  simp only [hcode]
  by_cases hle : d ≤ r'
  · have hle' : d.toNat ≤ r'.toNat := hle
    have hsub : (r' - d).toNat = r'.toNat - d.toNat := BitVec.toNat_sub_of_le hle
    have hmul : (2 * q.toNat + 1) * d.toNat = 2 * (q.toNat * d.toNat) + d.toNat := by ring
    rw [if_pos hle]
    dsimp only
    refine ⟨by omega, ?_, hn ▸ hrest, by omega⟩
    rw [hhead, hq1, hmul, hsub]
    omega
  · have hlt : r'.toNat < d.toNat := not_le.mp hle
    have hmul : 2 * q.toNat * d.toNat = 2 * (q.toNat * d.toNat) := by ring
    rw [if_neg hle]
    dsimp only
    refine ⟨hlt, ?_, hn ▸ hrest, by omega⟩
    rw [hhead, hq0, hmul]
    omega

theorem Dividing.rounds {whole i : Nat} (hwhole : whole < 2 ^ 64) (hi : i ≤ 64)
    (h : Dividing whole 64 d n q r) :
    Dividing whole (64 - i) d ((divmodRound d)^[i] ⟨n, q, r⟩).n ((divmodRound d)^[i] ⟨n, q, r⟩).q
      ((divmodRound d)^[i] ⟨n, q, r⟩).r := by
  induction i with
  | zero => exact h
  | succ i ih =>
    have hbefore := ih (by omega)
    rw [show 64 - i = 64 - (i + 1) + 1 by omega] at hbefore
    rw [Function.iterate_succ_apply']
    exact hbefore.round hwhole (by omega)

theorem dividing_start (n : BitVec 64) (hd : 0 < d.toNat) : Dividing n.toNat 64 d n 0 0 := by
  refine ⟨hd, ?_, ?_, Nat.two_pow_pos _⟩
  · simp [Nat.div_eq_of_lt n.isLt]
  · rw [Nat.mod_eq_of_lt n.isLt]

theorem divmodFrom_eq_rounds (d : BitVec 64) (i : Nat) (n q r : BitVec 64) :
    divmodFrom d i n q r =
      (((divmodRound d)^[i] ⟨n, q, r⟩).q, ((divmodRound d)^[i] ⟨n, q, r⟩).r) := by
  induction i generalizing n q r with
  | zero => rfl
  | succ i ih =>
    rw [Function.iterate_succ_apply, divmodFrom, divmodRound]
    dsimp only
    split_ifs <;> exact ih _ _ _

/-- The registers after `i` rounds of `bl_divmod64`. -/
def roundsOf (n d : BitVec 64) (i : Nat) : Registers := (divmodRound d)^[i] ⟨n, 0, 0⟩

theorem blDivmod64_eq (n : BitVec 64) (hd : 0 < d.toNat) :
    (blDivmod64 n d).1.toNat = n.toNat / d.toNat ∧
      (blDivmod64 n d).2.toNat = n.toNat % d.toNat := by
  obtain ⟨hlt, hdivided, -, -⟩ := (dividing_start n hd).rounds n.isLt (le_refl 64)
  rw [Nat.sub_self, pow_zero, Nat.div_one] at hdivided
  unfold blDivmod64
  rw [divmodFrom_eq_rounds]
  generalize (divmodRound d)^[64] ⟨n, 0, 0⟩ = s at hlt hdivided ⊢
  have hsum : s.r.toNat + d.toNat * s.q.toNat = n.toNat := by
    rw [Nat.add_comm, Nat.mul_comm]
    exact hdivided.symm
  have hunique := (Nat.div_mod_unique hd).mpr ⟨hsum, hlt⟩
  exact ⟨hunique.1.symm, hunique.2.symm⟩

/-- **Division is right for every divisor.** The last conjunct: no round shifts a bit out of the
remainder or the quotient. -/
theorem blDivmod64_divides (n d : BitVec 64) (hd : d ≠ 0) :
    n.toNat = (blDivmod64 n d).1.toNat * d.toNat + (blDivmod64 n d).2.toNat ∧
      (blDivmod64 n d).2.toNat < d.toNat ∧
      blDivmod64 n d = ((roundsOf n d 64).q, (roundsOf n d 64).r) ∧
      ∀ i < 64, ((roundsOf n d i).r <<< 1).toNat = 2 * (roundsOf n d i).r.toNat ∧
        ((roundsOf n d i).q <<< 1).toNat = 2 * (roundsOf n d i).q.toNat := by
  have hpos : 0 < d.toNat := Nat.pos_of_ne_zero fun h => hd (BitVec.eq_of_toNat_eq h)
  obtain ⟨hq, hr⟩ := blDivmod64_eq n hpos
  refine ⟨?_, ?_, divmodFrom_eq_rounds d 64 n 0 0, fun i hi => ?_⟩
  · rw [hq, hr]
    exact (Nat.div_add_mod' _ _).symm
  · rw [hr]
    exact Nat.mod_lt _ hpos
  · have hround := (dividing_start n hpos).rounds n.isLt (show i ≤ 64 by omega)
    rw [show 64 - i = 64 - (i + 1) + 1 by omega] at hround
    obtain ⟨hrlt, hqlt⟩ := hround.top_bits n.isLt (by omega)
    exact ⟨(toNat_shiftIn hrlt).1, (toNat_shiftIn hqlt).1⟩

/-- A divisor above `2 ^ 63`. -/
theorem blDivmod64_divides_large :
    (0xffffffffffffffff : BitVec 64).toNat =
        (blDivmod64 0xffffffffffffffff 0x8000000000000001).1.toNat *
            (0x8000000000000001 : BitVec 64).toNat +
          (blDivmod64 0xffffffffffffffff 0x8000000000000001).2.toNat :=
  (blDivmod64_divides 0xffffffffffffffff 0x8000000000000001 (by decide)).1

end BootLoader.Utils
