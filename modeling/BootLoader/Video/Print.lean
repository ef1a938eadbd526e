import BootLoader.Lib.ByteMemory
import BootLoader.Utils.Divmod
import Mathlib.Data.Nat.Digits.Lemmas
import Mathlib.Data.Nat.Factorization.Basic

/-!
# Printing numbers (`core/video/print.c`)

A text is what the calls of `bl_print_str` print, one after the other. A number is reversed, and
printed from its lowest digit on: the zeros that it ends with are lost.
-/

open ByteMemory

namespace BootLoader.Video

open Utils

/-- The characters of a string constant. -/
def textOf (s : String) : List Byte := s.toList.map fun c => BitVec.ofNat 8 c.toNat

/-- `'0' + digit`, as a `char`. -/
def digitChar (digit : Nat) : Byte := BitVec.ofNat 8 (0x30 + digit)

/-- The first loop of `bl_print_decimal`. -/
def reverseDecimal (limit number reverse : Nat) : Nat :=
  if number = 0 then reverse
  else reverseDecimal limit (number / 10) ((10 * reverse + number % 10) % limit)

/-- The second one. -/
def printReversed (reverse : Nat) : List Byte :=
  if reverse = 0 then [] else digitChar (reverse % 10) :: printReversed (reverse / 10)

def blPrintDecimal (number : Nat) : List Byte :=
  printReversed (reverseDecimal (2 ^ 32) number 0)

theorem blDivmod64_ten (number : BitVec 64) :
    (blDivmod64 number 10).1.toNat = number.toNat / 10 ∧
      (blDivmod64 number 10).2.toNat = number.toNat % 10 :=
  blDivmod64_eq number (by decide)

theorem blDivmod64_ten_lt {number : BitVec 64} (h : ¬number = 0) :
    (blDivmod64 number 10).1.toNat < number.toNat := by
  have hpositive : number.toNat ≠ 0 := fun hzero => h (BitVec.eq_of_toNat_eq hzero)
  rw [(blDivmod64_ten number).1]
  omega

/-- The first loop of `bl_print_decimal64`. -/
def reverseDecimal64 (number reverse : BitVec 64) : BitVec 64 :=
  if number = 0 then reverse
  else reverseDecimal64 (blDivmod64 number 10).1 (10 * reverse + (blDivmod64 number 10).2)
termination_by number.toNat
decreasing_by exact blDivmod64_ten_lt ‹_›

/-- The second one. -/
def printReversed64 (reverse : BitVec 64) : List Byte :=
  if reverse = 0 then []
  else digitChar (blDivmod64 reverse 10).2.toNat :: printReversed64 (blDivmod64 reverse 10).1
termination_by reverse.toNat
decreasing_by exact blDivmod64_ten_lt ‹_›

def blPrintDecimal64 (number : BitVec 64) : List Byte :=
  printReversed64 (reverseDecimal64 number 0)

/-! ## Decimal numbers -/

def decimal (number : Nat) : List Byte :=
  if number = 0 then [digitChar 0] else (Nat.digits 10 number).reverse.map digitChar

variable {limit places number reverse a b : Nat}

theorem digitChar_inj {c d : Nat} (hc : c < 10) (hd : d < 10) (h : digitChar c = digitChar d) :
    c = d := by
  have hnat := congrArg BitVec.toNat h
  simp only [digitChar, BitVec.toNat_ofNat] at hnat
  omega

theorem digits_lt_ten {n d : Nat} (h : d ∈ Nat.digits 10 n) : d < 10 :=
  Nat.digits_lt_base (by omega) h

theorem map_digitChar_inj {ds es : List Nat} (hds : ∀ d ∈ ds, d < 10) (hes : ∀ e ∈ es, e < 10)
    (h : ds.map digitChar = es.map digitChar) : ds = es := by
  induction ds generalizing es with
  | nil => exact (List.map_eq_nil_iff.mp h.symm).symm
  | cons d ds ih =>
    cases es with
    | nil => simp at h
    | cons e es =>
      rw [List.map_cons, List.map_cons, List.cons.injEq] at h
      have hhead := digitChar_inj (hds d List.mem_cons_self) (hes e List.mem_cons_self) h.1
      have hrest := ih (fun d hd => hds d (List.mem_cons_of_mem _ hd))
        (fun e he => hes e (List.mem_cons_of_mem _ he)) h.2
      rw [hhead, hrest]

theorem decimal_of_ne_zero (h : number ≠ 0) :
    decimal number = (Nat.digits 10 number).reverse.map digitChar :=
  if_neg h

theorem decimal_ne_nil (number : Nat) : decimal number ≠ [] := by
  unfold decimal
  split_ifs with hzero
  · simp
  · simpa [Nat.digits_eq_nil_iff_eq_zero] using hzero

theorem decimal_inj (ha : a ≠ 0) (h : decimal a = decimal b) : a = b := by
  have hdigits : ∀ n, ∀ d ∈ (Nat.digits 10 n).reverse, d < 10 := fun n d hd =>
    digits_lt_ten (List.mem_reverse.mp hd)
  rw [decimal_of_ne_zero ha] at h
  by_cases hb : b = 0
  · have hzero : (Nat.digits 10 a).reverse = [0] := by
      refine map_digitChar_inj (hdigits a) (by simp) (h.trans ?_)
      rw [hb]
      rfl
    have hdigit : Nat.digits 10 a = [0] := by simpa using congrArg List.reverse hzero
    have hlast := Nat.getLast_digit_ne_zero 10 ha
    simp [hdigit] at hlast
  · rw [decimal_of_ne_zero hb] at h
    exact Nat.digits_inj_iff.mp (List.reverse_inj.mp (map_digitChar_inj (hdigits a) (hdigits b) h))

/-! ## What is printed -/

/-- Without an overflow the digits of `reverse` come behind those of the number, reversed. -/
theorem reverseDecimal_eq {i : Nat} (hlimit : 10 ^ (places + i) ≤ limit)
    (hnumber : number < 10 ^ places) (hreverse : reverse < 10 ^ i) :
    reverseDecimal limit number reverse =
      Nat.ofDigits 10 (Nat.digits 10 number).reverse +
        10 ^ (Nat.digits 10 number).length * reverse := by
  induction places generalizing number reverse i with
  | zero =>
    have hzero : number = 0 := by simpa using hnumber
    rw [reverseDecimal, if_pos hzero, hzero]
    simp
  | succ places ih =>
    rw [reverseDecimal]
    split_ifs with hzero
    · rw [hzero]
      simp
    · have hnext : 10 * reverse + number % 10 < 10 ^ (i + 1) := by
        rw [pow_succ]
        omega
      have hspace : 10 ^ (i + 1) ≤ limit :=
        (Nat.pow_le_pow_right (by omega) (by omega)).trans hlimit
      have hrest : number / 10 < 10 ^ places := by
        rw [pow_succ] at hnumber
        omega
      rw [Nat.mod_eq_of_lt (hnext.trans_le hspace),
        ih (by rwa [show places + (i + 1) = places + 1 + i by omega]) hrest hnext,
        Nat.digits_def' (by omega) (Nat.pos_of_ne_zero hzero), List.reverse_cons,
        Nat.ofDigits_append, List.length_reverse, List.length_cons, pow_succ,
        Nat.ofDigits_singleton]
      ring

theorem printReversed_eq (reverse : Nat) :
    printReversed reverse = (Nat.digits 10 reverse).map digitChar := by
  induction reverse using Nat.strong_induction_on with
  | _ reverse ih =>
    rw [printReversed]
    split_ifs with hzero
    · rw [hzero]
      rfl
    · rw [ih _ (by omega), Nat.digits_def' (by omega) (Nat.pos_of_ne_zero hzero), List.map_cons]

theorem printed_eq (hlimit : 10 ^ places ≤ limit) (h : number < 10 ^ places) :
    printReversed (reverseDecimal limit number 0) =
      (Nat.digits 10 (Nat.ofDigits 10 (Nat.digits 10 number).reverse)).map digitChar := by
  rw [reverseDecimal_eq (i := 0) hlimit h (by simp), mul_zero, Nat.add_zero, printReversed_eq]

theorem printed_of_mod_ne_zero (hlimit : 10 ^ places ≤ limit) (h : number < 10 ^ places)
    (hmod : number % 10 ≠ 0) :
    printReversed (reverseDecimal limit number 0) = decimal number := by
  have hne : number ≠ 0 := fun hzero => hmod (by rw [hzero])
  have hdigits := Nat.digits_def' (show 1 < 10 by omega) (Nat.pos_of_ne_zero hne)
  rw [printed_eq hlimit h, decimal_of_ne_zero hne, Nat.digits_ofDigits 10 (by omega)]
  · exact fun d hd => digits_lt_ten (List.mem_reverse.mp hd)
  · intro hnil
    rw [List.getLast_reverse]
    simpa [hdigits] using hmod

theorem printed_ten_mul (limit number : Nat) :
    printReversed (reverseDecimal limit (10 * number) 0) =
      printReversed (reverseDecimal limit number 0) := by
  by_cases hzero : number = 0
  · rw [hzero]
  · have hmod : 10 * number % 10 = 0 := by omega
    have hdiv : 10 * number / 10 = number := by omega
    rw [reverseDecimal, if_neg (by omega), hmod, hdiv, mul_zero, Nat.add_zero, Nat.zero_mod]

theorem printed_mul_pow (limit number k : Nat) :
    printReversed (reverseDecimal limit (number * 10 ^ k) 0) =
      printReversed (reverseDecimal limit number 0) := by
  induction k with
  | zero => rw [pow_zero, mul_one]
  | succ k ih =>
    have hten : number * 10 ^ (k + 1) = 10 * (number * 10 ^ k) := by
      rw [pow_succ]
      ring
    rw [hten, printed_ten_mul, ih]

theorem printed_eq_decimal_iff (hlimit : 10 ^ places ≤ limit) (h : a < 10 ^ places) :
    printReversed (reverseDecimal limit a 0) = decimal b ↔ b % 10 ≠ 0 ∧ ∃ k, a = b * 10 ^ k := by
  constructor
  · intro htext
    have hne : a ≠ 0 := by
      rintro rfl
      refine decimal_ne_nil b (htext.symm.trans ?_)
      simp [reverseDecimal, printReversed]
    obtain ⟨k, c, hzeros, ha⟩ := Nat.exists_eq_pow_mul_and_not_dvd hne 10 (by omega)
    have hmod : c % 10 ≠ 0 := fun hzero => hzeros (Nat.dvd_of_mod_eq_zero hzero)
    obtain rfl : a = c * 10 ^ k := ha.trans (mul_comm _ _)
    have hlt : c < 10 ^ places :=
      (Nat.le_mul_of_pos_right c (Nat.pow_pos (by omega))).trans_lt h
    rw [printed_mul_pow, printed_of_mod_ne_zero hlimit hlt hmod] at htext
    obtain rfl := decimal_inj (fun hzero => hmod (by rw [hzero])) htext
    exact ⟨hmod, k, rfl⟩
  · rintro ⟨hmod, k, rfl⟩
    have hlt : b < 10 ^ places :=
      (Nat.le_mul_of_pos_right b (Nat.pow_pos (by omega))).trans_lt h
    rw [printed_mul_pow, printed_of_mod_ne_zero hlimit hlt hmod]

/-- The text of `bl_print_decimal` is the one of a number that does not end in 0, with zeros behind
it or without. -/
theorem blPrintDecimal_eq_decimal_iff (h : a < 10 ^ 9) :
    blPrintDecimal a = decimal b ↔ b % 10 ≠ 0 ∧ ∃ k, a = b * 10 ^ k :=
  printed_eq_decimal_iff (by decide) h

theorem toNat_reverseDecimal64 (number reverse : BitVec 64) :
    (reverseDecimal64 number reverse).toNat =
      reverseDecimal (2 ^ 64) number.toNat reverse.toNat := by
  induction number, reverse using reverseDecimal64.induct with
  | case1 reverse =>
    have hzero : (0 : BitVec 64).toNat = 0 := rfl
    rw [reverseDecimal64, if_pos rfl, reverseDecimal, if_pos hzero]
  | case2 number reverse hzero ih =>
    have hpositive : ¬number.toNat = 0 := fun h => hzero (BitVec.eq_of_toNat_eq h)
    obtain ⟨hq, hr⟩ := blDivmod64_ten number
    rw [reverseDecimal64, if_neg hzero, reverseDecimal, if_neg hpositive, ih, hq]
    congr 1
    rw [BitVec.toNat_add, BitVec.toNat_mul, hr]
    exact Nat.mod_add_mod _ _ _

theorem printReversed64_eq (reverse : BitVec 64) :
    printReversed64 reverse = printReversed reverse.toNat := by
  induction reverse using printReversed64.induct with
  | case1 =>
    have hzero : (0 : BitVec 64).toNat = 0 := rfl
    rw [printReversed64, if_pos rfl, printReversed, if_pos hzero]
  | case2 reverse hzero ih =>
    have hpositive : ¬reverse.toNat = 0 := fun h => hzero (BitVec.eq_of_toNat_eq h)
    obtain ⟨hq, hr⟩ := blDivmod64_ten reverse
    rw [printReversed64, if_neg hzero, printReversed, if_neg hpositive, ih, hq, hr]

theorem blPrintDecimal64_eq (number : BitVec 64) :
    blPrintDecimal64 number = printReversed (reverseDecimal (2 ^ 64) number.toNat 0) := by
  rw [blPrintDecimal64, printReversed64_eq, toNat_reverseDecimal64]
  rfl

theorem blPrintDecimal64_eq_decimal_iff {a : BitVec 64} (h : a.toNat < 10 ^ 19) :
    blPrintDecimal64 a = decimal b ↔ b % 10 ≠ 0 ∧ ∃ k, a.toNat = b * 10 ^ k := by
  rw [blPrintDecimal64_eq]
  exact printed_eq_decimal_iff (by decide) h

theorem blPrintDecimal_right_iff (h : number < 10 ^ 9) :
    blPrintDecimal number = decimal number ↔ number % 10 ≠ 0 := by
  rw [blPrintDecimal_eq_decimal_iff h]
  exact and_iff_left ⟨0, by simp⟩

theorem blPrintDecimal64_right_iff {number : BitVec 64} (h : number.toNat < 10 ^ 19) :
    blPrintDecimal64 number = decimal number.toNat ↔ number.toNat % 10 ≠ 0 := by
  rw [blPrintDecimal64_eq_decimal_iff h]
  exact and_iff_left ⟨0, by simp⟩

/-! ## Every number -/

/-- The digits the other way round. -/
def reversed (number : Nat) : Nat := Nat.ofDigits 10 (Nat.digits 10 number).reverse

theorem reversed_eq (h : number ≠ 0) :
    reversed number =
      reversed (number / 10) + 10 ^ (Nat.digits 10 (number / 10)).length * (number % 10) := by
  unfold reversed
  rw [Nat.digits_def' (by omega) (Nat.pos_of_ne_zero h), Nat.ofDigits_reverse_cons]

theorem reversed_lt (h : number < 10 ^ places) : reversed number < 10 ^ places := by
  have hlength : (Nat.digits 10 number).reverse.length ≤ places := by
    rw [List.length_reverse]
    exact (Nat.digits_length_le_iff (by omega) number).mpr h
  have hlt : reversed number < 10 ^ (Nat.digits 10 number).reverse.length :=
    Nat.ofDigits_lt_base_pow_length (by omega) fun d hd => digits_lt_ten (List.mem_reverse.mp hd)
  exact hlt.trans_le (Nat.pow_le_pow_right (by omega) hlength)

/-- What does not fit wraps. -/
theorem reverseDecimal_mod (hreverse : reverse < limit) :
    reverseDecimal limit number reverse =
      (reversed number + 10 ^ (Nat.digits 10 number).length * reverse) % limit := by
  induction number using Nat.strong_induction_on generalizing reverse with
  | _ number ih =>
    rw [reverseDecimal]
    split_ifs with hzero
    · simp [hzero, reversed, Nat.mod_eq_of_lt hreverse]
    · have hlimit : 0 < limit := by omega
      have hdigits : (Nat.digits 10 number).length = (Nat.digits 10 (number / 10)).length + 1 := by
        rw [Nat.digits_def' (by omega) (Nat.pos_of_ne_zero hzero), List.length_cons]
      rw [ih _ (by omega) (Nat.mod_lt _ hlimit), reversed_eq hzero, hdigits, pow_succ]
      -- The wrapped remainder is multiplied and added to, all of it modulo `limit`.
      apply Nat.ModEq.trans (b := reversed (number / 10) +
        10 ^ (Nat.digits 10 (number / 10)).length * (10 * reverse + number % 10))
      · exact ((Nat.mod_modEq _ _).mul_left _).add_left _
      · apply congrArg (· % limit)
        ring

theorem printed_eq_digits (hlimit : 0 < limit) (number : Nat) :
    printReversed (reverseDecimal limit number 0) =
      (Nat.digits 10 (reversed number % limit)).map digitChar := by
  rw [printReversed_eq, reverseDecimal_mod hlimit, Nat.mul_zero, Nat.add_zero]

theorem digits_reversed (h : number % 10 ≠ 0) :
    Nat.digits 10 (reversed number) = (Nat.digits 10 number).reverse := by
  have hne : number ≠ 0 := fun hzero => h (by rw [hzero])
  have hdigits := Nat.digits_def' (show 1 < 10 by omega) (Nat.pos_of_ne_zero hne)
  apply Nat.digits_ofDigits 10 (by omega)
  · exact fun d hd => digits_lt_ten (List.mem_reverse.mp hd)
  · intro hnil
    rw [List.getLast_reverse]
    simpa [hdigits] using h

theorem map_digits_inj {m n : Nat}
    (h : (Nat.digits 10 m).map digitChar = (Nat.digits 10 n).map digitChar) : m = n :=
  Nat.digits_inj_iff.mp
    (map_digitChar_inj (fun _ hd => digits_lt_ten hd) (fun _ hd => digits_lt_ten hd) h)

theorem printed_right_iff (hlimit : 0 < limit) (number : Nat) :
    printReversed (reverseDecimal limit number 0) = decimal number ↔
      number % 10 ≠ 0 ∧ reversed number < limit := by
  rw [printed_eq_digits hlimit]
  constructor
  · intro htext
    have hne : number ≠ 0 := by
      rintro rfl
      apply decimal_ne_nil 0
      rw [← htext]
      simp [reversed]
    rw [decimal_of_ne_zero hne] at htext
    have hdigits : Nat.digits 10 (reversed number % limit) = (Nat.digits 10 number).reverse :=
      map_digitChar_inj (fun _ hd => digits_lt_ten hd)
        (fun _ hd => digits_lt_ten (List.mem_reverse.mp hd)) htext
    have hmod : number % 10 ≠ 0 := by
      intro hzero
      have hlast : (Nat.digits 10 (reversed number % limit)).getLast? = some 0 := by
        rw [hdigits, List.getLast?_reverse,
          Nat.digits_def' (by omega) (Nat.pos_of_ne_zero hne), hzero]
        rfl
      have hvalue : reversed number % limit ≠ 0 := by
        intro h0
        simp [h0] at hlast
      rw [List.getLast?_eq_some_getLast (Nat.digits_ne_nil_iff_ne_zero.mpr hvalue)] at hlast
      exact Nat.getLast_digit_ne_zero 10 hvalue (Option.some.inj hlast)
    rw [← digits_reversed hmod] at hdigits
    refine ⟨hmod, ?_⟩
    rw [← Nat.digits_inj_iff.mp hdigits]
    exact Nat.mod_lt _ hlimit
  · rintro ⟨hmod, hlt⟩
    have hne : number ≠ 0 := fun hzero => hmod (by rw [hzero])
    rw [Nat.mod_eq_of_lt hlt, digits_reversed hmod, decimal_of_ne_zero hne]

theorem printed_agree_iff {wide : Nat} (hlimit : 0 < limit) (hnumber : reversed number < wide) :
    printReversed (reverseDecimal limit number 0) = printReversed (reverseDecimal wide number 0) ↔
      reversed number < limit := by
  rw [printed_eq_digits hlimit, printed_eq_digits (by omega), Nat.mod_eq_of_lt hnumber]
  constructor
  · intro htext
    rw [← map_digits_inj htext]
    exact Nat.mod_lt _ hlimit
  · intro hlt
    rw [Nat.mod_eq_of_lt hlt]

/-- **When a number is printed right**, and when the two functions print the same. -/
theorem decimal_printed_iff (number : BitVec 32) (wide : BitVec 64) :
    (blPrintDecimal number.toNat = decimal number.toNat ↔
      number.toNat % 10 ≠ 0 ∧ reversed number.toNat < 2 ^ 32) ∧
    (blPrintDecimal64 wide = decimal wide.toNat ↔
      wide.toNat % 10 ≠ 0 ∧ reversed wide.toNat < 2 ^ 64) ∧
    (blPrintDecimal number.toNat = blPrintDecimal64 (number.setWidth 64) ↔
      reversed number.toNat < 2 ^ 32) := by
  have hsmall : reversed number.toNat < 10 ^ 10 := by
    have hlt := number.isLt
    apply reversed_lt
    omega
  refine ⟨printed_right_iff (by omega) _, ?_, ?_⟩
  · rw [blPrintDecimal64_eq]
    exact printed_right_iff (by omega) _
  · rw [blPrintDecimal64_eq, BitVec.toNat_setWidth_of_le (by omega)]
    exact printed_agree_iff (by omega) (by omega)

/-- 10 is printed as 1. -/
theorem ten_not_printed : ¬ ∀ (number : BitVec 32) (wide : BitVec 64),
    blPrintDecimal number.toNat = decimal number.toNat ∧
      blPrintDecimal64 wide = decimal wide.toNat ∧
      blPrintDecimal number.toNat = blPrintDecimal64 (number.setWidth 64) := by
  intro h
  have hten : blPrintDecimal (10 : BitVec 32).toNat = decimal (10 : BitVec 32).toNat := (h 10 0).1
  exact ((printed_right_iff (by omega) _).mp hten).1 (by decide)

/-! ## Texts with separators -/

def IsDigit (c : Byte) : Prop := 0x30 ≤ c.toNat ∧ c.toNat ≤ 0x39

instance (c : Byte) : Decidable (IsDigit c) := inferInstanceAs (Decidable (_ ∧ _))

theorem isDigit_digitChar {d : Nat} (h : d < 10) : IsDigit (digitChar d) := by
  unfold IsDigit digitChar
  rw [BitVec.toNat_ofNat]
  omega

theorem isDigit_of_mem_decimal {c : Byte} (h : c ∈ decimal number) : IsDigit c := by
  unfold decimal at h
  split_ifs at h
  · obtain rfl := List.mem_singleton.mp h
    exact isDigit_digitChar (by omega)
  · obtain ⟨d, hd, rfl⟩ := List.mem_map.mp h
    exact isDigit_digitChar (digits_lt_ten (List.mem_reverse.mp hd))

theorem isDigit_of_mem_printed {c : Byte} (h : c ∈ blPrintDecimal number) : IsDigit c := by
  unfold blPrintDecimal at h
  rw [printReversed_eq] at h
  obtain ⟨d, hd, rfl⟩ := List.mem_map.mp h
  exact isDigit_digitChar (digits_lt_ten hd)

/-- What comes before the first byte that is no digit, that byte, and what comes behind it. -/
theorem digits_split {a b x y : List Byte} {s t : Byte} (ha : ∀ c ∈ a, IsDigit c)
    (hb : ∀ c ∈ b, IsDigit c) (hs : ¬IsDigit s) (ht : ¬IsDigit t) :
    a ++ s :: x = b ++ t :: y ↔ a = b ∧ s = t ∧ x = y := by
  refine ⟨fun h => ?_, fun ⟨hab, hst, hxy⟩ => by rw [hab, hst, hxy]⟩
  induction a generalizing b with
  | nil =>
    cases b with
    | nil => simpa using h
    | cons e b =>
      rw [List.nil_append, List.cons_append, List.cons.injEq] at h
      exact absurd (h.1 ▸ hb e List.mem_cons_self) hs
  | cons d a ih =>
    cases b with
    | nil =>
      rw [List.nil_append, List.cons_append, List.cons.injEq] at h
      exact absurd (h.1 ▸ ha d List.mem_cons_self) ht
    | cons e b =>
      rw [List.cons_append, List.cons_append, List.cons.injEq] at h
      obtain ⟨hab, hrest⟩ := ih (fun c hc => ha c (List.mem_cons_of_mem _ hc))
        (fun c hc => hb c (List.mem_cons_of_mem _ hc)) h.2
      exact ⟨by rw [h.1, hab], hrest⟩

theorem printed_split {n k : Nat} {x y : List Byte} {s : Byte} (hs : ¬IsDigit s) :
    blPrintDecimal n ++ s :: x = decimal k ++ s :: y ↔ blPrintDecimal n = decimal k ∧ x = y := by
  rw [digits_split (fun c hc => isDigit_of_mem_printed hc)
    (fun c hc => isDigit_of_mem_decimal hc) hs hs]
  simp

end BootLoader.Video
