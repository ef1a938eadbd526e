import Mathlib.Data.Nat.Digits.Lemmas

/-!
# Numerals

Numbers in any base, the highest digit first, and what a text of digits is read as.
-/

namespace Numeral

variable {γ : Type*}

def value (b : Nat) (ds : List Nat) : Nat := Nat.ofDigits b ds.reverse

/-- The digits without a leading 0. The number 0 has one. -/
def numeral (b n : Nat) : List Nat := if n = 0 then [0] else (Nat.digits b n).reverse

/-- The number that a text stands for, if each of its characters is a digit. -/
def parse (b : Nat) (digitOf : γ → Option Nat) (text : List γ) : Option Nat :=
  if text = [] then none else (text.mapM digitOf).map (value b)

variable {b n d : Nat} {ds : List Nat}

/-! ## Values -/

@[simp] theorem value_nil (b : Nat) : value b [] = 0 := rfl

theorem value_cons (b d : Nat) (ds : List Nat) :
    value b (d :: ds) = b ^ ds.length * d + value b ds := by
  unfold value
  rw [Nat.ofDigits_reverse_cons, Nat.add_comm]

theorem value_lt (hb : 1 < b) (hds : ∀ d ∈ ds, d < b) : value b ds < b ^ ds.length := by
  unfold value
  rw [← List.length_reverse]
  exact Nat.ofDigits_lt_base_pow_length hb fun d hd => hds d (List.mem_reverse.mp hd)

theorem value_numeral (b n : Nat) : value b (numeral b n) = n := by
  unfold value numeral
  split_ifs with hzero
  · simp [hzero]
  · rw [List.reverse_reverse, Nat.ofDigits_digits]

/-! ## The shortest text -/

theorem numeral_ne_nil (b n : Nat) : numeral b n ≠ [] := by
  unfold numeral
  split_ifs with hzero
  · simp
  · rw [Ne, List.reverse_eq_nil_iff]
    exact Nat.digits_ne_nil_iff_ne_zero.mpr hzero

theorem numeral_head (b : Nat) (h : n ≠ 0) : (numeral b n).head? ≠ some 0 := by
  have hnil : Nat.digits b n ≠ [] := Nat.digits_ne_nil_iff_ne_zero.mpr h
  unfold numeral
  rw [if_neg h, List.head?_reverse, List.getLast?_eq_some_getLast hnil, Ne, Option.some.injEq]
  exact Nat.getLast_digit_ne_zero b h

/-- A leading digit that is not 0 makes it the numeral. -/
theorem eq_numeral (hb : 1 < b) (hds : ∀ d ∈ ds, d < b) (hne : ds ≠ [])
    (hhead : ds.head? ≠ some 0) : ds = numeral b (value b ds) := by
  have hdigits : Nat.digits b (value b ds) = ds.reverse := by
    apply Nat.digits_ofDigits b hb
    · exact fun d hd => hds d (List.mem_reverse.mp hd)
    · intro hrev hlast
      rw [List.getLast_reverse] at hlast
      exact hhead (by rw [List.head?_eq_some_head hne, hlast])
  have hvalue : value b ds ≠ 0 := by
    intro hzero
    rw [hzero, Nat.digits_zero] at hdigits
    exact hne (List.reverse_eq_nil_iff.mp hdigits.symm)
  rw [numeral, if_neg hvalue, hdigits, List.reverse_reverse]

theorem length_numeral_le (hb : 1 < b) (hds : ∀ d ∈ ds, d < b) (hne : ds ≠ []) :
    (numeral b (value b ds)).length ≤ ds.length := by
  unfold numeral
  split_ifs
  · exact List.length_pos_of_ne_nil hne
  · rw [List.length_reverse, Nat.digits_length_le_iff hb]
    exact value_lt hb hds

/-! ## Reading -/

variable {digitOf : γ → Option Nat} {digitChar : Nat → γ} {text : List γ}

theorem mapM_digits (hchar : ∀ d < b, digitOf (digitChar d) = some d) (hds : ∀ d ∈ ds, d < b) :
    (ds.map digitChar).mapM digitOf = some ds := by
  induction ds with
  | nil => rfl
  | cons d ds ih =>
    have hrest := ih fun e he => hds e (List.mem_cons_of_mem d he)
    rw [List.map_cons, List.mapM_cons, hchar d (hds d List.mem_cons_self), hrest]
    rfl

/-- What is printed as digits is read as their value. -/
theorem parse_map (hchar : ∀ d < b, digitOf (digitChar d) = some d) (hds : ∀ d ∈ ds, d < b)
    (hne : ds ≠ []) : parse b digitOf (ds.map digitChar) = some (value b ds) := by
  unfold parse
  rw [if_neg (by simpa using hne), mapM_digits hchar hds]
  rfl

theorem mapM_some (hdigit : ∀ c d, digitOf c = some d → d < b)
    (h : text.mapM digitOf = some ds) : ds.length = text.length ∧ ∀ d ∈ ds, d < b := by
  induction text generalizing ds with
  | nil =>
    cases h
    simp
  | cons c text ih =>
    rw [List.mapM_cons] at h
    obtain ⟨d, hd, hrest⟩ := Option.bind_eq_some_iff.mp h
    obtain ⟨es, hes, heq⟩ := Option.bind_eq_some_iff.mp hrest
    cases heq
    obtain ⟨hlength, hlt⟩ := ih hes
    refine ⟨by rw [List.length_cons, List.length_cons, hlength], ?_⟩
    intro e he
    rcases List.mem_cons.mp he with rfl | he
    · exact hdigit c e hd
    · exact hlt e he

/-- **No text that is read as `n` is shorter than the numeral of `n`.** -/
theorem length_numeral_le_of_parse (hb : 1 < b) (hdigit : ∀ c d, digitOf c = some d → d < b)
    (h : parse b digitOf text = some n) : (numeral b n).length ≤ text.length := by
  unfold parse at h
  split_ifs at h with hnil
  obtain ⟨ds, hds, rfl⟩ := Option.map_eq_some_iff.mp h
  obtain ⟨hlength, hlt⟩ := mapM_some hdigit hds
  rw [← hlength]
  apply length_numeral_le hb hlt
  intro hempty
  rw [hempty] at hlength
  exact hnil (List.eq_nil_of_length_eq_zero hlength.symm)

end Numeral
