import Mathlib.Data.List.Basic
import Mathlib.Order.Basic

/-!
# Pieces of a list

The maximal stretches of a list without a separator, with the place each begins at.
-/

namespace Pieces

variable {α : Type*} {p : α → Prop}

/-- The separators are what `p` holds of, and `c` cannot be made longer on either side. -/
structure IsPiece (p : α → Prop) (l before c after : List α) : Prop where
  split : l = before ++ (c ++ after)
  nonempty : c ≠ []
  free : ∀ x ∈ c, ¬ p x
  left : ∀ x ∈ before.getLast?, p x
  right : ∀ x ∈ after.head?, p x

/-- The piece `c` begins at the place `j` of the list. -/
def Maximal (p : α → Prop) (l : List α) (j : Nat) (c : List α) : Prop :=
  ∃ before after, before.length = j ∧ IsPiece p l before c after

/-- The pieces of a list whose first element has the number `i`, read from the left: separators,
the stretch behind them, and the separator that ends it. -/
inductive Cut (p : α → Prop) : Nat → List α → List (Nat × List α) → Prop
  | none {i : Nat} {seps : List α} (hseps : ∀ x ∈ seps, p x) : Cut p i seps []
  | last {i : Nat} {seps c : List α} (hseps : ∀ x ∈ seps, p x) (hne : c ≠ [])
      (hfree : ∀ x ∈ c, ¬ p x) : Cut p i (seps ++ c) [(i + seps.length, c)]
  | next {i : Nat} {seps c rest : List α} {d : α} {ts : List (Nat × List α)}
      (hseps : ∀ x ∈ seps, p x) (hne : c ≠ []) (hfree : ∀ x ∈ c, ¬ p x) (hd : p d)
      (hrest : Cut p (i + seps.length + c.length + 1) rest ts) :
      Cut p i (seps ++ (c ++ d :: rest)) ((i + seps.length, c) :: ts)

/-! ## Every list is cut -/

theorem exists_stretch (p : α → Prop) (l : List α) :
    ∃ c tail, l = c ++ tail ∧ (∀ x ∈ c, p x) ∧ ∀ x ∈ tail.head?, ¬ p x := by
  induction l with
  | nil => exact ⟨[], [], rfl, by simp, by simp⟩
  | cons x l ih =>
    by_cases hx : p x
    · obtain ⟨c, tail, rfl, hc, htail⟩ := ih
      exact ⟨x :: c, tail, rfl, List.forall_mem_cons.mpr ⟨hx, hc⟩, htail⟩
    · exact ⟨[], x :: l, rfl, by simp, by simpa using hx⟩

theorem exists_cut (p : α → Prop) (i : Nat) (l : List α) : ∃ ts, Cut p i l ts := by
  induction hn : l.length using Nat.strongRecOn generalizing i l with
  | _ n ih =>
    obtain ⟨seps, behind, rfl, hseps, hhead⟩ := exists_stretch p l
    obtain ⟨c, tail, rfl, hfree, htail⟩ := exists_stretch (fun x => ¬ p x) behind
    rcases eq_or_ne c [] with rfl | hne
    · -- Nothing stands behind the separators: its head would be one and would be none.
      have hempty : tail = [] := by
        cases tail with
        | nil => rfl
        | cons d rest => exact absurd (hhead d rfl) (htail d rfl)
      rw [hempty, List.append_nil, List.append_nil]
      exact ⟨[], .none hseps⟩
    · cases tail with
      | nil =>
        rw [List.append_nil]
        exact ⟨_, .last hseps hne hfree⟩
      | cons d rest =>
        simp only [List.length_append, List.length_cons] at hn
        obtain ⟨ts, hts⟩ := ih rest.length (by omega) (i + seps.length + c.length + 1) rest rfl
        exact ⟨_, .next hseps hne hfree (not_not.mp (htail d rfl)) hts⟩

/-! ## The pieces are the maximal stretches -/

variable {l tail c d : List α} {x : α} {i j : Nat} {ts : List (Nat × List α)}

theorem not_maximal_of_seps (hl : ∀ x ∈ l, p x) : ¬ Maximal p l j d := by
  rintro ⟨before, after, -, h⟩
  obtain ⟨x, hx⟩ := List.exists_mem_of_ne_nil _ h.nonempty
  apply h.free x hx
  apply hl
  rw [h.split]
  exact List.mem_append_right _ (List.mem_append_left _ hx)

theorem maximal_cons_sep (hx : p x) :
    Maximal p (x :: l) j d ↔ ∃ k, j = k + 1 ∧ Maximal p l k d := by
  constructor
  · rintro ⟨before, after, rfl, h⟩
    have hsplit := h.split
    cases before with
    | nil =>
      obtain ⟨y, d', rfl⟩ := List.exists_cons_of_ne_nil h.nonempty
      rw [List.nil_append, List.cons_append, List.cons.injEq] at hsplit
      exact absurd (hsplit.1 ▸ hx) (h.free y List.mem_cons_self)
    | cons y before =>
      rw [List.cons_append, List.cons.injEq] at hsplit
      refine ⟨before.length, rfl, before, after, rfl, hsplit.2, h.nonempty, h.free, ?_, h.right⟩
      intro z hz
      apply h.left z
      rw [List.getLast?_cons, Option.mem_def.mp hz]
      rfl
  · rintro ⟨k, rfl, before, after, rfl, h⟩
    refine ⟨x :: before, after, rfl, by rw [h.split]; rfl, h.nonempty, h.free, ?_, h.right⟩
    intro z hz
    rw [List.getLast?_cons, Option.mem_some] at hz
    cases hlast : before.getLast? with
    | none => rwa [← hz, hlast]
    | some y =>
      rw [hlast] at hz
      exact hz ▸ h.left y hlast

theorem maximal_seps_append {seps : List α} (hseps : ∀ x ∈ seps, p x) :
    Maximal p (seps ++ l) j d ↔ ∃ k, j = k + seps.length ∧ Maximal p l k d := by
  induction seps generalizing j with
  | nil => simp
  | cons x seps ih =>
    obtain ⟨hx, hrest⟩ := List.forall_mem_cons.mp hseps
    rw [List.cons_append, maximal_cons_sep hx]
    simp only [ih hrest, List.length_cons]
    constructor
    · rintro ⟨_, rfl, k, rfl, h⟩
      exact ⟨k, rfl, h⟩
    · rintro ⟨k, rfl, h⟩
      exact ⟨k + seps.length, rfl, k, rfl, h⟩

/-- A stretch at the front that a separator ends. -/
theorem maximal_append (hne : c ≠ []) (hfree : ∀ x ∈ c, ¬ p x) (htail : ∀ x ∈ tail.head?, p x) :
    Maximal p (c ++ tail) j d ↔
      (j = 0 ∧ d = c) ∨ ∃ k, j = k + c.length ∧ Maximal p tail k d := by
  constructor
  · rintro ⟨before, after, rfl, h⟩
    have hlast := h.left
    rcases List.append_eq_append_iff.mp h.split with ⟨mid, hbefore, hbehind⟩ | ⟨mid, hmid, hbehind⟩
    · -- The stretch lies before the piece.
      refine .inr ⟨mid.length, ?_, mid, after, rfl, hbehind, h.nonempty, h.free, ?_, h.right⟩
      · rw [hbefore, List.length_append, Nat.add_comm]
      · intro x hx
        apply hlast
        rw [hbefore, List.getLast?_append, Option.mem_def.mp hx]
        rfl
    · -- The piece begins in the stretch, so at its first element.
      have hnil : before = [] := by
        by_contra hbefore
        have hmem : before.getLast hbefore ∈ c := by
          rw [hmid]
          exact List.mem_append_left _ (List.getLast_mem hbefore)
        exact hfree _ hmem (hlast _ (List.getLast?_eq_some_getLast hbefore))
      subst hnil
      rw [List.nil_append] at hmid
      subst hmid
      refine .inl ⟨rfl, ?_⟩
      rcases List.append_eq_append_iff.mp hbehind with ⟨more, hd, hend⟩ | ⟨more, hmore, hend⟩
      · cases more with
        | nil => rw [hd, List.append_nil]
        | cons y more =>
          refine absurd (h.right y (by rw [hend]; rfl)) (hfree y ?_)
          rw [hd]
          exact List.mem_append_right _ List.mem_cons_self
      · cases more with
        | nil => rw [hmore, List.append_nil]
        | cons y more =>
          refine absurd (htail y (by rw [hend]; rfl)) (h.free y ?_)
          rw [hmore]
          exact List.mem_append_right _ List.mem_cons_self
  · rintro (⟨rfl, rfl⟩ | ⟨k, rfl, before, after, rfl, h⟩)
    · exact ⟨[], tail, rfl, rfl, hne, hfree, by simp, htail⟩
    · refine ⟨c ++ before, after, ?_, by rw [List.append_assoc, ← h.split], h.nonempty, h.free, ?_,
        h.right⟩
      · rw [List.length_append, Nat.add_comm]
      · intro x hx
        cases before with
        | nil =>
          -- Then the piece begins with the separator that ends the stretch.
          obtain ⟨y, d', rfl⟩ := List.exists_cons_of_ne_nil h.nonempty
          refine absurd (htail y ?_) (h.free y List.mem_cons_self)
          rw [h.split]
          rfl
        | cons y before =>
          apply h.left
          rwa [List.getLast?_append_of_ne_nil _ (List.cons_ne_nil y before)] at hx

theorem maximal_last (hne : c ≠ []) (hfree : ∀ x ∈ c, ¬ p x) :
    Maximal p c j d ↔ j = 0 ∧ d = c := by
  have htail : ∀ x ∈ ([] : List α).head?, p x := by simp
  have happend := maximal_append (j := j) (d := d) hne hfree htail
  rw [List.append_nil] at happend
  rw [happend]
  refine or_iff_left ?_
  rintro ⟨k, -, h⟩
  exact not_maximal_of_seps (by simp) h

theorem mem_cut_iff (h : Cut p i l ts) (t : Nat × List α) :
    t ∈ ts ↔ ∃ k, t.1 = k + i ∧ Maximal p l k t.2 := by
  induction h with
  | none hseps =>
    refine iff_of_false List.not_mem_nil ?_
    rintro ⟨k, -, h⟩
    exact not_maximal_of_seps hseps h
  | last hseps hne hfree =>
    simp only [maximal_seps_append hseps, maximal_last hne hfree, List.mem_singleton]
    constructor
    · rintro rfl
      exact ⟨_, Nat.add_comm _ _, 0, (Nat.zero_add _).symm, rfl, rfl⟩
    · rintro ⟨_, hk, _, rfl, rfl, hc⟩
      exact Prod.ext (by rw [hk, Nat.zero_add, Nat.add_comm]) hc
  | @next _ _ _ rest y _ hseps hne hfree hd _ ih =>
    have htail : ∀ x ∈ (y :: rest).head?, p x := by simpa using hd
    simp only [maximal_seps_append hseps, maximal_append hne hfree htail, maximal_cons_sep hd,
      List.mem_cons, ih]
    constructor
    · rintro (rfl | ⟨k, hk, h⟩)
      · exact ⟨_, Nat.add_comm _ _, 0, (Nat.zero_add _).symm, .inl ⟨rfl, rfl⟩⟩
      · exact ⟨_, by omega, _, rfl, .inr ⟨k + 1, rfl, k, rfl, h⟩⟩
    · rintro ⟨_, hk, _, rfl, ⟨rfl, hc⟩ | ⟨_, rfl, k, rfl, h⟩⟩
      · exact .inl (Prod.ext (by rw [hk, Nat.zero_add, Nat.add_comm]) hc)
      · exact .inr ⟨k, by omega, h⟩

/-! ## They come in order -/

theorem le_of_mem_cut (h : Cut p i l ts) : ∀ t ∈ ts, i ≤ t.1 := by
  intro t ht
  obtain ⟨k, hk, -⟩ := (mem_cut_iff h t).mp ht
  omega

/-- A separator stands between any two of them. -/
theorem cut_pairwise (h : Cut p i l ts) : ts.Pairwise fun t u => t.1 + t.2.length < u.1 := by
  induction h with
  | none => exact List.Pairwise.nil
  | last => exact List.pairwise_singleton _ _
  | next hseps hne hfree hd hrest ih =>
    refine List.pairwise_cons.mpr ⟨fun t ht => ?_, ih⟩
    exact Nat.lt_of_succ_le (le_of_mem_cut hrest t ht)

end Pieces
