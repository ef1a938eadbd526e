import Mathlib.Data.List.Rotate

/-!
# Rings

Nodes that lead from one to the next and from the last one back to the first, and a loop that goes
round once and clears each node as it leaves it.
-/

namespace Ring

variable {σ α : Type*} [DecidableEq α]

/-- Each node leads to the next one, and the last one to the first. -/
def Closed (next : α → α) (as : List α) : Prop := as.map next = as.rotate 1

/-- `do … while`: what comes next is read before the node is cleared. Beside the state are the nodes
that were cleared, in their order. -/
def sweep (next : σ → α → α) (clear : σ → α → σ) (start : α) :
    Nat → σ → α → Option (σ × List α)
  | 0, _, _ => none
  | fuel + 1, s, a =>
    if next s a = start then some (clear s a, [a])
    else (sweep next clear start fuel (clear s a) (next s a)).map fun r => (r.1, a :: r.2)

variable {next : α → α} {as bs : List α} {start a : α}

omit [DecidableEq α] in
/-- A ring begins at any of its nodes. -/
theorem Closed.turn (h : Closed next as) (hstart : start ∈ as) :
    ∃ bs, (start :: bs).Perm as ∧ Closed next (start :: bs) := by
  obtain ⟨pre, post, rfl⟩ := List.append_of_mem hstart
  have hturn : (pre ++ start :: post).rotate pre.length = start :: (post ++ pre) := by
    rw [List.rotate_append_length_eq, List.cons_append]
  refine ⟨post ++ pre, ?_, ?_⟩
  · rw [← hturn]
    exact List.rotate_perm _ _
  · unfold Closed at h ⊢
    rw [← hturn, List.map_rotate, h, List.rotate_rotate, List.rotate_rotate, Nat.add_comm]

theorem sweep_from {nextIn : σ → α → α} {clear : σ → α → σ} {s : σ} {fuel : Nat}
    (hclear : ∀ s a b, b ≠ a → nextIn (clear s a) b = nextIn s b)
    (hnext : ∀ b ∈ a :: bs, nextIn s b = next b) (hleads : (a :: bs).map next = bs ++ [start])
    (hnodup : (a :: bs).Nodup) (hstart : start ∉ bs) (hfuel : bs.length < fuel) :
    sweep nextIn clear start fuel s a = some ((a :: bs).foldl clear s, a :: bs) := by
  induction bs generalizing a s fuel with
  | nil =>
    obtain ⟨fuel, rfl⟩ := Nat.exists_eq_succ_of_ne_zero (by omega : fuel ≠ 0)
    have hlast : next a = start := by simpa using hleads
    rw [sweep, hnext a List.mem_cons_self, if_pos hlast]
    rfl
  | cons b bs ih =>
    obtain ⟨fuel, rfl⟩ := Nat.exists_eq_succ_of_ne_zero (by omega : fuel ≠ 0)
    obtain ⟨hb, hleads⟩ := List.cons.inj hleads
    rw [List.mem_cons, not_or] at hstart
    rw [List.length_cons] at hfuel
    obtain ⟨ha, hnodup⟩ := List.nodup_cons.mp hnodup
    -- The nodes that are left still lead where they led.
    have hleft : ∀ c ∈ b :: bs, nextIn (clear s a) c = next c := by
      intro c hc
      rw [hclear s a c (fun heq => ha (heq ▸ hc)), hnext c (List.mem_cons_of_mem _ hc)]
    rw [sweep, hnext a List.mem_cons_self, hb, if_neg (Ne.symm hstart.1),
      ih hleft hleads hnodup hstart.2 (by omega)]
    rfl

/-- **Once round.** The loop ends, and it has cleared each node of the ring once. -/
theorem Closed.sweep_eq {nextIn : σ → α → α} {clear : σ → α → σ} {s : σ}
    (h : Closed (nextIn s) as) (hclear : ∀ s a b, b ≠ a → nextIn (clear s a) b = nextIn s b)
    (hnodup : as.Nodup) (hstart : start ∈ as) :
    ∃ bs, bs.Perm as ∧
      ∀ fuel ≥ as.length, sweep nextIn clear start fuel s start = some (bs.foldl clear s, bs) := by
  obtain ⟨bs, hperm, hclosed⟩ := h.turn hstart
  have hnodup' := hperm.nodup_iff.mpr hnodup
  unfold Closed at hclosed
  rw [List.rotate_cons_succ, List.rotate_zero] at hclosed
  refine ⟨start :: bs, hperm, fun fuel hfuel => ?_⟩
  have hlength := hperm.length_eq
  rw [List.length_cons] at hlength
  exact sweep_from hclear (fun _ _ => rfl) hclosed hnodup' (List.nodup_cons.mp hnodup').1
    (by omega)

end Ring
