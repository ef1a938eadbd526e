import Mathlib.Data.List.Basic
import Mathlib.Logic.Relation

/-!
# Runs of partial steps

An invariant that every step keeps under a condition of its own is kept by the runs whose steps all
meet their condition where they are taken. A loop may keep a log of what its rounds do.
-/

namespace Runs

variable {σ ι : Type*}

def run (step : ι → σ → Option σ) : List ι → σ → Option σ
  | [], s => some s
  | i :: is, s => (step i s).bind (run step is)

/-- Every step of the run meets its condition in the state it is taken in. -/
def Along (step : ι → σ → Option σ) (ok : ι → σ → Prop) : List ι → σ → Prop
  | [], _ => True
  | i :: is, s => ok i s ∧ ∀ s', step i s = some s' → Along step ok is s'

variable {step : ι → σ → Option σ} {ok : ι → σ → Prop} {Inv : σ → Prop} {is js : List ι}
  {s s' : σ}

theorem along_true (is : List ι) (s : σ) : Along step (fun _ _ => True) is s := by
  induction is generalizing s with
  | nil => trivial
  | cons i is ih => exact ⟨trivial, fun s' _ => ih s'⟩

theorem run_append : run step (is ++ js) s = (run step is s).bind (run step js) := by
  induction is generalizing s with
  | nil => rfl
  | cons i is ih =>
    rw [List.cons_append, run, run, Option.bind_assoc]
    exact congrArg _ (funext fun _ => ih)

/-- **From one step to the whole run.** -/
theorem run_invariant
    (hstep : ∀ i s, Inv s → ok i s → ∃ s', step i s = some s' ∧ Inv s') (hs : Inv s)
    (hok : Along step ok is s) : ∃ s', run step is s = some s' ∧ Inv s' := by
  induction is generalizing s with
  | nil => exact ⟨s, rfl, hs⟩
  | cons i is ih =>
    obtain ⟨s₁, hs₁, hinv⟩ := hstep i s hs hok.1
    obtain ⟨s', hrun, hinv'⟩ := ih hinv (hok.2 s₁ hs₁)
    exact ⟨s', by rw [run, hs₁, Option.bind_some, hrun], hinv'⟩

theorem run_keeps (hstep : ∀ i s s', Inv s → ok i s → step i s = some s' → Inv s') (hs : Inv s)
    (hok : Along step ok is s) (hrun : run step is s = some s') : Inv s' := by
  induction is generalizing s with
  | nil =>
    obtain rfl := Option.some.inj hrun
    exact hs
  | cons i is ih =>
    obtain ⟨s₁, hs₁, hrest⟩ := Option.bind_eq_some_iff.mp hrun
    exact ih (hstep i s s₁ hs hok.1 hs₁) (hok.2 s₁ hs₁) hrest

/-! ## Steps that may fail -/

variable {ε : Type*} {fine : ε → Prop} [DecidablePred fine] {P Q : σ → Prop}
  {Failed : σ → ε → Prop} {done : ε}

/-- What comes next is done if the outcome so far is fine. -/
def follow (fine : ε → Prop) [DecidablePred fine] (first : Option (σ × ε))
    (rest : σ → Option (σ × ε)) : Option (σ × ε) :=
  first.bind fun r => if fine r.2 then rest r.1 else some r

/-- A loop that ends with the first outcome that is not fine. -/
def rounds (fine : ε → Prop) [DecidablePred fine] (done : ε) (body : Nat → σ → Option (σ × ε)) :
    Nat → Nat → σ → Option (σ × ε)
  | 0, _, s => some (s, done)
  | left + 1, i, s => follow fine (body i s) (rounds fine done body left (i + 1))

/-- It ends, in a state of the one kind or of the other by whether the outcome is fine. -/
def Ends (fine : ε → Prop) (P : σ → Prop) (Failed : σ → ε → Prop) (out : Option (σ × ε)) : Prop :=
  ∃ s' status, out = some (s', status) ∧ (fine status → P s') ∧ (¬ fine status → Failed s' status)

theorem Ends.follow {first : Option (σ × ε)} {rest : σ → Option (σ × ε)}
    (h : Ends fine P Failed first) (hrest : ∀ s, P s → Ends fine Q Failed (rest s)) :
    Ends fine Q Failed (follow fine first rest) := by
  obtain ⟨s, status, hfirst, hgood, hbad⟩ := h
  unfold Runs.follow
  rw [hfirst, Option.bind_some]
  split_ifs with hfine
  · exact hrest s (hgood hfine)
  · exact ⟨s, status, rfl, fun h => absurd h hfine, hbad⟩

theorem rounds_end {P : Nat → σ → Prop} {body : Nat → σ → Option (σ × ε)} {n : Nat}
    (hdone : fine done)
    (hbody : ∀ i s, i < n → P i s → Ends fine (P (i + 1)) Failed (body i s)) (left i : Nat)
    (hn : i + left = n) (s : σ) (hs : P i s) :
    Ends fine (P n) Failed (rounds fine done body left i s) := by
  induction left generalizing i s with
  | zero =>
    obtain rfl : i = n := hn
    exact ⟨s, done, rfl, fun _ => hs, fun h => absurd hdone h⟩
  | succ left ih =>
    unfold rounds
    exact (hbody i s (by omega) hs).follow fun s₁ hs₁ => ih (i + 1) (by omega) s₁ hs₁

/-! ## Somewhere on the way -/

/-- Steps of `r` lead to a place with the property. -/
def Reaches {α : Type*} (r : α → α → Prop) (p : α → Prop) (a : α) : Prop :=
  ∃ b, Relation.ReflTransGen r a b ∧ p b

variable {α : Type*} {r : α → α → Prop} {p : α → Prop} {a b : α}

/-- Here, or behind one step. -/
theorem reaches_iff : Reaches r p a ↔ p a ∨ ∃ b, r a b ∧ Reaches r p b := by
  constructor
  · rintro ⟨c, hsteps, hc⟩
    rcases hsteps.cases_head with rfl | ⟨b, hab, hbc⟩
    · exact .inl hc
    · exact .inr ⟨b, hab, c, hbc, hc⟩
  · rintro (ha | ⟨b, hab, c, hbc, hc⟩)
    · exact ⟨a, .refl, ha⟩
    · exact ⟨c, .head hab hbc, hc⟩

/-- Where there is no step the property holds here or nowhere. -/
theorem reaches_iff_of_stuck (h : ∀ b, ¬ r a b) : Reaches r p a ↔ p a := by
  rw [reaches_iff]
  exact or_iff_left fun ⟨b, hab, _⟩ => h b hab

/-- Where there is only one step to take. -/
theorem reaches_iff_of_step (hab : r a b) (honly : ∀ c, r a c → c = b) :
    Reaches r p a ↔ p a ∨ Reaches r p b := by
  rw [reaches_iff]
  refine or_congr_right ⟨?_, fun h => ⟨b, hab, h⟩⟩
  rintro ⟨c, hac, hc⟩
  exact honly c hac ▸ hc

/-! ## Loops that keep a log -/

/-- A step that hands on a state, in front of the log of the rest. -/
theorem logged_cons {first : Option (α × σ)} {rest : σ → Option (List α)} {log : List α}
    (h : (first.bind fun r => (rest r.2).map fun log => r.1 :: log) = some log) :
    ∃ entry s log', first = some (entry, s) ∧ rest s = some log' ∧ log = entry :: log' := by
  obtain ⟨r, hfirst, hthen⟩ := Option.bind_eq_some_iff.mp h
  obtain ⟨log', hrest, rfl⟩ := Option.map_eq_some_iff.mp hthen
  exact ⟨r.1, r.2, log', hfirst, hrest, rfl⟩

variable {round : Nat → List α × Bool} {n : Nat}

/-- `n` rounds from number `i` on, as long as each of them says to go on. -/
def logRounds (round : Nat → List α × Bool) : Nat → Nat → List α × Bool
  | 0, _ => ([], true)
  | n + 1, i =>
    if (round i).2 then
      ((round i).1 ++ (logRounds round n (i + 1)).1, (logRounds round n (i + 1)).2)
    else ((round i).1, false)

/-- The same, where the rounds share a state. -/
def stateRounds (round : Nat → σ → List α × σ × Bool) : Nat → Nat → σ → List α × σ × Bool
  | 0, _, s => ([], s, true)
  | n + 1, i, s =>
    if (round i s).2.2 then
      ((round i s).1 ++ (stateRounds round n (i + 1) (round i s).2.1).1,
        (stateRounds round n (i + 1) (round i s).2.1).2)
    else ((round i s).1, (round i s).2.1, false)

theorem logRounds_more_from (i : Nat) :
    (logRounds round n i).2 = true ↔ ∀ k < n, (round (i + k)).2 = true := by
  induction n generalizing i with
  | zero => simp [logRounds]
  | succ n ih =>
    rw [logRounds]
    constructor
    · intro h k hk
      split_ifs at h with hmore
      cases k with
      | zero => exact hmore
      | succ k =>
        rw [show i + (k + 1) = i + 1 + k by omega]
        exact (ih (i + 1)).mp h k (by omega)
    · intro h
      have hmore : (round i).2 = true := h 0 (by omega)
      rw [if_pos hmore]
      apply (ih (i + 1)).mpr
      intro k hk
      rw [show i + 1 + k = i + (k + 1) by omega]
      exact h (k + 1) (by omega)

theorem logRounds_more_iff : (logRounds round n 0).2 = true ↔ ∀ k < n, (round k).2 = true := by
  simp only [logRounds_more_from, Nat.zero_add]

theorem forall_mem_logRounds_from (i : Nat) :
    (∀ a ∈ (logRounds round n i).1, p a) ↔
      ∀ k < n, (∀ j < k, (round (i + j)).2 = true) → ∀ a ∈ (round (i + k)).1, p a := by
  induction n generalizing i with
  | zero => simp [logRounds]
  | succ n ih =>
    have hhead : (∀ k < n + 1, (∀ j < k, (round (i + j)).2 = true) →
        ∀ a ∈ (round (i + k)).1, p a) ↔ (∀ a ∈ (round i).1, p a) ∧
        ((round i).2 = true → ∀ k < n, (∀ j < k, (round (i + 1 + j)).2 = true) →
          ∀ a ∈ (round (i + 1 + k)).1, p a) := by
      constructor
      · intro h
        refine ⟨h 0 (by omega) (fun j hj => by omega), fun hmore k hk hbefore => ?_⟩
        rw [show i + 1 + k = i + (k + 1) by omega]
        refine h (k + 1) (by omega) fun j hj => ?_
        cases j with
        | zero => exact hmore
        | succ j =>
          rw [show i + (j + 1) = i + 1 + j by omega]
          exact hbefore j (by omega)
      · rintro ⟨hfirst, hrest⟩ k hk hbefore
        cases k with
        | zero => exact hfirst
        | succ k =>
          rw [show i + (k + 1) = i + 1 + k by omega]
          refine hrest (hbefore 0 (by omega)) k (by omega) fun j hj => ?_
          rw [show i + 1 + j = i + (j + 1) by omega]
          exact hbefore (j + 1) (by omega)
    rw [hhead, ← ih (i + 1), logRounds]
    split_ifs with hmore
    · simp only [List.forall_mem_append, hmore, true_imp_iff]
    · simp [hmore]

/-- Every round that is reached. -/
theorem forall_mem_logRounds :
    (∀ a ∈ (logRounds round n 0).1, p a) ↔
      ∀ k < n, (∀ j < k, (round j).2 = true) → ∀ a ∈ (round k).1, p a := by
  simp only [forall_mem_logRounds_from, Nat.zero_add]

theorem logRounds_congr_from {round' : Nat → List α × Bool} (i : Nat)
    (h : ∀ k < n, round' (i + k) = round (i + k)) :
    logRounds round' n i = logRounds round n i := by
  induction n generalizing i with
  | zero => rfl
  | succ n ih =>
    have hhead : round' i = round i := h 0 (by omega)
    have hrest := ih (i + 1) fun k hk => by
      rw [show i + 1 + k = i + (k + 1) by omega]
      exact h (k + 1) (by omega)
    rw [logRounds, logRounds, hhead, hrest]

theorem logRounds_congr {round' : Nat → List α × Bool} (h : ∀ k < n, round' k = round k) :
    logRounds round' n 0 = logRounds round n 0 :=
  logRounds_congr_from 0 fun k hk => by rw [Nat.zero_add]; exact h k hk

/-- Rounds that log what others log that have no state, as long as an invariant lasts. -/
theorem stateRounds_eq {full : Nat → σ → List α × σ × Bool} {Inv : Nat → σ → Prop} {i : Nat}
    (h : ∀ k s, k < i + n → Inv k s → (full k s).1 = (round k).1 ∧
      (full k s).2.2 = (round k).2 ∧ ((round k).2 = true → Inv (k + 1) (full k s).2.1))
    (hs : Inv i s) :
    (stateRounds full n i s).1 = (logRounds round n i).1 ∧
      (stateRounds full n i s).2.2 = (logRounds round n i).2 ∧
      ((logRounds round n i).2 = true → Inv (i + n) (stateRounds full n i s).2.1) := by
  induction n generalizing i s with
  | zero => exact ⟨rfl, rfl, fun _ => hs⟩
  | succ n ih =>
    obtain ⟨hlog, hmore, hnext⟩ := h i s (by omega) hs
    rw [stateRounds, logRounds, hmore, hlog]
    by_cases hgo : (round i).2 = true
    · obtain ⟨hrest, hrestMore, hlast⟩ := ih (i := i + 1) (fun k s hk => h k s (by omega))
        (hnext hgo)
      rw [if_pos hgo, if_pos hgo]
      refine ⟨by rw [hrest], hrestMore, fun hend => ?_⟩
      rw [show i + (n + 1) = i + 1 + n by omega]
      exact hlast hend
    · rw [if_neg hgo, if_neg hgo]
      exact ⟨rfl, rfl, fun hend => absurd hend Bool.false_ne_true⟩

/-- The same for what every round keeps, wherever the rounds end. -/
theorem stateRounds_tracks {full : Nat → σ → List α × σ × Bool} {i : Nat}
    (h : ∀ k s, k < i + n → Inv s → (full k s).1 = (round k).1 ∧ (full k s).2.2 = (round k).2 ∧
      Inv (full k s).2.1) (hs : Inv s) :
    (stateRounds full n i s).1 = (logRounds round n i).1 ∧ Inv (stateRounds full n i s).2.1 := by
  induction n generalizing i s with
  | zero => exact ⟨rfl, hs⟩
  | succ n ih =>
    obtain ⟨hlog, hmore, hkept⟩ := h i s (by omega) hs
    rw [stateRounds, logRounds, hmore, hlog]
    split_ifs
    · obtain ⟨hrest, hend⟩ := ih (i := i + 1) (fun k s hk => h k s (by omega)) hkept
      exact ⟨by rw [hrest], hend⟩
    · exact ⟨rfl, hkept⟩

/-! ## What stands in a log -/

theorem mem_logRounds :
    a ∈ (logRounds round n 0).1 ↔
      ∃ k < n, (∀ j < k, (round j).2 = true) ∧ a ∈ (round k).1 := by
  have hall : (∀ b ∈ (logRounds round n 0).1, b ≠ a) ↔ _ := forall_mem_logRounds
  constructor
  · intro hmem
    by_contra hnone
    refine hall.mpr (fun k hk hbefore b hb heq => ?_) a hmem rfl
    exact hnone ⟨k, hk, hbefore, heq ▸ hb⟩
  · rintro ⟨k, hk, hbefore, hmem⟩
    by_contra hnot
    exact hall.mp (fun b hb heq => hnot (heq ▸ hb)) k hk hbefore a hmem rfl

theorem mem_logRounds_from {i : Nat} (h : a ∈ (logRounds round n i).1) :
    ∃ k, i ≤ k ∧ a ∈ (round k).1 := by
  induction n generalizing i with
  | zero => simp [logRounds] at h
  | succ n ih =>
    rw [logRounds] at h
    split_ifs at h
    · rcases List.mem_append.mp h with h | h
      · exact ⟨i, Nat.le_refl i, h⟩
      · obtain ⟨k, hk, hmem⟩ := ih h
        exact ⟨k, by omega, hmem⟩
    · exact ⟨i, Nat.le_refl i, h⟩

/-- Rounds that log in order one after the other do so together. -/
theorem logRounds_pairwise (hround : ∀ k, (round k).1.Pairwise r)
    (hlater : ∀ j k, j < k → ∀ a ∈ (round j).1, ∀ b ∈ (round k).1, r a b) (i : Nat) :
    (logRounds round n i).1.Pairwise r := by
  induction n generalizing i with
  | zero => exact List.Pairwise.nil
  | succ n ih =>
    rw [logRounds]
    split_ifs
    · refine List.pairwise_append.mpr ⟨hround i, ih (i + 1), fun a ha b hb => ?_⟩
      obtain ⟨k, hk, hmem⟩ := mem_logRounds_from hb
      exact hlater i k hk a ha b hmem
    · exact hround i

end Runs
