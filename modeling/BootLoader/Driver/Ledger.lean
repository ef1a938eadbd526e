import BootLoader.Driver.World

/-!
# What became of the blocks

Of the blocks handed out since a world, those that are held, and that the others were freed once.
-/

namespace BootLoader.Driver

variable {env : Env} {w₀ w w' : World} {held : List Nat} {b : Nat}

/-- How often a block was freed since `w₀`. -/
def FreedSince (w₀ w : World) (b n : Nat) : Prop := w.freed.count b = w₀.freed.count b + n

/-- `held` are the blocks handed out since `w₀` that are still in use. -/
structure Ledger (w₀ w : World) (held : List Nat) : Prop where
  next_le : w₀.next ≤ w.next
  nodup : held.Nodup
  handedOut : ∀ b ∈ held, w₀.next ≤ b ∧ b < w.next
  used : ∀ b ∈ held, w.used b = true
  kept : ∀ b ∈ held, FreedSince w₀ w b 0
  unused : ∀ b, w₀.next ≤ b → b < w.next → b ∉ held → w.used b = false
  freed : ∀ b, w₀.next ≤ b → b < w.next → b ∉ held → FreedSince w₀ w b 1
  fresh : ∀ b, w.next ≤ b → FreedSince w₀ w b 0

theorem Ledger.start (w : World) : Ledger w w [] where
  next_le := le_rfl
  nodup := .nil
  handedOut _ hb := absurd hb List.not_mem_nil
  used _ hb := absurd hb List.not_mem_nil
  kept _ hb := absurd hb List.not_mem_nil
  unused _ hb hlt := absurd hlt (by omega)
  freed _ hb hlt := absurd hlt (by omega)
  fresh _ _ := rfl

/-- Reading leaves the blocks alone, and so does whatever else does. -/
theorem Ledger.congr (h : Ledger w₀ w held) (hnext : w'.next = w.next) (hused : w'.used = w.used)
    (hfreed : w'.freed = w.freed) : Ledger w₀ w' held where
  next_le := hnext ▸ h.next_le
  nodup := h.nodup
  handedOut b hb := hnext ▸ h.handedOut b hb
  used b hb := hused ▸ h.used b hb
  kept b hb := by
    rw [FreedSince, hfreed]
    exact h.kept b hb
  unused b hle hlt hb := hused ▸ h.unused b hle (hnext ▸ hlt) hb
  freed b hle hlt hb := by
    rw [FreedSince, hfreed]
    exact h.freed b hle (hnext ▸ hlt) hb
  fresh b hle := by
    rw [FreedSince, hfreed]
    exact h.fresh b (hnext ▸ hle)

theorem Ledger.read (h : Ledger w₀ w held) (env : Env) (block lba size : Nat) :
    Ledger w₀ (w.read env block lba size).1 held := by
  unfold World.read
  dsimp only
  split_ifs
  · exact h.congr rfl rfl rfl
  · exact h.congr rfl rfl rfl

theorem Ledger.perm {held' : List Nat} (h : Ledger w₀ w held) (hperm : held.Perm held') :
    Ledger w₀ w held' where
  next_le := h.next_le
  nodup := hperm.nodup_iff.mp h.nodup
  handedOut b hb := h.handedOut b (hperm.mem_iff.mpr hb)
  used b hb := h.used b (hperm.mem_iff.mpr hb)
  kept b hb := h.kept b (hperm.mem_iff.mpr hb)
  unused b hle hlt hb := h.unused b hle hlt (mt hperm.mem_iff.mp hb)
  freed b hle hlt hb := h.freed b hle hlt (mt hperm.mem_iff.mp hb)
  fresh := h.fresh

/-- What an allocation does: none is served, or there is one more block to hold. -/
theorem Ledger.alloc (h : Ledger w₀ w held) (env : Env) :
    (env.allocs w.allocs = false ∧ ∃ w', w.alloc env = (w', none) ∧ Ledger w₀ w' held) ∨
      env.allocs w.allocs = true ∧ ∃ w', w.alloc env = (w', some w.next) ∧
        w'.bytes = w.bytes ∧ w'.allocs = w.allocs + 1 ∧ w'.reads = w.reads ∧
        w'.next = w.next + 1 ∧ Ledger w₀ w' (w.next :: held) := by
  unfold World.alloc
  cases halloc : env.allocs w.allocs with
  | false => exact .inl ⟨rfl, _, rfl, h.congr rfl rfl rfl⟩
  | true =>
    refine .inr ⟨rfl, _, rfl, rfl, rfl, rfl, rfl, ?_⟩
    have hnew : ∀ {b}, b ∈ held → b ≠ w.next := fun hb => (h.handedOut _ hb).2.ne
    refine ⟨h.next_le.trans (Nat.le_succ _), ?_, ?_, ?_, ?_, ?_, ?_, ?_⟩
    · exact List.nodup_cons.mpr ⟨fun hb => hnew hb rfl, h.nodup⟩
    · intro b hb
      rcases List.mem_cons.mp hb with rfl | hb
      · exact ⟨h.next_le, Nat.lt_succ_self _⟩
      · exact ⟨(h.handedOut b hb).1, (h.handedOut b hb).2.trans (Nat.lt_succ_self _)⟩
    · intro b hb
      rcases List.mem_cons.mp hb with rfl | hb
      · exact if_pos rfl
      · exact (if_neg (hnew hb)).trans (h.used b hb)
    · intro b hb
      rcases List.mem_cons.mp hb with rfl | hb
      · exact h.fresh _ le_rfl
      · exact h.kept b hb
    · intro b hle hlt hb
      obtain ⟨hne, hb⟩ := not_or.mp (mt List.mem_cons.mpr hb)
      have hlt : b < w.next := by
        dsimp only at hlt
        omega
      exact (if_neg hne).trans (h.unused b hle hlt hb)
    · intro b hle hlt hb
      obtain ⟨hne, hb⟩ := not_or.mp (mt List.mem_cons.mpr hb)
      have hlt : b < w.next := by
        dsimp only at hlt
        omega
      exact h.freed b hle hlt hb
    · intro b hle
      dsimp only at hle
      exact h.fresh b (by omega)

theorem Ledger.free (h : Ledger w₀ w (b :: held)) : Ledger w₀ (w.free b) held := by
  obtain ⟨hnot, hnodup⟩ := List.nodup_cons.mp h.nodup
  have hin := h.handedOut b List.mem_cons_self
  have hcount : ∀ c, (w.free b).freed.count c = w.freed.count c + if b = c then 1 else 0 := by
    intro c
    rw [World.free, List.count_append, List.count_singleton]
    simp
  have hother : ∀ {c n}, c ≠ b → FreedSince w₀ w c n → FreedSince w₀ (w.free b) c n := by
    intro c n hne hc
    rw [FreedSince, hcount, if_neg (Ne.symm hne)]
    exact hc
  have hne : ∀ {c}, c ∈ held → c ≠ b := fun hc heq => hnot (heq ▸ hc)
  refine ⟨h.next_le, hnodup, ?_, ?_, ?_, ?_, ?_, ?_⟩
  · exact fun c hc => h.handedOut c (List.mem_cons_of_mem _ hc)
  · exact fun c hc => (if_neg (hne hc)).trans (h.used c (List.mem_cons_of_mem _ hc))
  · exact fun c hc => hother (hne hc) (h.kept c (List.mem_cons_of_mem _ hc))
  · intro c hle hlt hc
    by_cases heq : c = b
    · exact if_pos heq
    · refine (if_neg heq).trans (h.unused c hle hlt fun hmem => ?_)
      exact (List.mem_cons.mp hmem).elim heq hc
  · intro c hle hlt hc
    by_cases heq : c = b
    · rw [heq, FreedSince, hcount, if_pos rfl, h.kept b List.mem_cons_self]
    · refine hother heq (h.freed c hle hlt fun hmem => ?_)
      exact (List.mem_cons.mp hmem).elim heq hc
  · intro c hle
    refine hother ?_ (h.fresh c hle)
    have hlt : b < w.next := hin.2
    have hle' : w.next ≤ c := hle
    omega

theorem Ledger.freeAll {blocks : List (Option Nat)}
    (h : Ledger w₀ w (blocks.reduceOption ++ held)) : Ledger w₀ (w.freeAll blocks) held := by
  induction blocks generalizing w with
  | nil => exact h
  | cons block blocks ih =>
    cases block with
    | none => exact ih h
    | some b => exact ih h.free

/-- What is held is settled by the two worlds. -/
theorem Ledger.mem_iff {held' : List Nat} (h : Ledger w₀ w held) (h' : Ledger w₀ w held') :
    b ∈ held ↔ b ∈ held' := by
  have hsub : ∀ {held held'}, Ledger w₀ w held → Ledger w₀ w held' → b ∈ held → b ∈ held' := by
    intro held held' h h' hb
    by_contra hnot
    have hin := h.handedOut b hb
    exact absurd (h.used b hb) (by rw [h'.unused b hin.1 hin.2 hnot]; decide)
  exact ⟨hsub h h', hsub h' h⟩

/-- Nothing more is held. -/
theorem Ledger.append_iff {lost : List Nat} (h : Ledger w₀ w (held ++ lost)) :
    Ledger w₀ w held ↔ lost = [] := by
  constructor
  · intro h'
    refine List.eq_nil_iff_forall_not_mem.mpr fun b hb => ?_
    have hmem := (h.mem_iff h').mp (List.mem_append_right held hb)
    exact (List.nodup_append.mp h.nodup).2.2 b hmem b hb rfl
  · rintro rfl
    rwa [List.append_nil] at h

end BootLoader.Driver
