import BootLoader.Xhci.Code

/-!
# The rings of the xHCI driver

What is queued, and where it gets.
-/

namespace BootLoader.Xhci

open DescriptorPool Usb

variable {r r' : BlXhciRing} {l : List BlXhciTrb} {trb : Nat → Nat → Bool → BlXhciTrb}
  {packetSize fuel length off : Nat}

/-! ## Queueing -/

theorem foldl_queue_enqueue (l : List BlXhciTrb) (r : BlXhciRing) :
    (l.foldl BlXhciRing.queue r).enqueue = r.enqueue + l.length := by
  induction l generalizing r with
  | nil => rfl
  | cons trb l ih =>
    rw [List.foldl_cons, ih, List.length_cons]
    show r.enqueue + 1 + l.length = _
    omega

theorem foldl_queue_frame (l : List BlXhciTrb) {r : BlXhciRing} {i : Nat} (hi : i < r.enqueue) :
    (l.foldl BlXhciRing.queue r).trbs i = r.trbs i := by
  induction l generalizing r with
  | nil => rfl
  | cons trb l ih =>
    rw [List.foldl_cons, ih (Nat.lt_succ_of_lt hi)]
    exact Function.update_of_ne hi.ne _ _

/-- The TRBs between the two positions of the enqueue pointer. -/
def BlXhciRing.between (r r' : BlXhciRing) : List BlXhciTrb :=
  (List.range (r'.enqueue - r.enqueue)).map fun k => r'.trbs (r.enqueue + k)

theorem between_foldl_queue (l : List BlXhciTrb) (r : BlXhciRing) :
    r.between (l.foldl BlXhciRing.queue r) = l := by
  unfold BlXhciRing.between
  rw [foldl_queue_enqueue, Nat.add_sub_cancel_left]
  induction l generalizing r with
  | nil => rfl
  | cons trb l ih =>
    rw [List.length_cons, List.range_succ_eq_map, List.map_cons, List.map_map, List.foldl_cons]
    congr 1
    · rw [foldl_queue_frame _ (show r.enqueue + 0 < (r.queue trb).enqueue from Nat.lt_succ_self _)]
      exact Function.update_self _ _ _
    · refine Eq.trans (List.map_congr_left fun k _ => ?_) (ih (r.queue trb))
      show _ = (l.foldl BlXhciRing.queue (r.queue trb)).trbs (r.enqueue + 1 + k)
      rw [Function.comp_apply, Nat.add_assoc, Nat.add_comm 1 k]

theorem queuePackets_data (toggle : Bool)
    (h : queuePackets (fun o n _ => dataStageTrb o n) packetSize fuel length off r = some r') :
    ∃ cs toggle',
      Cut (fun o n b => (b, dataStageTrb o n)) packetSize toggle length off cs toggle' ∧
      r' = (cs.map Prod.snd).foldl BlXhciRing.queue r := by
  induction fuel generalizing r length off toggle with
  | zero => simp [queuePackets] at h
  | succ fuel ih =>
    rw [queuePackets] at h
    split_ifs at h with hpos
    · obtain ⟨cs, toggle', hcut, hr⟩ := ih (!toggle) h
      exact ⟨_ :: cs, toggle', Cut.more hpos hcut, hr⟩
    · obtain rfl : length = 0 := by omega
      obtain rfl := Option.some.inj h
      exact ⟨[], toggle, Cut.done _ _, rfl⟩

theorem queueControl_spec {setup : BlUsbSetupData} {length : Int}
    (h : queueControl packetSize setup length r = some r') :
    ∃ cs toggle,
      Cut (fun o n b => (b, dataStageTrb o n)) packetSize true length.toNat 0 cs toggle ∧
      r' = (setupStageTrb setup :: (cs.map Prod.snd ++ [statusStageTrb])).foldl
        BlXhciRing.queue r := by
  unfold queueControl at h
  obtain ⟨r₁, hdata, rfl⟩ := Option.map_eq_some_iff.mp h
  obtain ⟨cs, toggle, hcut, rfl⟩ := queuePackets_data true hdata
  refine ⟨cs, toggle, hcut, ?_⟩
  rw [List.foldl_cons, List.foldl_append]
  rfl

/-! ## Staying inside the ring -/

/-- Every TRB was written before the Link TRB, with the cycle state of the first pass. -/
structure BlXhciRing.Sound (r : BlXhciRing) : Prop where
  inside : r.enqueue ≤ blXhciTrTrbs - 1
  writes : ∀ w ∈ r.writes, w.1 < blXhciTrTrbs - 1 ∧ w.2.cycle = true

theorem blXhciAllocTransferRing_sound : blXhciAllocTransferRing.Sound :=
  ⟨Nat.zero_le _, by simp [blXhciAllocTransferRing]⟩

theorem BlXhciRing.Sound.write (h : r.Sound) {trb : BlXhciTrb}
    (hroom : r.enqueue < blXhciTrTrbs - 1) (hcycle : trb.cycle = true) : (r.write trb).Sound where
  inside := h.inside
  writes := by
    intro w hw
    rcases List.mem_append.mp hw with hold | hnew
    · exact h.writes w hold
    · rw [List.mem_singleton.mp hnew]
      exact ⟨hroom, hcycle⟩

theorem BlXhciRing.Sound.advance (h : r.Sound) (hroom : r.enqueue < blXhciTrTrbs - 1) :
    r.advance.Sound :=
  ⟨hroom, h.writes⟩

theorem BlXhciRing.Sound.foldl_queue (h : r.Sound) (hcycle : ∀ trb ∈ l, trb.cycle = true)
    (hroom : r.enqueue + l.length ≤ blXhciTrTrbs - 1) : (l.foldl BlXhciRing.queue r).Sound := by
  induction l generalizing r with
  | nil => exact h
  | cons trb l ih =>
    rw [List.length_cons] at hroom
    have hlt : r.enqueue < blXhciTrTrbs - 1 := by omega
    refine ih ((h.write hlt (hcycle trb (by simp))).advance hlt)
      (fun t ht => hcycle t (by simp [ht])) ?_
    show r.enqueue + 1 + l.length ≤ blXhciTrTrbs - 1
    omega

/-- Packets of some bytes come to an end. -/
theorem queuePackets_exists (trb : Nat → Nat → Bool → BlXhciTrb) (off : Nat) (r : BlXhciRing)
    (hpacket : 0 < length → 0 < packetSize) (hfuel : length < fuel) :
    ∃ r', queuePackets trb packetSize fuel length off r = some r' := by
  induction fuel generalizing length off r with
  | zero => omega
  | succ fuel ih =>
    rw [queuePackets]
    split_ifs with hpos
    · have hsize := hpacket hpos
      exact ih _ _ (fun _ => hsize) (by omega)
    · exact ⟨r, rfl⟩

theorem cut_cycle {toggle toggle' : Bool} {cs : List (Bool × BlXhciTrb)}
    (h : Cut (fun o n b => (b, dataStageTrb o n)) packetSize toggle length off cs toggle') :
    ∀ trb ∈ cs.map Prod.snd, trb.cycle = true := by
  induction h with
  | done => simp
  | more _ _ ih =>
    intro trb htrb
    rcases List.mem_cons.mp htrb with rfl | hrest
    · simp only [dataStageTrb, BlXhciTrb.cycle]
      decide
    · exact ih trb hrest

/-- A transfer with room before the Link TRB is queued there. -/
theorem queueControl_sound {length : Int} (setup : BlUsbSetupData) (h : r.Sound)
    (hpacket : 0 < length → 0 < packetSize)
    (hroom : r.enqueue + packetCount packetSize length.toNat + 2 ≤ blXhciTrTrbs - 1) :
    ∃ r', queueControl packetSize setup length r = some r' ∧ r'.Sound := by
  obtain ⟨r₁, hr₁⟩ := queuePackets_exists (fun o n _ => dataStageTrb o n) 0
    (r.queue (setupStageTrb setup)) (fun hpos => hpacket (by omega))
    (Nat.lt_succ_self length.toNat)
  have hqueue : queueControl packetSize setup length r = some (r₁.queue statusStageTrb) := by
    rw [queueControl, hr₁, Option.map_some]
  refine ⟨_, hqueue, ?_⟩
  obtain ⟨cs, toggle, hcut, heq⟩ := queueControl_spec hqueue
  have hlength : cs.length = packetCount packetSize length.toNat := by
    rcases Nat.eq_zero_or_pos packetSize with rfl | hpos
    · have hzero : length.toNat = 0 := by
        by_contra hne
        exact absurd (hpacket (by omega)) (Nat.lt_irrefl 0)
      rw [hzero] at hcut ⊢
      cases hcut with
      | done => rfl
      | more hpos => exact absurd hpos (Nat.lt_irrefl 0)
    · exact hcut.length_eq hpos
  rw [heq]
  refine h.foldl_queue ?_ ?_
  · intro trb htrb
    rcases List.mem_cons.mp htrb with rfl | hrest
    · simp only [setupStageTrb, BlXhciTrb.cycle]
      decide
    · rcases List.mem_append.mp hrest with hdata | hlast
      · exact cut_cycle hcut trb hdata
      · rw [List.mem_singleton.mp hlast]
        decide
  · rw [List.length_cons, List.length_append, List.length_map, List.length_singleton, hlength]
    omega

end BootLoader.Xhci
