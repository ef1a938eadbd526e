import Mathlib.Data.List.Perm.Subperm
import Mathlib.Logic.Function.Basic

/-!
# Pools of linked descriptors

Descriptors are taken from a fixed pool, linked into a chain for a controller to follow, and
released by following the chain once more.
-/

namespace DescriptorPool

variable {α : Type*}

structure Slot (α : Type*) where
  used : Bool
  next : Option Nat
  body : α

abbrev Pool (α : Type*) := Nat → Slot α

/-! ## Operations -/

/-- The first of `size` slots that is not in use is taken. -/
def take (p : Pool α) (size : Nat) (body : α) : Option (Pool α × Nat) :=
  ((List.range size).find? fun i => !(p i).used).map fun i =>
    (Function.update p i ⟨true, none, body⟩, i)

def link (p : Pool α) (prev : Option Nat) (i : Nat) : Pool α :=
  match prev with
  | none => p
  | some j => Function.update p j { p j with next := some i }

/-- What a controller meets from `cur` on until it is at `stop`. -/
def follow (p : Pool α) (stop : Option Nat) : Nat → Option Nat → List Nat
  | 0, _ => []
  | fuel + 1, cur =>
    if cur = stop then []
    else match cur with
      | none => []
      | some i => i :: follow p stop fuel (p i).next

/-- The slots of a chain are marked unused; `none` if it does not end. -/
def release (p : Pool α) : Nat → Nat → Option (Pool α)
  | 0, _ => none
  | fuel + 1, i =>
    let p := Function.update p i { p i with used := false }
    match (p i).next with
    | none => some p
    | some j => release p fuel j

/-- A chain in the making: the pool with the first and the last slot of the chain, or without them
once there was no slot to be had. -/
abbrev Building (α : Type*) := Pool α × Option (Option Nat × Option Nat)

/-- One more slot, which `init` takes and fills, is linked behind the last one. -/
def takeNext (init : Pool α → Option (Pool α × Nat)) : Building α → Building α
  | (p, none) => (p, none)
  | (p, some (head, last)) =>
    match init p with
    | none => (p, none)
    | some (p, i) => (link p last i, some (head.or (some i), some i))

/-- One slot for each packet of at most `packet` bytes of `length`, from offset `off` on, and the
toggle behind them. -/
def takePackets (init : Nat → Nat → Bool → Pool α → Option (Pool α × Nat)) (packet : Nat) :
    Nat → Bool → Nat → Nat → Building α → Building α × Bool
  | 0, toggle, _, _, b => ((b.1, none), toggle)
  | fuel + 1, toggle, length, off, b =>
    if 0 < length then
      takePackets init packet fuel (!toggle) (length - packet) (off + packet)
        (takeNext (init off (min length packet) toggle) b)
    else (b, toggle)

/-- A first slot, one for each packet, the toggles alternating from true on, and a last one. -/
def takeStages (first last : Pool α → Option (Pool α × Nat))
    (initPacket : Nat → Nat → Bool → Pool α → Option (Pool α × Nat)) (packet fuel length : Nat)
    (p : Pool α) : Building α :=
  takeNext last
    (takePackets initPacket packet fuel true length 0 (takeNext first (p, some (none, none)))).1

/-! ## Chains -/

/-- Each slot leads to the next one, and the last one to nothing. -/
def Linked (p : Pool α) : List Nat → Prop
  | [] => True
  | [i] => (p i).next = none
  | i :: j :: is => (p i).next = some j ∧ Linked p (j :: is)

/-- `p'` is `p` with a chain of the slots `is`, which were free. -/
structure Built (size : Nat) (p p' : Pool α) (is : List Nat) (bodies : List α) : Prop where
  nodup : is.Nodup
  free : ∀ i ∈ is, i < size ∧ (p i).used = false
  used : ∀ i ∈ is, (p' i).used = true
  kept : ∀ i ∉ is, p' i = p i
  bodies_eq : is.map (fun i => (p' i).body) = bodies
  linked : Linked p' is

variable {size fuel i j : Nat} {p p' p'' : Pool α} {is : List Nat} {bodies : List α} {b : α}

theorem Linked.congr (h : Linked p is) (hp : ∀ i ∈ is, p' i = p i) : Linked p' is := by
  induction is with
  | nil => trivial
  | cons i is ih =>
    cases is with
    | nil =>
      unfold Linked at h ⊢
      rwa [hp i (by simp)]
    | cons j is =>
      refine ⟨?_, ih h.2 fun k hk => hp k (by simp [hk])⟩
      rw [hp i (by simp)]
      exact h.1

theorem Linked.snoc (h : Linked p is) (hnodup : (is ++ [j]).Nodup) (hj : (p j).next = none) :
    Linked (link p is.getLast? j) (is ++ [j]) := by
  induction is with
  | nil => simpa [Linked, link] using hj
  | cons i is ih =>
    rw [List.cons_append, List.nodup_cons] at hnodup
    cases is with
    | nil =>
      have hne : j ≠ i := by simpa [eq_comm] using hnodup.1
      simp [Linked, link, Function.update_of_ne hne, hj]
    | cons k is =>
      have hrest := ih h.2 hnodup.2
      rw [List.getLast?_cons_cons]
      refine ⟨?_, hrest⟩
      have hlast : (k :: is).getLast? = some ((k :: is).getLast (by simp)) :=
        List.getLast?_eq_some_getLast (by simp)
      have hne : i ≠ (k :: is).getLast (by simp) := by
        intro heq
        exact hnodup.1 (List.mem_append_left _ (heq ▸ List.getLast_mem _))
      rw [hlast, link, Function.update_of_ne hne]
      exact h.1

theorem take_spec (h : take p size b = some (p', j)) :
    j < size ∧ (p j).used = false ∧ p' = Function.update p j ⟨true, none, b⟩ := by
  unfold take at h
  obtain ⟨i, hi, heq⟩ := Option.map_eq_some_iff.mp h
  obtain ⟨rfl, rfl⟩ := Prod.mk.inj heq
  have hmem := List.mem_range.mp (List.mem_of_find?_eq_some hi)
  exact ⟨hmem, by simpa using List.find?_some hi, rfl⟩

theorem take_eq_none (h : take p size b = none) : ∀ i < size, (p i).used = true := by
  unfold take at h
  rw [Option.map_eq_none_iff, List.find?_eq_none] at h
  intro i hi
  simpa using h i (List.mem_range.mpr hi)

theorem Built.nil (size : Nat) (p : Pool α) : Built size p p [] [] :=
  ⟨List.nodup_nil, by simp, by simp, fun _ _ => rfl, rfl, trivial⟩

theorem link_used (p : Pool α) (prev : Option Nat) (j k : Nat) :
    (link p prev j k).used = (p k).used ∧ (link p prev j k).body = (p k).body := by
  cases prev with
  | none => exact ⟨rfl, rfl⟩
  | some l =>
    unfold link
    rcases eq_or_ne k l with rfl | hne
    · simp
    · simp [Function.update_of_ne hne]

/-- **A slot that is taken joins the chain at its end.** -/
theorem Built.take (h : Built size p p' is bodies) (htake : take p' size b = some (p'', j)) :
    Built size p (link p'' is.getLast? j) (is ++ [j]) (bodies ++ [b]) := by
  obtain ⟨hj, hfree, rfl⟩ := take_spec htake
  have hnew : j ∉ is := by
    intro hmem
    rw [h.used j hmem] at hfree
    contradiction
  have hnodup : (is ++ [j]).Nodup := by
    rw [List.nodup_append]
    refine ⟨h.nodup, by simp, ?_⟩
    rintro a ha c hc rfl
    exact hnew (List.mem_singleton.mp hc ▸ ha)
  have hother : ∀ i ∈ is, Function.update p' j ⟨true, none, b⟩ i = p' i := by
    intro i hi
    exact Function.update_of_ne (fun heq : i = j => hnew (heq ▸ hi)) _ _
  refine ⟨hnodup, ?_, ?_, ?_, ?_, ?_⟩
  · intro i hi
    rcases List.mem_append.mp hi with hi | hi
    · exact h.free i hi
    · rw [List.mem_singleton.mp hi]
      exact ⟨hj, by rw [← h.kept j hnew]; exact hfree⟩
  · intro i hi
    rw [(link_used _ _ _ _).1]
    rcases List.mem_append.mp hi with hi | hi
    · rw [hother i hi]
      exact h.used i hi
    · rw [List.mem_singleton.mp hi, Function.update_self]
  · intro i hi
    rw [List.mem_append, not_or, List.mem_singleton] at hi
    have hkept : Function.update p' j ⟨true, none, b⟩ i = p i := by
      rw [Function.update_of_ne hi.2]
      exact h.kept i hi.1
    cases hlast : is.getLast? with
    | none => exact hkept
    | some l =>
      have hne : i ≠ l := fun heq => hi.1 (heq ▸ List.mem_of_getLast? hlast)
      rw [link, Function.update_of_ne hne]
      exact hkept
  · rw [List.map_append, ← h.bodies_eq]
    congr 1
    · apply List.map_congr_left
      intro i hi
      rw [(link_used _ _ _ _).2, hother i hi]
    · simp [(link_used _ _ _ _).2]
  · exact (h.linked.congr hother).snoc hnodup (by simp)

/-! ## The chain is met as it was built -/

theorem follow_eq (h : Linked p is) (hfuel : is.length ≤ fuel) :
    follow p none fuel is.head? = is := by
  induction is generalizing fuel with
  | nil => cases fuel <;> rfl
  | cons i is ih =>
    obtain ⟨fuel, rfl⟩ : ∃ n, fuel = n + 1 := ⟨fuel - 1, by simp at hfuel; omega⟩
    have hlen : is.length ≤ fuel := by simpa using hfuel
    simp only [List.head?_cons, follow, reduceCtorEq, if_false]
    cases is with
    | nil =>
      simp only [Linked] at h
      rw [h]
      exact congrArg _ (ih (by trivial) hlen)
    | cons j is =>
      rw [h.1]
      exact congrArg _ (ih h.2 hlen)

/-- A controller that stops at the last slot does not meet it. -/
theorem follow_before_last (h : Linked p (is ++ [j])) (hnodup : (is ++ [j]).Nodup)
    (hfuel : is.length < fuel) : follow p (some j) fuel (is ++ [j]).head? = is := by
  induction is generalizing fuel with
  | nil =>
    obtain ⟨fuel, rfl⟩ : ∃ n, fuel = n + 1 := ⟨fuel - 1, by simp at hfuel; omega⟩
    simp [follow]
  | cons i is ih =>
    obtain ⟨fuel, rfl⟩ : ∃ n, fuel = n + 1 := ⟨fuel - 1, by simp at hfuel; omega⟩
    have hlen : is.length < fuel := by simpa using hfuel
    rw [List.cons_append, List.nodup_cons] at hnodup
    have hne : i ≠ j := by
      rintro rfl
      exact hnodup.1 (by simp)
    have hnext : (p i).next = (is ++ [j]).head? ∧ Linked p (is ++ [j]) := by
      cases is with
      | nil => exact ⟨h.1, h.2⟩
      | cons k is => exact ⟨h.1, h.2⟩
    simp only [List.cons_append, List.head?_cons, follow, Option.some.injEq, hne, if_false]
    rw [hnext.1, ih hnext.2 hnodup.2 hlen]

theorem release_spec (h : Linked p is) (hnodup : is.Nodup) (hfuel : is.length ≤ fuel)
    (hhead : is.head? = some i) :
    ∃ p', release p fuel i = some p' ∧ ∀ k, (p' k).used = if k ∈ is then false else (p k).used := by
  induction is generalizing fuel p i with
  | nil => simp at hhead
  | cons j is ih =>
    obtain rfl : j = i := by simpa using hhead
    obtain ⟨fuel, rfl⟩ : ∃ n, fuel = n + 1 := ⟨fuel - 1, by simp at hfuel; omega⟩
    have hlen : is.length ≤ fuel := by simpa using hfuel
    obtain ⟨hj, hrest⟩ := List.nodup_cons.mp hnodup
    have hmark : ∀ k ≠ j, (Function.update p j { p j with used := false } k) = p k :=
      fun k hk => Function.update_of_ne hk _ _
    cases is with
    | nil =>
      have hnext : (Function.update p j { p j with used := false } j).next = none := by
        simpa [Linked] using h
      rw [release]
      simp only [hnext]
      refine ⟨_, rfl, fun k => ?_⟩
      rcases eq_or_ne k j with rfl | hne
      · simp
      · simp [hne]
    | cons l is =>
      have hnext : (Function.update p j { p j with used := false } j).next = some l := by
        simpa using h.1
      rw [release]
      simp only [hnext]
      have hlinked : Linked (Function.update p j { p j with used := false }) (l :: is) :=
        h.2.congr fun k hk => hmark k (fun heq => hj (heq ▸ hk))
      obtain ⟨p', hp', hused⟩ := ih hlinked hrest hlen rfl
      refine ⟨p', hp', fun k => ?_⟩
      rw [hused k]
      rcases eq_or_ne k j with rfl | hne
      · simp [hj]
      · rw [hmark k hne]
        simp [hne]

/-- What was in use before the chain was built is in use after its release. -/
theorem Built.release (h : Built size p p' is bodies) (hfuel : is.length ≤ fuel)
    (hhead : is.head? = some i) :
    ∃ p'', DescriptorPool.release p' fuel i = some p'' ∧ ∀ k, (p'' k).used = (p k).used := by
  obtain ⟨p'', hrelease, hused⟩ := release_spec h.linked h.nodup hfuel hhead
  refine ⟨p'', hrelease, fun k => ?_⟩
  rw [hused k]
  split_ifs with hk
  · exact ((h.free k hk).2).symm
  · rw [h.kept k hk]

theorem Built.length_le (h : Built size p p' is bodies) : is.length ≤ size := by
  have hsub : is ⊆ List.range size := fun i hi => List.mem_range.mpr (h.free i hi).1
  simpa using (List.Nodup.subperm h.nodup hsub).length_le

theorem Built.follow (h : Built size p p' is bodies) :
    (DescriptorPool.follow p' none size is.head?).map (fun i => (p' i).body) = bodies := by
  rw [follow_eq h.linked h.length_le, h.bodies_eq]

theorem Built.follow_before_last {b : α} (h : Built size p p' is (bodies ++ [b])) :
    (DescriptorPool.follow p' is.getLast? size is.head?).map (fun i => (p' i).body) = bodies := by
  have hbodies := h.bodies_eq
  rcases List.eq_nil_or_concat' is with rfl | ⟨is', j, rfl⟩
  · simp at hbodies
  · have hlen : is'.length + 1 ≤ size := by simpa using h.length_le
    rw [List.getLast?_concat, DescriptorPool.follow_before_last h.linked h.nodup hlen]
    rw [List.map_append] at hbodies
    exact (List.append_inj' hbodies rfl).1

/-! ## Packets -/

def packetCount (packet length : Nat) : Nat := (length + packet - 1) / packet

theorem packetCount_pos {packet length : Nat} (hpacket : 0 < packet) (hlength : 0 < length) :
    packetCount packet length = packetCount packet (length - packet) + 1 := by
  unfold packetCount
  rcases Nat.lt_or_ge packet length with hlt | hge
  · rw [show length + packet - 1 = length - packet + packet - 1 + packet by omega,
      Nat.add_div_right _ hpacket]
  · rw [Nat.sub_eq_zero_of_le hge, Nat.zero_add,
      Nat.div_eq_of_lt (show packet - 1 < packet by omega),
      show length + packet - 1 = length - 1 + packet by omega, Nat.add_div_right _ hpacket,
      Nat.div_eq_of_lt (show length - 1 < packet by omega)]

/-- The bodies of the packets that `length` bytes are cut into, and the toggle behind them. -/
inductive Cut (body : Nat → Nat → Bool → α) (packet : Nat) :
    Bool → Nat → Nat → List α → Bool → Prop
  | done (toggle : Bool) (off : Nat) : Cut body packet toggle 0 off [] toggle
  | more {toggle toggle' : Bool} {length off : Nat} {bs : List α} (hpos : 0 < length)
      (hrest : Cut body packet (!toggle) (length - packet) (off + packet) bs toggle') :
      Cut body packet toggle length off (body off (min length packet) toggle :: bs) toggle'

/-- What a chain in the making holds. -/
def Holds (size : Nat) (p : Pool α) (c : Building α) (is : List Nat) (bodies : List α) : Prop :=
  c.2 = some (is.head?, is.getLast?) ∧ Built size p c.1 is bodies

/-- `init` takes a slot and gives it this body. -/
def Inits (size : Nat) (init : Pool α → Option (Pool α × Nat)) (b : α) : Prop :=
  ∀ p r, init p = some r → DescriptorPool.take p size b = some r

variable {c : Building α} {init : Pool α → Option (Pool α × Nat)}
  {initPacket : Nat → Nat → Bool → Pool α → Option (Pool α × Nat)}
  {body : Nat → Nat → Bool → α} {packet length off : Nat} {toggle : Bool}

theorem holds_nil (size : Nat) (p : Pool α) : Holds size p (p, some (none, none)) [] [] :=
  ⟨rfl, Built.nil size p⟩

/-- Once there was no slot, no chain comes about. -/
theorem takeNext_some (h : (takeNext init c).2 ≠ none) : c.2 ≠ none := by
  obtain ⟨p, r⟩ := c
  cases r with
  | none => exact h
  | some r => simp

theorem takePackets_some
    (h : (takePackets initPacket packet fuel toggle length off c).1.2 ≠ none) : c.2 ≠ none := by
  induction fuel generalizing toggle length off c with
  | zero => simp [takePackets] at h
  | succ fuel ih =>
    rw [takePackets] at h
    split_ifs at h with hpos
    · exact takeNext_some (ih h)
    · exact h

theorem takeNext_spec (h : Holds size p c is bodies) (hinit : Inits size init b)
    (hsome : (takeNext init c).2 ≠ none) :
    ∃ j, Holds size p (takeNext init c) (is ++ [j]) (bodies ++ [b]) := by
  obtain ⟨p', r⟩ := c
  obtain ⟨rfl, hbuilt⟩ := h
  cases htake : init p' with
  | none => simp [takeNext, htake] at hsome
  | some r =>
    obtain ⟨p'', j⟩ := r
    refine ⟨j, ?_, ?_⟩
    · simp only [takeNext, htake, List.head?_append, List.getLast?_concat]
      rfl
    · simp only [takeNext, htake]
      exact hbuilt.take (hinit _ _ htake)

theorem takePackets_spec (h : Holds size p c is bodies)
    (hinit : ∀ o n t, Inits size (initPacket o n t) (body o n t))
    (hsome : (takePackets initPacket packet fuel toggle length off c).1.2 ≠ none) :
    ∃ is' cs, Cut body packet toggle length off cs
        (takePackets initPacket packet fuel toggle length off c).2 ∧
      Holds size p (takePackets initPacket packet fuel toggle length off c).1 (is ++ is')
        (bodies ++ cs) := by
  induction fuel generalizing c is bodies toggle length off with
  | zero => simp [takePackets] at hsome
  | succ fuel ih =>
    rw [takePackets] at hsome ⊢
    split_ifs at hsome ⊢ with hpos
    · obtain ⟨j, hnext⟩ := takeNext_spec h (hinit _ _ _) (takePackets_some hsome)
      obtain ⟨is', cs, hcut, hholds⟩ := ih hnext hsome
      rw [List.append_assoc, List.append_assoc] at hholds
      exact ⟨j :: is', _ :: cs, Cut.more hpos hcut, hholds⟩
    · obtain rfl : length = 0 := by omega
      exact ⟨[], [], Cut.done _ _, by simpa using h⟩

/-- **The chain of the three stages.** -/
theorem takeStages_spec {first last : Pool α → Option (Pool α × Nat)} {f l : α}
    (hfirst : Inits size first f) (hpackets : ∀ o n t, Inits size (initPacket o n t) (body o n t))
    (hlast : Inits size last l)
    (hsome : (takeStages first last initPacket packet fuel length p).2 ≠ none) :
    ∃ is cs toggle, Cut body packet true length 0 cs toggle ∧
      Holds size p (takeStages first last initPacket packet fuel length p) is
        (f :: (cs ++ [l])) := by
  unfold takeStages at hsome ⊢
  have hsome' := takeNext_some hsome
  obtain ⟨i, hone⟩ := takeNext_spec (holds_nil size p) hfirst (takePackets_some hsome')
  obtain ⟨is, cs, hcut, hdata⟩ := takePackets_spec hone hpackets hsome'
  obtain ⟨j, hall⟩ := takeNext_spec hdata hlast hsome
  exact ⟨_, cs, _, hcut, hall⟩

/-! ## Enough slots -/

/-- From a pool of free slots a chain can be built as long as the pool. -/
theorem Built.exists_take (h : Built size p p' is bodies) (hfree : ∀ i < size, (p i).used = false)
    (hroom : is.length < size) (b : α) : DescriptorPool.take p' size b ≠ none := by
  intro htake
  have hall := take_eq_none htake
  have hsub : List.range size ⊆ is := by
    intro i hi
    have hlt := List.mem_range.mp hi
    by_contra hnot
    have hused := hall i hlt
    rw [h.kept i hnot, hfree i hlt] at hused
    contradiction
  have hle := (List.Nodup.subperm List.nodup_range hsub).length_le
  rw [List.length_range] at hle
  omega

theorem takeNext_exists (h : Holds size p c is bodies) (hfree : ∀ i < size, (p i).used = false)
    (hroom : is.length < size) (b : α) :
    (takeNext (fun p => DescriptorPool.take p size b) c).2 ≠ none := by
  obtain ⟨p', r⟩ := c
  obtain ⟨rfl, hbuilt⟩ := h
  have htake := hbuilt.exists_take hfree hroom b
  cases hr : DescriptorPool.take p' size b with
  | none => exact absurd hr htake
  | some r => simp [takeNext, hr]

theorem takePackets_exists (toggle : Bool) (off : Nat) (h : Holds size p c is bodies)
    (hfree : ∀ i < size, (p i).used = false) (hpacket : 0 < packet)
    (hroom : is.length + packetCount packet length ≤ size)
    (hfuel : packetCount packet length < fuel) (body : Nat → Nat → Bool → α) :
    (takePackets (fun o n t p => DescriptorPool.take p size (body o n t)) packet fuel toggle length
      off c).1.2 ≠ none := by
  induction fuel generalizing c is bodies toggle length off with
  | zero => omega
  | succ fuel ih =>
    rw [takePackets]
    split_ifs with hpos
    · have hcount := packetCount_pos hpacket hpos
      have hnext := takeNext_exists h hfree (by omega) (body off (min length packet) toggle)
      obtain ⟨j, hholds⟩ := takeNext_spec h (fun _ _ hr => hr) hnext
      exact ih _ _ hholds (by rw [List.length_append, List.length_singleton]; omega) (by omega)
    · rw [h.1]
      simp

theorem Cut.length_eq {bs : List α} {toggle' : Bool}
    (h : Cut body packet toggle length off bs toggle') (hpacket : 0 < packet) :
    bs.length = packetCount packet length := by
  induction h with
  | done =>
    unfold packetCount
    rw [Nat.zero_add, Nat.div_eq_of_lt (by omega)]
    rfl
  | more hpos _ ih => rw [List.length_cons, ih, packetCount_pos hpacket hpos]

theorem lt_packetCount_iff (hpacket : 0 < packet) : i < packetCount packet length ↔
    i * packet < length := by
  unfold packetCount
  rw [← Nat.succ_le_iff, Nat.le_div_iff_mul_le hpacket, Nat.succ_mul]
  omega

/-- The packets that occur: full ones, and what is left behind them. -/
theorem forall_packet_iff {P : Nat → Prop} (hpacket : 0 < packet) :
    (∀ i < packetCount packet length, P (min (length - i * packet) packet)) ↔
      (packet ≤ length → P packet) ∧ (length % packet ≠ 0 → P (length % packet)) := by
  have hdiv := Nat.div_add_mod' length packet
  have hmod := Nat.mod_lt length hpacket
  constructor
  · intro h
    constructor
    · intro hfull
      have hfirst := h 0 ((lt_packetCount_iff hpacket).mpr (by omega))
      rwa [Nat.zero_mul, Nat.sub_zero, Nat.min_eq_right hfull] at hfirst
    · intro hleft
      have hlast := h (length / packet) ((lt_packetCount_iff hpacket).mpr (by omega))
      rwa [show length - length / packet * packet = length % packet by omega,
        Nat.min_eq_left (Nat.le_of_lt hmod)] at hlast
  · rintro ⟨hfull, hleft⟩ i hi
    have hstart := (lt_packetCount_iff hpacket).mp hi
    rcases Nat.le_total packet (length - i * packet) with hle | hge
    · rw [Nat.min_eq_right hle]
      exact hfull (by omega)
    · rcases Nat.eq_or_lt_of_le hge with heq | hlt
      · rw [heq, Nat.min_self]
        exact hfull (by omega)
      · have hrest : length % packet = length - i * packet := by
          have hle : packet * i ≤ length := by
            rw [Nat.mul_comm]
            omega
          rw [← Nat.sub_mul_mod hle, Nat.mul_comm, Nat.mod_eq_of_lt hlt]
        rw [Nat.min_eq_left hge, ← hrest]
        exact hleft (by omega)

/-- The toggle behind `n` packets. -/
def toggleAfter (toggle : Bool) (n : Nat) : Bool := if n % 2 = 0 then toggle else !toggle

theorem toggleAfter_add (m n : Nat) :
    toggleAfter toggle (m + n) = toggleAfter (toggleAfter toggle m) n := by
  unfold toggleAfter
  rcases Nat.mod_two_eq_zero_or_one m with hm | hm <;>
    rcases Nat.mod_two_eq_zero_or_one n with hn | hn <;> simp [Nat.add_mod, hm, hn]

/-- The packets by their number. -/
theorem Cut.eq_map {bs : List α} {toggle' : Bool}
    (h : Cut body packet toggle length off bs toggle') (hpacket : 0 < packet) :
    bs = (List.range (packetCount packet length)).map (fun i =>
        body (off + i * packet) (min (length - i * packet) packet) (toggleAfter toggle i)) ∧
      toggle' = toggleAfter toggle (packetCount packet length) := by
  induction h with
  | done =>
    have hzero : packetCount packet 0 = 0 := Nat.div_eq_of_lt (by omega)
    rw [hzero]
    exact ⟨rfl, rfl⟩
  | more hpos hrest ih =>
    obtain ⟨hbs, htoggle⟩ := ih
    have hflip : ∀ (toggle : Bool) (i : Nat),
        toggleAfter (!toggle) i = toggleAfter toggle (i + 1) := by
      intro toggle i
      rw [Nat.add_comm, toggleAfter_add]
      rfl
    rw [packetCount_pos hpacket hpos, List.range_succ_eq_map, List.map_cons, List.map_map, hbs,
      htoggle, hflip]
    refine ⟨congrArg₂ List.cons (by simp [toggleAfter]) (List.map_congr_left fun i _ => ?_), rfl⟩
    rw [hflip, Function.comp_apply, Nat.succ_eq_add_one, Nat.add_one_mul, Nat.sub_sub,
      Nat.add_assoc, Nat.add_comm packet]

theorem Built.length_bodies (h : Built size p p' is bodies) : bodies.length = is.length := by
  rw [← h.bodies_eq, List.length_map]

theorem takeStages_exists (hfree : ∀ i < size, (p i).used = false) (hpacket : 0 < packet)
    (hroom : packetCount packet length + 2 ≤ size) (hfuel : size < fuel) (f l : α)
    (body : Nat → Nat → Bool → α) :
    (takeStages (fun p => DescriptorPool.take p size f) (fun p => DescriptorPool.take p size l)
      (fun o n t p => DescriptorPool.take p size (body o n t)) packet fuel length p).2 ≠ none := by
  unfold takeStages
  have hfirst := takeNext_exists (holds_nil size p) hfree (by rw [List.length_nil]; omega) f
  obtain ⟨i, hone⟩ := takeNext_spec (holds_nil size p) (fun _ _ hr => hr) hfirst
  have hpackets := takePackets_exists true 0 hone hfree hpacket
    (by rw [List.nil_append, List.length_singleton]; omega)
    (show packetCount packet length < fuel by omega) body
  obtain ⟨is, cs, hcut, hdata⟩ := takePackets_spec hone (fun _ _ _ _ _ hr => hr) hpackets
  have hlen := hdata.2.length_bodies
  rw [List.length_append, hcut.length_eq hpacket, List.nil_append, List.length_singleton] at hlen
  exact takeNext_exists hdata hfree (by omega) l

/-! ## What stays in use -/

theorem takeNext_used (hinit : Inits size init b) (h : (c.1 i).used = true) :
    ((takeNext init c).1 i).used = true := by
  obtain ⟨p, r⟩ := c
  cases r with
  | none => exact h
  | some r =>
    cases htake : init p with
    | none => simpa only [takeNext, htake] using h
    | some out =>
      obtain ⟨p', j⟩ := out
      obtain ⟨-, -, rfl⟩ := take_spec (hinit _ _ htake)
      simp only [takeNext, htake, (link_used _ _ _ _).1]
      rcases eq_or_ne i j with rfl | hne
      · simp
      · simpa [Function.update_of_ne hne] using h

theorem takePackets_used (hinit : ∀ o n t, Inits size (initPacket o n t) (body o n t))
    (h : (c.1 i).used = true) :
    ((takePackets initPacket packet fuel toggle length off c).1.1 i).used = true := by
  induction fuel generalizing toggle length off c with
  | zero => exact h
  | succ fuel ih =>
    rw [takePackets]
    split_ifs
    · exact ih (takeNext_used (hinit _ _ _) h)
    · exact h

/-- Only the packets that come up count. -/
theorem takePackets_congr {initPacket' : Nat → Nat → Bool → Pool α → Option (Pool α × Nat)}
    (h : ∀ o n t, n ≤ min length packet → initPacket o n t = initPacket' o n t) :
    takePackets initPacket packet fuel toggle length off c =
      takePackets initPacket' packet fuel toggle length off c := by
  induction fuel generalizing toggle length off c with
  | zero => rfl
  | succ fuel ih =>
    rw [takePackets, takePackets, h _ _ _ (Nat.le_refl _)]
    split_ifs
    · exact ih fun o n t hn => h o n t (by omega)
    · rfl

/-! ## In order -/

/-- The first `n` slots are in use. -/
def FirstUsed (size : Nat) (p : Pool α) (n : Nat) : Prop := ∀ i < size, (p i).used = true ↔ i < n

theorem FirstUsed.take {n : Nat} (h : FirstUsed size p n) (htake : take p size b = some (p', j)) :
    j = n ∧ FirstUsed size p' (n + 1) := by
  obtain ⟨hj, hfree, rfl⟩ := take_spec htake
  have hn : j = n := by
    unfold DescriptorPool.take at htake
    obtain ⟨k, hk, heq⟩ := Option.map_eq_some_iff.mp htake
    obtain rfl : k = j := (Prod.mk.inj heq).2
    obtain ⟨-, -, hfirst⟩ := List.find?_range_eq_some.mp hk
    have hle : ¬ k < n := fun hlt => by simp [(h k hj).mpr hlt] at hfree
    have hge : ¬ n < k := fun hlt => by
      have hused := hfirst n hlt
      simp only [Bool.not_not] at hused
      exact absurd ((h n (by omega)).mp hused) (Nat.lt_irrefl n)
    omega
  subst hn
  refine ⟨rfl, fun i hi => ?_⟩
  rcases eq_or_ne i j with rfl | hne
  · simp
  · rw [Function.update_of_ne hne, h i hi]
    omega

theorem FirstUsed.takeNext {n : Nat} {ends : Option Nat × Option Nat} (h : FirstUsed size c.1 n)
    (hinit : Inits size init b) (hsome : (takeNext init c).2 = some ends) :
    FirstUsed size (takeNext init c).1 (n + 1) ∧ ends.2 = some n := by
  obtain ⟨p, r⟩ := c
  cases r with
  | none => simp [DescriptorPool.takeNext] at hsome
  | some r =>
    cases htake : init p with
    | none => simp [DescriptorPool.takeNext, htake] at hsome
    | some out =>
      obtain ⟨p', j⟩ := out
      obtain ⟨rfl, hfirst⟩ := h.take (hinit _ _ htake)
      simp only [DescriptorPool.takeNext, htake, Option.some.injEq] at hsome ⊢
      refine ⟨fun i hi => ?_, by rw [← hsome]⟩
      rw [(link_used _ _ _ _).1]
      exact hfirst i hi

theorem FirstUsed.takePackets {n : Nat} (h : FirstUsed size c.1 n) (hpacket : 0 < packet)
    (hinit : ∀ o n t, Inits size (initPacket o n t) (body o n t))
    (hsome : (takePackets initPacket packet fuel toggle length off c).1.2 ≠ none) :
    FirstUsed size (takePackets initPacket packet fuel toggle length off c).1.1
      (n + packetCount packet length) := by
  induction fuel generalizing n toggle length off c with
  | zero => simp [DescriptorPool.takePackets] at hsome
  | succ fuel ih =>
    rw [DescriptorPool.takePackets] at hsome ⊢
    split_ifs at hsome ⊢ with hpos
    · obtain ⟨ends, hends⟩ := Option.ne_none_iff_exists'.mp (takePackets_some hsome)
      have hnext := ih (h.takeNext (hinit _ _ _) hends).1 hsome
      rwa [packetCount_pos hpacket hpos, ← Nat.add_assoc, Nat.add_right_comm]
    · obtain rfl : length = 0 := by omega
      have hzero : packetCount packet 0 = 0 := by
        unfold packetCount
        exact Nat.div_eq_of_lt (by omega)
      rwa [hzero, Nat.add_zero]

/-- In a pool of free slots the last slot of the three stages is known. -/
theorem takeStages_last {first last : Pool α → Option (Pool α × Nat)} {f l : α}
    {ends : Option Nat × Option Nat} (hfree : ∀ i < size, (p i).used = false)
    (hpacket : 0 < packet) (hfirst : Inits size first f)
    (hpackets : ∀ o n t, Inits size (initPacket o n t) (body o n t)) (hlast : Inits size last l)
    (hsome : (takeStages first last initPacket packet fuel length p).2 = some ends) :
    ends.2 = some (packetCount packet length + 1) := by
  unfold takeStages at hsome
  have hsome' := takeNext_some (hsome ▸ Option.some_ne_none ends)
  have hstart : FirstUsed size p 0 := fun i hi => by simp [hfree i hi]
  obtain ⟨ends', hends'⟩ := Option.ne_none_iff_exists'.mp (takePackets_some hsome')
  have hone := (FirstUsed.takeNext (c := (p, some (none, none))) hstart hfirst hends').1
  have hdata := hone.takePackets hpacket hpackets hsome'
  rw [(hdata.takeNext hlast hsome).2, Nat.add_comm 0, Nat.add_comm 1]

end DescriptorPool
