import BootLoader.Lib.DescriptorPool
import BootLoader.Usb.Code

/-!
# Control transfers on the bus

What a control transfer is, whichever controller performs it: a SETUP, the data in packets with
alternating toggles, and an empty STATUS the other way.
-/

namespace BootLoader.Usb

open DescriptorPool

/-- The two buffers of a control transfer. -/
inductive Area where
  | setup
  | data
  deriving DecidableEq

structure Ptr where
  area : Area
  off : Nat
  deriving DecidableEq

structure Transaction where
  pid : BlUsbPid
  toggle : Bool
  buffer : Option Ptr
  length : Nat
  deriving DecidableEq

def setupTransaction : Transaction := ⟨.tokenSetup, false, some ⟨.setup, 0⟩, 8⟩

def statusTransaction (setup : BlUsbSetupData) (length : Nat) : Transaction where
  pid := if length = 0 then .tokenIn else blUsbStatusPid (blUsbDirectionPid setup)
  toggle := true
  buffer := none
  length := 0

/-- `length` bytes from `off` on, cut into packets. -/
inductive DataStage (packetSize : Nat) (pid : BlUsbPid) :
    Bool → Nat → Nat → List Transaction → Prop
  | done (toggle : Bool) (off : Nat) : DataStage packetSize pid toggle 0 off []
  | packet {toggle : Bool} {length off n : Nat} {ts : List Transaction} (hpos : 0 < n)
      (hsize : n ≤ packetSize) (hlength : n ≤ length)
      (hrest : DataStage packetSize pid (!toggle) (length - n) (off + n) ts) :
      DataStage packetSize pid toggle length off (⟨pid, toggle, some ⟨.data, off⟩, n⟩ :: ts)

/-- The transactions of a whole control transfer. -/
def ControlTransfer (setup : BlUsbSetupData) (length packetSize : Nat) (ts : List Transaction) :
    Prop :=
  ∃ ds, DataStage packetSize (blUsbDirectionPid setup) true length 0 ds ∧
    ts = setupTransaction :: (ds ++ [statusTransaction setup length])

variable {packetSize length off M : Nat} {pid : BlUsbPid} {toggle toggle' : Bool}
  {setup : BlUsbSetupData} {ts ds : List Transaction} {t : Transaction}

theorem DataStage.sum_length (h : DataStage packetSize pid toggle length off ts) :
    (ts.map Transaction.length).sum = length := by
  induction h with
  | done => rfl
  | packet _ _ hlength _ ih =>
    rw [List.map_cons, List.sum_cons, ih]
    exact Nat.add_sub_cancel' hlength

theorem ControlTransfer.last (h : ControlTransfer setup length packetSize (ts ++ [t])) :
    t = statusTransaction setup length := by
  obtain ⟨ds, -, heq⟩ := h
  have hlast := congrArg List.getLast? heq
  rw [List.getLast?_concat, ← List.cons_append, List.getLast?_concat] at hlast
  exact Option.some.inj hlast

theorem ControlTransfer.data_iff (hds : t = statusTransaction setup length) :
    ControlTransfer setup length packetSize (setupTransaction :: (ds ++ [t])) ↔
      DataStage packetSize (blUsbDirectionPid setup) true length 0 ds := by
  subst hds
  constructor
  · rintro ⟨ds', hstage, heq⟩
    obtain ⟨-, heq⟩ := List.cons.inj heq
    rw [List.append_cancel_right heq]
    exact hstage
  · intro hstage
    exact ⟨ds, hstage, rfl⟩

/-! ## Packets that a controller is told of -/

variable {α : Type*} {body : Nat → Nat → Bool → α} {decode : α → Transaction} {bs : List α}

/-- Descriptors whose length field holds lengths below `M` make a data stage. -/
theorem dataStage_of_cut (h : Cut body packetSize toggle length off bs toggle')
    (hpacket : 0 < packetSize)
    (hdecode : ∀ o n b, decode (body o n b) = ⟨pid, b, some ⟨.data, o⟩, n % M⟩)
    (hfits : min length packetSize < M) :
    DataStage packetSize pid toggle length off (bs.map decode) := by
  induction h with
  | done => exact DataStage.done _ _
  | @more toggle toggle' length off bs hpos hrest ih =>
    rw [List.map_cons, hdecode, Nat.mod_eq_of_lt hfits]
    refine DataStage.packet (by omega) (by omega) (by omega) ?_
    rcases Nat.lt_or_ge packetSize length with hlt | hge
    · rw [Nat.min_eq_right (by omega)]
      exact ih (by omega)
    · -- The last packet.
      rw [Nat.min_eq_left hge, Nat.sub_self]
      rw [Nat.sub_eq_zero_of_le hge] at hrest
      cases hrest
      · exact DataStage.done _ _
      · omega

theorem sum_length_le (h : Cut body packetSize toggle length off bs toggle')
    (hdecode : ∀ o n b, decode (body o n b) = ⟨pid, b, some ⟨.data, o⟩, n % M⟩) :
    ((bs.map decode).map Transaction.length).sum ≤ length := by
  induction h with
  | done => simp
  | @more toggle toggle' length off bs hpos hrest ih =>
    rw [List.map_cons, List.map_cons, List.sum_cons, hdecode]
    have hmod := Nat.mod_le (min length packetSize) M
    simp only
    omega

/-- **The packets make a data stage exactly if their lengths fit into the length field.** -/
theorem dataStage_iff_of_cut (h : Cut body packetSize toggle length off bs toggle')
    (hpacket : 0 < packetSize)
    (hdecode : ∀ o n b, decode (body o n b) = ⟨pid, b, some ⟨.data, o⟩, n % M⟩) (hM : 0 < M) :
    DataStage packetSize pid toggle length off (bs.map decode) ↔ min length packetSize < M := by
  constructor
  · intro hstage
    have hsum := hstage.sum_length
    by_contra hlarge
    cases h with
    | done => simp at hlarge; omega
    | more hpos hrest =>
      have hle := sum_length_le hrest hdecode
      have hmod := Nat.mod_lt (min length packetSize) hM
      rw [List.map_cons, List.map_cons, List.sum_cons, hdecode] at hsum
      simp only at hsum
      omega
  · exact dataStage_of_cut h hpacket hdecode

theorem cut_getLast (h : Cut body packetSize toggle length off bs toggle')
    (hpacket : 0 < packetSize) (hlength : 0 < length) :
    ∃ bs' o n b, bs = bs' ++ [body o n b] ∧ 0 < n := by
  induction h with
  | done => omega
  | @more toggle toggle' length off bs hpos hrest ih =>
    rcases Nat.eq_zero_or_pos (length - packetSize) with hzero | hmore
    · rw [hzero] at hrest
      cases hrest with
      | done => exact ⟨[], off, min length packetSize, toggle, rfl, by omega⟩
      | more => omega
    · obtain ⟨bs', o, n, b, rfl, hn⟩ := ih hmore
      exact ⟨_ :: bs', o, n, b, rfl, hn⟩

end BootLoader.Usb
