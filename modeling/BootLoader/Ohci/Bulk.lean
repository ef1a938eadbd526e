import BootLoader.Lib.Runs
import BootLoader.Ohci.Lists
import BootLoader.Usb.Drivers

/-!
# Bulk transfers over OHCI

Behind the packets of a transfer stands a descriptor that is not sent. The toggle is turned for it
as well, so the next transfer begins with the toggle of the last packet.
-/

open DescriptorPool

namespace BootLoader.Ohci

open Usb
open Uhci (BlUsbSpeed BlUsbEndpoint)

structure BlOhciController where
  eds : Endpoints.BlOhciController
  tds : Pool BlOhciGeneralTd

def bulkRequest (address : BitVec 32) (endp : BlUsbEndpoint) (speed : BlUsbSpeed) :
    Endpoints.Request where
  transfer := .bulk
  address := address
  endpoint := endp.endpointAddress.setWidth 32 &&& 0xf
  lowSpeed := speed = .low
  maxPacketSize := BitVec.ofNat 32 endp.maxPacketSize

/-- The descriptors, and the toggle to be saved. -/
def bulkTds (endp : BlUsbEndpoint) (direction length : Nat) (tds : Pool BlOhciGeneralTd) :
    Building BlOhciGeneralTd × Bool :=
  let dataPid := if direction ≠ 0 then .tokenOut else .tokenIn
  let finalPid := if direction ≠ 0 then .tokenIn else .tokenOut
  let packets := takePackets (fun off size toggle =>
      blOhciInitGeneralTd (some ⟨.data, off⟩) size toggle dataPid)
    endp.maxPacketSize packetFuel endp.toggle length 0 (tds, some (none, none))
  (takeNext (blOhciInitGeneralTd none 0 (!packets.2) finalPid) packets.1, !packets.2)

def removeSkip (eds : Endpoints.BlOhciController) (ed : Nat) : Endpoints.BlOhciController :=
  { eds with
    bulkEds := eds.bulkEds.setEd ed { eds.bulkEds.eds ed with
      flags := (eds.bulkEds.eds ed).flags &&& ~~~Endpoints.blOhciEdFlagsSkip } }

/-- The result is null without a descriptor. `none`: without a packet, a link is written to a null
descriptor. -/
def blOhciBulkInterruptPrepare (ohci : BlOhciController) (address : BitVec 32)
    (endp : BlUsbEndpoint) (speed : BlUsbSpeed) (direction : Nat) (length : Int) :
    Option (BlOhciController × BlUsbEndpoint × Option (Nat × BlOhciEd)) :=
  match Endpoints.blOhciInitEd ohci.eds (bulkRequest address endp speed) with
  | (eds, none) => some ({ ohci with eds }, endp, none)
  | (eds, some ed) =>
    match bulkTds endp direction length.toNat ohci.tds with
    | ((tds, none), _) => some (⟨eds, tds⟩, endp, none)
    | ((tds, some (head, last)), toggle) =>
      if length ≤ 0 then none
      else some (⟨removeSkip eds ed, tds⟩, { endp with toggle }, some (ed, ⟨head, last⟩))

/-! ## What is sent -/

/-- A transfer on the endpoint, and the pools that it finds. -/
structure BulkCall where
  ohci : BlOhciController
  address : BitVec 32
  speed : BlUsbSpeed
  direction : Nat
  length : Nat

/-- What the controller executes: the descriptors from the head pointer up to the tail pointer. -/
def BulkCall.handed (endp : BlUsbEndpoint) (c : BulkCall) :
    Option (List BlOhciGeneralTd × BlUsbEndpoint) :=
  match blOhciBulkInterruptPrepare c.ohci c.address endp c.speed c.direction c.length with
  | some (ohci, endp, some (_, ed)) =>
    some ((follow ohci.tds ed.tdTailPointer blOhciNumGeneralTds ed.tdHeadPointer).map fun i =>
      (ohci.tds i).body, endp)
  | _ => none

def bulkRun : BlUsbEndpoint → List BulkCall → Option (List (List BlOhciGeneralTd))
  | _, [] => some []
  | endp, c :: cs =>
    (c.handed endp).bind fun r => (bulkRun r.2 cs).map fun chains => r.1 :: chains

/-- The first and the last byte of each packet. -/
def pieces (packet length : Nat) : List (Option Ptr × Option Ptr) :=
  (List.range (packetCount packet length)).map fun i =>
    (some ⟨.data, i * packet⟩,
      some ⟨.data, i * packet + (min (length - i * packet) packet - 1)⟩)

/-- The toggle of a descriptor that does not leave it to the endpoint. -/
def BlOhciGeneralTd.toggle (td : BlOhciGeneralTd) : Option Bool :=
  if td.flags.getLsbD 25 then some (td.flags.getLsbD 24) else none

structure BulkRight (endp : BlUsbEndpoint) (calls : List BulkCall)
    (chains : List (List BlOhciGeneralTd)) : Prop where
  cut : List.Forall₂ (fun c chain =>
    (chain.map fun td => (td.currentBufferPointer, td.bufferEnd)) =
      pieces endp.maxPacketSize (BulkCall.length c)) calls chains
  alternate : chains.flatten.map BlOhciGeneralTd.toggle =
    (List.range chains.flatten.length).map fun i => some (toggleAfter endp.toggle i)

variable {endp endp' : BlUsbEndpoint} {c : BulkCall} {cs calls : List BulkCall}
  {chain : List BlOhciGeneralTd} {chains : List (List BlOhciGeneralTd)}

/-! ## One transfer -/

def packetTd (pid : BlUsbPid) (off size : Nat) (toggle : Bool) : BlOhciGeneralTd :=
  initializedGeneralTd (some ⟨.data, off⟩) size toggle pid

theorem packetTd_toggle (pid : BlUsbPid) (off size : Nat) (toggle : Bool) :
    (packetTd pid off size toggle).toggle = some toggle := by
  have hown : (tdFlags toggle pid).getLsbD 25 = true := by
    cases pid <;> cases toggle <;> decide
  have hbit : (tdFlags toggle pid).getLsbD 24 = toggle := by
    cases pid <;> cases toggle <;> decide
  unfold BlOhciGeneralTd.toggle packetTd initializedGeneralTd
  rw [if_pos hown, hbit]

theorem packetTd_piece (pid : BlUsbPid) (off : Nat) {size : Nat} (toggle : Bool) (hpos : 0 < size) :
    ((packetTd pid off size toggle).currentBufferPointer,
      (packetTd pid off size toggle).bufferEnd) =
      (some ⟨.data, off⟩, some ⟨.data, off + (size - 1)⟩) := by
  simp [packetTd, initializedGeneralTd, hpos]

theorem bulkTds_spec (hpacket : 0 < endp.maxPacketSize) {tds : Pool BlOhciGeneralTd}
    {direction length : Nat} (hsome : (bulkTds endp direction length tds).1.2 ≠ none) :
    ∃ pid is last, (bulkTds endp direction length tds).2 =
        !(toggleAfter endp.toggle (packetCount endp.maxPacketSize length)) ∧
      Holds blOhciNumGeneralTds tds (bulkTds endp direction length tds).1 is
        ((List.range (packetCount endp.maxPacketSize length)).map (fun i =>
          packetTd pid (i * endp.maxPacketSize)
            (min (length - i * endp.maxPacketSize) endp.maxPacketSize)
            (toggleAfter endp.toggle i)) ++ [last]) := by
  unfold bulkTds at hsome ⊢
  dsimp only at hsome ⊢
  generalize (if direction ≠ 0 then BlUsbPid.tokenOut else .tokenIn) = pid at hsome ⊢
  have hinit : ∀ o n t, Inits blOhciNumGeneralTds
      (blOhciInitGeneralTd (some ⟨.data, o⟩) n t pid) (packetTd pid o n t) :=
    fun _ _ _ _ _ hr => hr
  have hpackets := takeNext_some hsome
  obtain ⟨is, bodies, hcut, hdata⟩ :=
    takePackets_spec (holds_nil blOhciNumGeneralTds tds) hinit hpackets
  obtain ⟨j, hall⟩ := takeNext_spec hdata (fun _ _ hr => hr) hsome
  obtain ⟨rfl, htoggle⟩ := hcut.eq_map hpacket
  simp only [Nat.zero_add, List.nil_append] at hall
  exact ⟨pid, _, _, congrArg _ htoggle, hall⟩

/-- The toggle that is saved is not the one behind the last packet. -/
theorem handed_spec (hpacket : 0 < endp.maxPacketSize) (h : c.handed endp = some (chain, endp')) :
    (∃ pid, chain = (List.range (packetCount endp.maxPacketSize c.length)).map fun i =>
      packetTd pid (i * endp.maxPacketSize)
        (min (c.length - i * endp.maxPacketSize) endp.maxPacketSize)
        (toggleAfter endp.toggle i)) ∧
      endp' = { endp with
        toggle := !(toggleAfter endp.toggle (packetCount endp.maxPacketSize c.length)) } := by
  unfold BulkCall.handed blOhciBulkInterruptPrepare at h
  rw [Int.toNat_natCast] at h
  generalize Endpoints.blOhciInitEd c.ohci.eds (bulkRequest c.address endp c.speed) = alloc at h
  obtain ⟨eds, _ | ed⟩ := alloc
  · simp at h
  · have hspec := @bulkTds_spec endp hpacket c.ohci.tds c.direction c.length
    generalize bulkTds endp c.direction c.length c.ohci.tds = built at h hspec
    obtain ⟨⟨tds, _ | ends⟩, toggle⟩ := built
    · simp at h
    · obtain ⟨pid, is, last, htoggle, hends, hbuilt⟩ := hspec (Option.some_ne_none _)
      obtain rfl := Option.some.inj hends
      dsimp only at h htoggle
      by_cases hnone : (c.length : Int) ≤ 0
      · rw [if_pos hnone] at h
        cases h
      · rw [if_neg hnone] at h
        obtain ⟨hchain, rfl⟩ := Prod.mk.inj (Option.some.inj h)
        refine ⟨⟨pid, ?_⟩, by rw [htoggle]⟩
        rw [← hchain]
        exact hbuilt.follow_before_last

theorem handed_pieces (hpacket : 0 < endp.maxPacketSize)
    (h : c.handed endp = some (chain, endp')) :
    (chain.map fun td => (td.currentBufferPointer, td.bufferEnd)) =
      pieces endp.maxPacketSize c.length := by
  obtain ⟨⟨pid, rfl⟩, -⟩ := handed_spec hpacket h
  unfold pieces
  rw [List.map_map]
  refine List.map_congr_left fun i hi => ?_
  have hstart := (lt_packetCount_iff hpacket).mp (List.mem_range.mp hi)
  exact packetTd_piece pid _ _ (by omega)

theorem handed_toggles (hpacket : 0 < endp.maxPacketSize)
    (h : c.handed endp = some (chain, endp')) :
    chain.map BlOhciGeneralTd.toggle =
      (List.range chain.length).map fun i => some (toggleAfter endp.toggle i) := by
  obtain ⟨⟨pid, rfl⟩, -⟩ := handed_spec hpacket h
  rw [List.map_map, List.length_map, List.length_range]
  exact List.map_congr_left fun i _ => packetTd_toggle pid _ _ _

/-! ## All transfers -/

theorem bulkRun_cons (h : bulkRun endp (c :: cs) = some chains) :
    ∃ chain endp' rest, c.handed endp = some (chain, endp') ∧ bulkRun endp' cs = some rest ∧
      chains = chain :: rest :=
  Runs.logged_cons h

theorem bulkRun_cut (h : bulkRun endp calls = some chains) (hpacket : 0 < endp.maxPacketSize) :
    List.Forall₂ (fun c chain =>
      (chain.map fun td => (td.currentBufferPointer, td.bufferEnd)) =
        pieces endp.maxPacketSize (BulkCall.length c)) calls chains := by
  induction calls generalizing endp chains with
  | nil =>
    cases h
    exact .nil
  | cons c cs ih =>
    obtain ⟨chain, endp', rest, hfirst, hrest, rfl⟩ := bulkRun_cons h
    obtain ⟨-, rfl⟩ := handed_spec hpacket hfirst
    have hbelow := ih hrest hpacket
    exact .cons (handed_pieces hpacket hfirst) hbelow

/-- The first packet of the second transfer has the toggle of the last one before it. -/
theorem bulkRun_repeats {d : BulkCall} (h : bulkRun endp (c :: d :: cs) = some chains)
    (hpacket : 0 < endp.maxPacketSize) (hpos : 0 < d.length) :
    (chains.flatten.map BlOhciGeneralTd.toggle)[packetCount endp.maxPacketSize c.length]? =
      some (some (!(toggleAfter endp.toggle (packetCount endp.maxPacketSize c.length)))) := by
  obtain ⟨chain, endp', rest, hfirst, hrest, rfl⟩ := bulkRun_cons h
  obtain ⟨chain', endp'', rest', hsecond, -, rfl⟩ := bulkRun_cons hrest
  obtain ⟨⟨pid, hchain⟩, rfl⟩ := handed_spec hpacket hfirst
  obtain ⟨⟨pid', hchain'⟩, -⟩ := handed_spec (by exact hpacket) hsecond
  have hlength : chain.length = packetCount endp.maxPacketSize c.length := by
    rw [hchain, List.length_map, List.length_range]
  have hcount : 0 < packetCount endp.maxPacketSize d.length :=
    (lt_packetCount_iff hpacket).mpr (by omega)
  rw [List.flatten_cons, List.flatten_cons, List.map_append, List.map_append,
    List.getElem?_append_right (by rw [List.length_map, hlength]), List.length_map, hlength,
    Nat.sub_self, handed_toggles (by exact hpacket) hsecond, hchain', List.length_map,
    List.length_range, List.getElem?_append_left (by simpa using hcount), List.getElem?_map,
    List.getElem?_range hcount]
  rfl

theorem not_alternate {d : BulkCall} (h : bulkRun endp (c :: d :: cs) = some chains)
    (hpacket : 0 < endp.maxPacketSize) (hpos : 0 < d.length) :
    chains.flatten.map BlOhciGeneralTd.toggle ≠
      (List.range chains.flatten.length).map fun i => some (toggleAfter endp.toggle i) := by
  intro halternate
  have hrepeats := bulkRun_repeats h hpacket hpos
  have hlt := (List.getElem?_eq_some_iff.mp hrepeats).1
  rw [List.length_map] at hlt
  rw [halternate, List.getElem?_map, List.getElem?_range hlt] at hrepeats
  simp at hrepeats

/-- **When the toggles alternate.** The transfers are cut right; the toggles do not go on from one
to the next, so there may be only one. -/
theorem bulkTransfers_right_iff (endp : BlUsbEndpoint) (calls : List BulkCall)
    (chains : List (List BlOhciGeneralTd)) (hpacket : 0 < endp.maxPacketSize)
    (hpos : ∀ c ∈ calls, 0 < c.length) (hrun : bulkRun endp calls = some chains) :
    BulkRight endp calls chains ↔ calls.length ≤ 1 := by
  constructor
  · intro h
    by_contra hmore
    obtain ⟨c, d, cs, rfl⟩ : ∃ c d cs, calls = c :: d :: cs := by
      match calls, hmore with
      | [], hmore => simp at hmore
      | [_], hmore => simp at hmore
      | c :: d :: cs, _ => exact ⟨c, d, cs, rfl⟩
    exact not_alternate hrun hpacket (hpos d (by simp)) h.alternate
  · intro hone
    refine ⟨bulkRun_cut hrun hpacket, ?_⟩
    match calls, hone with
    | [], _ =>
      cases hrun
      rfl
    | [c], _ =>
      obtain ⟨chain, endp', rest, hfirst, hrest, rfl⟩ := bulkRun_cons hrun
      cases hrest
      rw [List.flatten_singleton]
      exact handed_toggles hpacket hfirst

/-! ## A disk -/

def freshOhci : BlOhciController where
  eds := Endpoints.blOhciInitDataStructures Endpoints.zeroPool Endpoints.zeroPool
  tds _ := ⟨false, none, ⟨0, none, none⟩⟩

/-- To an endpoint 2 of 64 bytes. -/
def bulkOut (length : Nat) : BulkCall := ⟨freshOhci, 1, .full, 1, length⟩

theorem bulkOut_right : ∃ chains, bulkRun ⟨false, 0x02, 64⟩ [bulkOut 100] = some chains ∧
    BulkRight ⟨false, 0x02, 64⟩ [bulkOut 100] chains := by
  obtain ⟨chains, hrun⟩ := Option.isSome_iff_exists.mp
    (show (bulkRun ⟨false, 0x02, 64⟩ [bulkOut 100]).isSome by decide +kernel)
  exact ⟨chains, hrun, (bulkTransfers_right_iff ⟨false, 0x02, 64⟩ [bulkOut 100] chains (by decide)
    (by decide) hrun).mpr (by decide)⟩

/-- A command of 31 bytes, and then 100 bytes of data. -/
theorem commandAndData_not_right : ¬ ∀ (endp : BlUsbEndpoint) (calls : List BulkCall)
    (chains : List (List BlOhciGeneralTd)), 0 < endp.maxPacketSize → endp.maxPacketSize < 1024 →
      (∀ c ∈ calls, 0 < c.length) → bulkRun endp calls = some chains →
      BulkRight endp calls chains := by
  intro h
  obtain ⟨chains, hrun⟩ := Option.isSome_iff_exists.mp
    (show (bulkRun ⟨false, 0x02, 64⟩ [bulkOut 31, bulkOut 100]).isSome by decide +kernel)
  have hright := h ⟨false, 0x02, 64⟩ _ chains (by decide) (by decide) (by decide) hrun
  exact not_alternate hrun (by decide) (by decide) hright.alternate

end BootLoader.Ohci
