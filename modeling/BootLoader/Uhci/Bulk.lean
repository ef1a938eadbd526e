import BootLoader.Lib.Runs
import BootLoader.Usb.Drivers

/-!
# Bulk transfers over UHCI

What the controller reads in the descriptors of the transfers on one endpoint. The address of the
endpoint is put into the token with all its bits.
-/

open DescriptorPool

namespace BootLoader.Uhci

open Usb

/-- A call of `bl_uhci_bulk_interrupt_transfers`, and what it finds in the pools. -/
structure BulkCall where
  uhci : BlUhciController
  address : BitVec 8
  speed : BlUsbSpeed
  direction : Nat
  length : Nat

/-- What the controller meets from the element pointer of the queue head on, and the endpoint
behind the call. Without a queue head or a descriptor there is nothing. -/
def BulkCall.handed (endp : BlUsbEndpoint) (c : BulkCall) :
    Option (List Transaction × BlUsbEndpoint) :=
  match blUhciBulkInterruptTransfers c.uhci c.address endp c.speed c.direction c.length with
  | (_, _, none) => none
  | (uhci, endp, some qh) =>
    some ((follow uhci.tds none blUhciNumTd (uhci.qhs qh).elementLinkPointer.td).map fun i =>
      transaction (uhci.tds i).body, endp)

/-- The chains of calls on one endpoint, one after the other. -/
def bulkRun : BlUsbEndpoint → List BulkCall → Option (List (List Transaction))
  | _, [] => some []
  | endp, c :: cs =>
    (c.handed endp).bind fun r => (bulkRun r.2 cs).map fun chains => r.1 :: chains

/-- The packets of `length` bytes: where each begins, and how long it is. -/
def pieces (packet length : Nat) : List (Option Ptr × Nat) :=
  (List.range (packetCount packet length)).map fun i =>
    (some ⟨.data, i * packet⟩, min (length - i * packet) packet)

/-- Each chain cuts its buffer, and the toggles alternate over all of them. -/
structure BulkRight (endp : BlUsbEndpoint) (calls : List BulkCall)
    (chains : List (List Transaction)) : Prop where
  cut : List.Forall₂ (fun c chain => (chain.map fun t => (t.buffer, t.length)) =
    pieces endp.maxPacketSize (BulkCall.length c)) calls chains
  alternate : chains.flatten.map Transaction.toggle =
    (List.range chains.flatten.length).map (toggleAfter endp.toggle)

/-- What the bits 6 and 7 of the address set is set in the length less one anyway. -/
def LengthKept (endpointAddress : BitVec 8) (size : Nat) : Prop :=
  (size - 1) ||| endpointAddress.toNat / 64 = size - 1

instance (endpointAddress : BitVec 8) (size : Nat) : Decidable (LengthKept endpointAddress size) :=
  inferInstanceAs (Decidable (_ = _))

/-- The bit 4 of the address does not change the toggle of a packet. -/
def ToggleKept (endp : BlUsbEndpoint) (calls : List BulkCall) : Prop :=
  endp.endpointAddress.getLsbD 4 = false ∨ calls = [] ∨
    endp.toggle = true ∧ ∃ c, calls = [c] ∧ c.length ≤ endp.maxPacketSize

variable {endp endp' : BlUsbEndpoint} {c : BulkCall} {cs calls : List BulkCall}
  {chain : List Transaction} {chains : List (List Transaction)} {packet length size : Nat}

/-! ## One packet -/

/-- The length that is read for a packet of `size` bytes. -/
def readLength (endpointAddress : BitVec 8) (size : Nat) : Nat :=
  ((lengthField size ||| BitVec.ofNat 32 (endpointAddress.toNat / 64)) + 1 &&& 0x7ff).toNat

theorem readLength_eq_iff (endpointAddress : BitVec 8) (hpos : 0 < size) (hsmall : size < 1024) :
    readLength endpointAddress size = size ↔ LengthKept endpointAddress size := by
  have hmask : (0x7ff : BitVec 32).toNat = 2 ^ 11 - 1 := rfl
  have hlow : endpointAddress.toNat / 64 < 2 ^ 10 := by
    have hlt := endpointAddress.isLt
    omega
  have hone : (1 : BitVec 32).toNat = 1 := rfl
  have hfield : (lengthField size).toNat = size - 1 := by
    unfold lengthField
    rw [BitVec.toNat_and, hmask, Nat.and_two_pow_sub_one_eq_mod, BitVec.toNat_sub,
      BitVec.toNat_ofNat, hone]
    omega
  have hor : (size - 1) ||| endpointAddress.toNat / 64 < 2 ^ 10 :=
    Nat.or_lt_two_pow (by omega) hlow
  have hread : readLength endpointAddress size =
      ((size - 1) ||| endpointAddress.toNat / 64) + 1 := by
    unfold readLength
    have hbits : (BitVec.ofNat 32 (endpointAddress.toNat / 64)).toNat =
        endpointAddress.toNat / 64 := by
      rw [BitVec.toNat_ofNat]
      omega
    rw [BitVec.toNat_and, hmask, Nat.and_two_pow_sub_one_eq_mod, BitVec.toNat_add,
      BitVec.toNat_or, hfield, hbits, hone]
    omega
  rw [hread]
  unfold LengthKept
  omega

theorem transaction_packetTd (speed : BlUsbSpeed) (pid : BlUsbPid) (address endpoint : BitVec 8)
    (off size : Nat) (toggle : Bool) :
    transaction (packetTd speed pid address endpoint off size toggle) =
      ⟨pid, toggle || endpoint.getLsbD 4, some ⟨.data, off⟩, readLength endpoint size⟩ := by
  simp only [packetTd, transaction, initializedTd, tokenPid_tdToken, tdToken_toggle,
    tdToken_length, readLength]

/-! ## One transfer -/

theorem handed_spec (hpacket : 0 < endp.maxPacketSize)
    (h : c.handed endp = some (chain, endp')) :
    (∃ pid, chain = (List.range (packetCount endp.maxPacketSize c.length)).map fun i =>
      ⟨pid, toggleAfter endp.toggle i || endp.endpointAddress.getLsbD 4,
        some ⟨.data, i * endp.maxPacketSize⟩, readLength endp.endpointAddress
          (min (c.length - i * endp.maxPacketSize) endp.maxPacketSize)⟩) ∧
      endp' = { endp with
        toggle := toggleAfter endp.toggle (packetCount endp.maxPacketSize c.length) } := by
  unfold BulkCall.handed blUhciBulkInterruptTransfers at h
  cases halloc : blUhciAllocQh c.uhci with
  | none => simp [halloc] at h
  | some r =>
    obtain ⟨uhci', qh⟩ := r
    simp only [halloc, Int.toNat_natCast] at h
    set pid : BlUsbPid := if c.direction ≠ 0 then .tokenOut else .tokenIn
    generalize hc : takePackets (initPacket c.speed pid c.address endp.endpointAddress)
      endp.maxPacketSize packetFuel endp.toggle c.length 0 (uhci'.tds, some (none, none)) = built
      at h
    obtain ⟨⟨tds, ends⟩, toggle⟩ := built
    cases ends with
    | none => simp at h
    | some ends =>
      have hspec : ∃ is bodies,
          Cut (packetTd c.speed pid c.address endp.endpointAddress) endp.maxPacketSize endp.toggle
            c.length 0 bodies toggle ∧
          Holds blUhciNumTd uhci'.tds (tds, some ends) is bodies := by
        have hsome : (takePackets (initPacket c.speed pid c.address endp.endpointAddress)
            endp.maxPacketSize packetFuel endp.toggle c.length 0
            (uhci'.tds, some (none, none))).1.2 ≠ none := by
          rw [hc]
          exact Option.some_ne_none _
        have hinit : ∀ o n t, Inits blUhciNumTd
            (initPacket c.speed pid c.address endp.endpointAddress o n t)
            (packetTd c.speed pid c.address endp.endpointAddress o n t) :=
          fun _ _ _ _ _ hr => hr
        have hall := takePackets_spec (holds_nil blUhciNumTd uhci'.tds) hinit hsome
        rwa [hc] at hall
      obtain ⟨is, bodies, hcut, hends, hbuilt⟩ := hspec
      obtain rfl := Option.some.inj hends
      obtain ⟨hbodies, rfl⟩ := hcut.eq_map hpacket
      obtain ⟨hchain, rfl⟩ := Prod.mk.inj (Option.some.inj h)
      refine ⟨⟨pid, ?_⟩, rfl⟩
      have hmeets := congrArg (List.map transaction) hbuilt.follow
      simp only [startTransfer, Function.update_self] at hchain
      rw [← hchain]
      rw [List.map_map] at hmeets
      refine Eq.trans hmeets ?_
      rw [hbodies, List.map_map]
      refine List.map_congr_left fun i _ => ?_
      rw [Function.comp_apply, transaction_packetTd, Nat.zero_add]

/-- **When the descriptors of a transfer cut its buffer.** -/
theorem handed_pieces_iff (hpacket : 0 < endp.maxPacketSize) (hsmall : endp.maxPacketSize < 1024)
    (h : c.handed endp = some (chain, endp')) :
    (chain.map fun t => (t.buffer, t.length)) = pieces endp.maxPacketSize c.length ↔
      (endp.maxPacketSize ≤ c.length → LengthKept endp.endpointAddress endp.maxPacketSize) ∧
        (c.length % endp.maxPacketSize ≠ 0 →
          LengthKept endp.endpointAddress (c.length % endp.maxPacketSize)) := by
  obtain ⟨⟨pid, rfl⟩, -⟩ := handed_spec hpacket h
  unfold pieces
  rw [List.map_map, List.map_inj_left, ← forall_packet_iff hpacket]
  constructor
  · intro hall i hi
    have hstart := (lt_packetCount_iff hpacket).mp hi
    have heq := hall i (List.mem_range.mpr hi)
    exact (readLength_eq_iff _ (by omega) (by omega)).mp (congrArg Prod.snd heq)
  · intro hall i hi
    have hlt := List.mem_range.mp hi
    have hstart := (lt_packetCount_iff hpacket).mp hlt
    exact Prod.ext rfl ((readLength_eq_iff _ (by omega) (by omega)).mpr (hall i hlt))

/-! ## All transfers -/

theorem bulkRun_cons (h : bulkRun endp (c :: cs) = some chains) :
    ∃ chain endp' rest, c.handed endp = some (chain, endp') ∧ bulkRun endp' cs = some rest ∧
      chains = chain :: rest :=
  Runs.logged_cons h

theorem bulkRun_cut_iff (h : bulkRun endp calls = some chains) (hpacket : 0 < endp.maxPacketSize)
    (hsmall : endp.maxPacketSize < 1024) :
    List.Forall₂ (fun c chain => (chain.map fun t => (t.buffer, t.length)) =
        pieces endp.maxPacketSize (BulkCall.length c)) calls chains ↔
      ∀ c ∈ calls,
        (endp.maxPacketSize ≤ c.length → LengthKept endp.endpointAddress endp.maxPacketSize) ∧
          (c.length % endp.maxPacketSize ≠ 0 →
            LengthKept endp.endpointAddress (c.length % endp.maxPacketSize)) := by
  induction calls generalizing endp chains with
  | nil =>
    cases h
    simp
  | cons c cs ih =>
    obtain ⟨chain, endp', rest, hfirst, hrest, rfl⟩ := bulkRun_cons h
    obtain ⟨-, rfl⟩ := handed_spec hpacket hfirst
    have hbelow := ih hrest hpacket hsmall
    rw [List.forall₂_cons, List.forall_mem_cons, handed_pieces_iff hpacket hsmall hfirst]
    exact and_congr_right fun _ => hbelow

theorem bulkRun_toggles (h : bulkRun endp calls = some chains)
    (hpacket : 0 < endp.maxPacketSize) :
    chains.flatten.length =
        (calls.map fun c => packetCount endp.maxPacketSize c.length).sum ∧
      chains.flatten.map Transaction.toggle = (List.range chains.flatten.length).map fun i =>
        toggleAfter endp.toggle i || endp.endpointAddress.getLsbD 4 := by
  induction calls generalizing endp chains with
  | nil =>
    cases h
    exact ⟨rfl, rfl⟩
  | cons c cs ih =>
    obtain ⟨chain, endp', rest, hfirst, hrest, rfl⟩ := bulkRun_cons h
    obtain ⟨⟨pid, hchain⟩, rfl⟩ := handed_spec hpacket hfirst
    obtain ⟨hcount, htoggles⟩ := ih hrest hpacket
    have hlength : chain.length = packetCount endp.maxPacketSize c.length := by
      rw [hchain, List.length_map, List.length_range]
    rw [List.flatten_cons, List.length_append, List.map_append, htoggles, hcount, hlength]
    refine ⟨by rw [List.map_cons, List.sum_cons], ?_⟩
    rw [List.range_add, List.map_append, List.map_map, hchain, List.map_map]
    refine congrArg₂ (· ++ ·) rfl (List.map_congr_left fun i _ => ?_)
    rw [Function.comp_apply, toggleAfter_add]

theorem forall_toggleAfter_iff {toggle : Bool} {n : Nat} :
    (∀ i < n, toggleAfter toggle i = true) ↔ n = 0 ∨ toggle = true ∧ n = 1 := by
  constructor
  · intro h
    rcases Nat.eq_zero_or_pos n with hzero | hpos
    · exact .inl hzero
    · have hfirst : toggle = true := h 0 hpos
      refine .inr ⟨hfirst, ?_⟩
      by_contra hne
      have hsecond := h 1 (by omega)
      rw [hfirst] at hsecond
      cases hsecond
  · rintro (rfl | ⟨rfl, rfl⟩) i hi
    · omega
    · obtain rfl : i = 0 := by omega
      rfl

/-- Each transfer has a packet, and more than one if it is longer than a packet. -/
theorem sum_packetCount (hpacket : 0 < packet) (hpos : ∀ c ∈ calls, 0 < c.length) :
    ((calls.map fun c => packetCount packet c.length).sum = 0 ↔ calls = []) ∧
      ((calls.map fun c => packetCount packet c.length).sum = 1 ↔
        ∃ c, calls = [c] ∧ c.length ≤ packet) := by
  have hone : ∀ c ∈ calls, 0 < packetCount packet c.length := fun c hc =>
    (lt_packetCount_iff hpacket).mpr (by have := hpos c hc; omega)
  cases calls with
  | nil => simp
  | cons c cs =>
    have hfirst := hone c List.mem_cons_self
    rw [List.map_cons, List.sum_cons]
    refine ⟨iff_of_false (by omega) (by simp), ?_⟩
    cases cs with
    | nil =>
      have htwo : 1 < packetCount packet c.length ↔ 1 * packet < c.length :=
        lt_packetCount_iff hpacket
      simp
      omega
    | cons d ds =>
      have hsecond := hone d (by simp)
      rw [List.map_cons, List.sum_cons]
      exact iff_of_false (by omega) (by simp)

theorem bulkRun_alternate_iff (hpacket : 0 < endp.maxPacketSize)
    (hpos : ∀ c ∈ calls, 0 < c.length) (h : bulkRun endp calls = some chains) :
    chains.flatten.map Transaction.toggle =
        (List.range chains.flatten.length).map (toggleAfter endp.toggle) ↔
      ToggleKept endp calls := by
  obtain ⟨hcount, htoggles⟩ := bulkRun_toggles h hpacket
  obtain ⟨hzero, hone⟩ := sum_packetCount hpacket hpos
  have hbit : ∀ t b : Bool, (t || b) = t ↔ b = false ∨ t = true := by decide
  rw [htoggles, List.map_inj_left, hcount]
  simp only [hbit, List.mem_range]
  unfold ToggleKept
  rw [← hone, ← hzero, ← forall_toggleAfter_iff]
  constructor
  · intro hall
    by_cases hclear : endp.endpointAddress.getLsbD 4 = false
    · exact .inl hclear
    · exact .inr fun i hi => (hall i hi).resolve_left hclear
  · rintro (hclear | hall) i hi
    · exact .inl hclear
    · exact .inr (hall i hi)

/-- **When the transfers are cut right, and the toggles alternate.** The bits of the endpoint's
address that are no part of its number must not change what is read of a packet. -/
theorem bulkRun_right_iff (endp : BlUsbEndpoint) (calls : List BulkCall)
    (chains : List (List Transaction)) (hpacket : 0 < endp.maxPacketSize)
    (hsmall : endp.maxPacketSize < 1024) (hpos : ∀ c ∈ calls, 0 < c.length)
    (hrun : bulkRun endp calls = some chains) :
    BulkRight endp calls chains ↔ ToggleKept endp calls ∧ ∀ c ∈ calls,
      (endp.maxPacketSize ≤ c.length → LengthKept endp.endpointAddress endp.maxPacketSize) ∧
        (c.length % endp.maxPacketSize ≠ 0 →
          LengthKept endp.endpointAddress (c.length % endp.maxPacketSize)) := by
  rw [← bulkRun_alternate_iff hpacket hpos hrun, ← bulkRun_cut_iff hrun hpacket hsmall]
  exact ⟨fun h => ⟨h.alternate, h.cut⟩, fun h => ⟨h.2, h.1⟩⟩

/-! ## Enough descriptors -/

theorem handed_exists {start : BlUhciController} (hfree : AllFree start c.uhci)
    (hpacket : 0 < endp.maxPacketSize) (hpos : 0 < c.length)
    (hroom : packetCount endp.maxPacketSize c.length ≤ blUhciNumTd) :
    ∃ r, c.handed endp = some r := by
  obtain ⟨qh, -, halloc⟩ := blUhciAllocQh_spec hfree
  obtain ⟨is, bodies, -, hends, -⟩ :=
    bulkTds_spec (if c.direction ≠ 0 then .tokenOut else .tokenIn) c.address c.speed hfree.tds
      hpacket (by simpa using hroom) (show 0 < (c.length : Int) by omega)
  unfold BulkCall.handed blUhciBulkInterruptTransfers
  simp only [halloc]
  generalize takePackets _ endp.maxPacketSize packetFuel endp.toggle _ 0 _ = built at hends ⊢
  obtain ⟨⟨tds, ends⟩, toggle⟩ := built
  obtain rfl : ends = _ := hends
  exact ⟨_, rfl⟩

/-- From free pools every sequence is built whose transfers each fit into them. -/
theorem bulkRun_exists (hpacket : 0 < endp.maxPacketSize)
    (hcalls : ∀ c ∈ calls, (∃ start, AllFree start c.uhci) ∧ 0 < c.length ∧
      packetCount endp.maxPacketSize c.length ≤ blUhciNumTd) :
    ∃ chains, bulkRun endp calls = some chains := by
  induction calls generalizing endp with
  | nil => exact ⟨[], rfl⟩
  | cons c cs ih =>
    obtain ⟨⟨start, hfree⟩, hpos, hroom⟩ := hcalls c List.mem_cons_self
    obtain ⟨⟨chain, endp'⟩, hfirst⟩ := handed_exists hfree hpacket hpos hroom
    obtain ⟨-, rfl⟩ := handed_spec hpacket hfirst
    have hcs : ∀ d ∈ cs, (∃ start, AllFree start d.uhci) ∧ 0 < d.length ∧
        packetCount endp.maxPacketSize d.length ≤ blUhciNumTd :=
      fun d hd => hcalls d (List.mem_cons_of_mem _ hd)
    obtain ⟨rest, hrest⟩ := @ih { endp with
      toggle := toggleAfter endp.toggle (packetCount endp.maxPacketSize c.length) } hpacket hcs
    refine ⟨chain :: rest, ?_⟩
    rw [bulkRun, hfirst, Option.bind_some, hrest]
    rfl

/-! ## The endpoints of a disk -/

def freshCall (direction length : Nat) : BulkCall :=
  ⟨blUhciInitDataStructures zeroedHeap, 1, .full, direction, length⟩

def commandAndData : List BulkCall := [freshCall 1 31, freshCall 1 100]

theorem freshCall_run (endp : BlUsbEndpoint) (lengths : List Nat) (direction : Nat)
    (hpacket : 0 < endp.maxPacketSize)
    (hlengths : ∀ l ∈ lengths, 0 < l ∧ packetCount endp.maxPacketSize l ≤ blUhciNumTd) :
    ∃ chains, bulkRun endp (lengths.map (freshCall direction)) = some chains := by
  have hfree : AllFree (blUhciInitDataStructures zeroedHeap)
      (blUhciInitDataStructures zeroedHeap) := blUhciInitDataStructures_free rfl
  refine bulkRun_exists hpacket fun c hc => ?_
  obtain ⟨l, hl, rfl⟩ := List.mem_map.mp hc
  exact ⟨⟨_, hfree⟩, hlengths l hl⟩

/-- To the endpoint 2, of 64 bytes. -/
theorem commandAndData_right : ∃ chains,
    bulkRun ⟨false, 0x02, 64⟩ commandAndData = some chains ∧
      BulkRight ⟨false, 0x02, 64⟩ commandAndData chains := by
  obtain ⟨chains, hrun⟩ := freshCall_run ⟨false, 0x02, 64⟩ [31, 100] 1 (by decide) (by decide)
  refine ⟨chains, hrun, ?_⟩
  refine (bulkRun_right_iff ⟨false, 0x02, 64⟩ commandAndData chains (by decide) (by decide)
    (by decide) hrun).mpr ⟨.inl (by decide), by decide⟩

/-- The status of a command is 13 bytes from the endpoint 1. -/
theorem statusRead_not_right : ¬ ∀ (endp : BlUsbEndpoint) (calls : List BulkCall)
    (chains : List (List Transaction)), 0 < endp.maxPacketSize → endp.maxPacketSize < 1024 →
      (∀ c ∈ calls, 0 < c.length) → bulkRun endp calls = some chains →
      BulkRight endp calls chains := by
  intro h
  obtain ⟨chains, hrun⟩ := freshCall_run ⟨false, 0x81, 64⟩ [13] 0 (by decide) (by decide)
  have hright := h ⟨false, 0x81, 64⟩ [freshCall 0 13] chains (by decide) (by decide) (by decide)
    hrun
  have hkept := (bulkRun_cut_iff hrun (by decide) (by decide)).mp hright.cut
  revert hkept
  decide

end BootLoader.Uhci
