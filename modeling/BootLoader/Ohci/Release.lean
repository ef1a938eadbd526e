import BootLoader.Lib.Ring
import BootLoader.Ohci.Bulk
import BootLoader.Utils.Memory

/-!
# The release of transfer descriptors (`modules/usb/ohci/ohci.c`)

Descriptors under their addresses, with the words that the driver keeps in them for itself: they
are linked into a ring that the controller does not know of.
-/

open ByteMemory

namespace BootLoader.Ohci.Release

open Usb
open Uhci (BlUsbSpeed BlUsbEndpoint)

/-- Without the two reserved words. -/
structure BlOhciGeneralTd where
  flags : BitVec 32
  currentBufferPointer : BitVec 32
  nextTd : BitVec 32
  bufferEnd : BitVec 32
  used : BitVec 32
  originalNextTd : BitVec 32

def sizeofGeneralTd : Nat := 32

/-- The descriptor that begins at each address. The pool begins where `bl_heap_alloc_align` has
aligned it. -/
structure TdPool where
  base : BitVec 32
  aligned : base.toNat % 16 = 0
  mem : BitVec 32 → BlOhciGeneralTd

/-- `&ohci->tds[i]`. -/
def TdPool.address (tds : TdPool) (i : Nat) : BitVec 32 :=
  tds.base + BitVec.ofNat 32 (sizeofGeneralTd * i)

def TdPool.set (tds : TdPool) (td : BitVec 32) (v : BlOhciGeneralTd) : TdPool :=
  { tds with mem := Function.update tds.mem td v }

structure BlOhciController where
  eds : Endpoints.BlOhciController
  tds : TdPool

/-- `BL_OHCI_ED_TD_POINTER`. -/
def blOhciEdTdPointer (tdPointer : BitVec 32) : BitVec 32 := tdPointer &&& ~~~0xf

def blOhciEdTdHeadPointerHalted : BitVec 32 := 1

/-! ## Transfers are built -/

def blOhciAllocGeneralTd (tds : TdPool) : Option (TdPool × BitVec 32) :=
  ((List.range blOhciNumGeneralTds).find? fun i => (tds.mem (tds.address i)).used = 0).map fun i =>
    (tds.set (tds.address i) { tds.mem (tds.address i) with used := 1 }, tds.address i)

def blOhciInitGeneralTd (buf : BitVec 32) (length : Int) (toggle : Bool) (pid : BlUsbPid)
    (tds : TdPool) : Option (TdPool × BitVec 32) :=
  (blOhciAllocGeneralTd tds).map fun (tds, td) =>
    (tds.set td { tds.mem td with
      flags := tdFlags toggle pid
      currentBufferPointer := if buf ≠ 0 ∧ 0 < length then buf else 0
      bufferEnd := if buf ≠ 0 ∧ 0 < length then buf + BitVec.ofInt 32 (length - 1) else 0
      nextTd := 0 }, td)

/-- `td_prev->original_next_td = td_prev->next_td = (bl_uint32_t)td;` -/
def linkTd (tdPrev td : BitVec 32) (tds : TdPool) : TdPool :=
  tds.set tdPrev { tds.mem tdPrev with originalNextTd := td, nextTd := td }

/-- `td_head` and `td`, once there are any. -/
structure Ends where
  head : BitVec 32
  last : BitVec 32

/-- `none` once there was no descriptor to be had. -/
abbrev Building := TdPool × Option (Option Ends)

/-- One more descriptor, behind the last one. -/
def takeNext (init : TdPool → Option (TdPool × BitVec 32)) : Building → Building
  | (tds, none) => (tds, none)
  | (tds, some ends) =>
    match init tds, ends with
    | none, _ => (tds, none)
    | some (tds, td), none => (tds, some (some ⟨td, td⟩))
    | some (tds, td), some ends => (linkTd ends.last td tds, some (some ⟨ends.head, td⟩))

/-- `while (length > 0)`, and the toggle behind the loop. -/
def takePackets (init : Int → Int → Bool → TdPool → Option (TdPool × BitVec 32))
    (packetSize : Int) : Nat → Bool → Int → Int → Building → Building × Bool
  | 0, toggle, _, _, b => ((b.1, none), toggle)
  | fuel + 1, toggle, length, off, b =>
    if 0 < length then
      takePackets init packetSize fuel (!toggle) (length - packetSize) (off + packetSize)
        (takeNext (init off (min length packetSize) toggle) b)
    else (b, toggle)

/-- `td->next_td = 0; td->original_next_td = (bl_uint32_t)td_head;` -/
def closeRing (ends : Ends) (tds : TdPool) : TdPool :=
  tds.set ends.last { tds.mem ends.last with nextTd := 0, originalNextTd := ends.head }

/-- The transfer is linked to its endpoint, and the skip flag removed. -/
def linkTransfer (ends : Ends) (ed : Endpoints.BlOhciEd) : Endpoints.BlOhciEd :=
  { ed with
    tdHeadPointer := ends.head
    tdTailPointer := ends.last
    flags := ed.flags &&& ~~~Endpoints.blOhciEdFlagsSkip }

def controlTds (packetSize : Int) (setup : BlUsbSetupData) (setupBuf data : BitVec 32)
    (length : Int) (tds : TdPool) : Building :=
  let dataPid := blUsbDirectionPid setup
  let statusPid := blUsbStatusPid dataPid
  let setupTd := takeNext (blOhciInitGeneralTd setupBuf 8 false .tokenSetup) (tds, some none)
  let dataTds :=
    if length = 0 then takeNext (blOhciInitGeneralTd 0 0 true statusPid) setupTd
    else
      (takePackets (fun off size toggle =>
          blOhciInitGeneralTd (data + BitVec.ofInt 32 off) size toggle dataPid)
        packetSize packetFuel true length 0 setupTd).1
  takeNext (blOhciInitGeneralTd 0 0 true statusPid) dataTds

def controlRequest (packetSize : Int) (address : BitVec 32) (speed : BlUsbSpeed) :
    Endpoints.Request where
  transfer := .control
  address := address
  endpoint := 0
  lowSpeed := speed = .low
  maxPacketSize := BitVec.ofInt 32 packetSize

/-- `bl_ohci_control_transfer`, up to the start of the transfer. -/
def prepareControlTransfer (ohci : BlOhciController) (packetSize : Int) (address : BitVec 32)
    (speed : BlUsbSpeed) (setup : BlUsbSetupData) (setupBuf data : BitVec 32) (length : Int) :
    BlOhciController × Option Nat :=
  let packetSize := if packetSize = 0 then 8 else packetSize
  match Endpoints.blOhciInitEd ohci.eds (controlRequest packetSize address speed) with
  | (eds, none) => ({ ohci with eds }, none)
  | (eds, some ed) =>
    match controlTds packetSize setup setupBuf data length ohci.tds with
    | (tds, some (some ends)) =>
      (⟨{ eds with
          controlEds := eds.controlEds.setEd ed (linkTransfer ends (eds.controlEds.eds ed)) },
        closeRing ends tds⟩, some ed)
    | (tds, _) => (⟨eds, tds⟩, none)

/-- The packets, and the toggle behind them. -/
def bulkPackets (endp : BlUsbEndpoint) (direction : Nat) (data : BitVec 32) (length : Int)
    (tds : TdPool) : Building × Bool :=
  let dataPid := if direction ≠ 0 then .tokenOut else .tokenIn
  takePackets (fun off size toggle =>
      blOhciInitGeneralTd (data + BitVec.ofInt 32 off) size toggle dataPid)
    endp.maxPacketSize packetFuel endp.toggle length 0 (tds, some none)

/-- The result is null without a descriptor. `none`: without a packet, a link is written to a null
descriptor. -/
def blOhciBulkInterruptPrepare (ohci : BlOhciController) (address : BitVec 32)
    (endp : BlUsbEndpoint) (speed : BlUsbSpeed) (direction : Nat) (data : BitVec 32)
    (length : Int) : Option (BlOhciController × BlUsbEndpoint × Option Nat) :=
  let finalPid := if direction ≠ 0 then .tokenIn else .tokenOut
  match Endpoints.blOhciInitEd ohci.eds (bulkRequest address endp speed) with
  | (eds, none) => some ({ ohci with eds }, endp, none)
  | (eds, some ed) =>
    let packets := bulkPackets endp direction data length ohci.tds
    match takeNext (blOhciInitGeneralTd 0 0 (!packets.2) finalPid) packets.1 with
    | (tds, some (some ends)) =>
      if length ≤ 0 then none
      else
        some (⟨{ eds with
            bulkEds := eds.bulkEds.setEd ed (linkTransfer ends (eds.bulkEds.eds ed)) },
          closeRing ends tds⟩, { endp with toggle := !packets.2 }, some ed)
    | (tds, _) => some (⟨eds, tds⟩, endp, none)

/-! ## And released -/

/-- `bl_memset(td, 0, sizeof(struct bl_ohci_general_td))`. The byte that it leaves out is a reserved
one. -/
def clearTd (tds : TdPool) (td : BitVec 32) : TdPool := tds.set td ⟨0, 0, 0, 0, 0, 0⟩

/-- `BL_OHCI_ED_TD_POINTER(td->original_next_td)`. -/
def originalNext (tds : TdPool) (td : BitVec 32) : BitVec 32 :=
  blOhciEdTdPointer (tds.mem td).originalNextTd

/-- The pool, and the descriptors that were cleared. `none`: the loop does not end. -/
def blOhciFreeTdList (fuel : Nat) (ed : Endpoints.BlOhciEd) (tds : TdPool) :
    Option (TdPool × List (BitVec 32)) :=
  let tdHead := blOhciEdTdPointer ed.tdHeadPointer
  Ring.sweep originalNext clearTd tdHead fuel tds tdHead

def blOhciTransferFinished (fuel : Nat) (ed : Endpoints.BlOhciEd) (tds : TdPool) :
    Option (BlStatus × Endpoints.BlOhciEd × TdPool) :=
  if ed.tdHeadPointer &&& blOhciEdTdHeadPointerHalted ≠ 0 then
    some (.usbShouldCheckStatus, ed, tds)
  else if blOhciEdTdPointer ed.tdHeadPointer = blOhciEdTdPointer ed.tdTailPointer then
    let ed := { ed with flags := ed.flags ||| Endpoints.blOhciEdFlagsSkip }
    (blOhciFreeTdList fuel ed tds).map fun (tds, _) => (.success, ed, tds)
  else some (.usbActionNotFinished, ed, tds)

/-- The controller is done with the transfer. What it has written of the descriptors is not what
the driver keeps in them. -/
structure Completed (ed ed' : Endpoints.BlOhciEd) (tds tds' : TdPool) : Prop where
  base : tds'.base = tds.base
  tail : ed'.tdTailPointer = ed.tdTailPointer
  head : blOhciEdTdPointer ed'.tdHeadPointer = blOhciEdTdPointer ed'.tdTailPointer
  used : ∀ td, (tds'.mem td).used = (tds.mem td).used
  originalNextTd : ∀ td, (tds'.mem td).originalNextTd = (tds.mem td).originalNextTd

/-- A transfer that has been built: the pool, and the endpoint that it is linked to. -/
inductive Built (ohci : BlOhciController) : TdPool → Endpoints.BlOhciEd → Prop
  | control {packetSize : Int} {address : BitVec 32} {speed : BlUsbSpeed} {setup : BlUsbSetupData}
      {setupBuf data : BitVec 32} {length : Int} {ohci' : BlOhciController} {ed : Nat}
      (h : prepareControlTransfer ohci packetSize address speed setup setupBuf data length =
        (ohci', some ed)) : Built ohci ohci'.tds (ohci'.eds.controlEds.eds ed)
  | bulk {address : BitVec 32} {endp endp' : BlUsbEndpoint} {speed : BlUsbSpeed} {direction : Nat}
      {data : BitVec 32} {length : Int} {ohci' : BlOhciController} {ed : Nat}
      (h : blOhciBulkInterruptPrepare ohci address endp speed direction data length =
        some (ohci', endp', some ed)) : Built ohci ohci'.tds (ohci'.eds.bulkEds.eds ed)

def freeTds (tds : TdPool) : Nat :=
  (List.range blOhciNumGeneralTds).countP fun i => (tds.mem (tds.address i)).used = 0

/-- The words of a descriptor are among the bytes that `bl_memset` sets. -/
theorem blMemset_word {m : Mem} {td off : Nat} (htd : td ≠ 0)
    (hspace : td + sizeofGeneralTd ≤ 2 ^ 32) (hoff : off + 4 ≤ 24) :
    read32 (Utils.blMemset m td 0 sizeofGeneralTd) (td + off) = 0 := by
  unfold sizeofGeneralTd at hspace ⊢
  have hset := Utils.blMemset_short (m := m) (c := 0) (show td < 2 ^ 32 by omega) htd
    (show 32 < 2 ^ 32 by decide) (by decide)
  refine readLE_of_bytes (v := 0) fun i hi => ?_
  have hbyte := hset.filled (off + i) (by omega)
  rw [Nat.mod_eq_of_lt (by omega), ← Nat.add_assoc] at hbyte
  rw [hbyte, Nat.zero_div]
  rfl

/-! ## Addresses -/

variable {tds₀ tds tds' : TdPool} {td a p : BitVec 32} {as : List (BitVec 32)} {i j : Nat}
  {b b' : Building} {length off packetSize : Int} {toggle : Bool}

@[simp] theorem TdPool.set_base (v : BlOhciGeneralTd) : (tds.set td v).base = tds.base := rfl

theorem TdPool.set_same (v : BlOhciGeneralTd) : (tds.set td v).mem td = v :=
  Function.update_self _ _ _

theorem TdPool.set_other (v : BlOhciGeneralTd) (h : p ≠ td) : (tds.set td v).mem p = tds.mem p :=
  Function.update_of_ne h _ _

theorem address_congr (h : tds'.base = tds.base) (i : Nat) : tds'.address i = tds.address i := by
  rw [TdPool.address, TdPool.address, h]

/-- The low bits that the pointers are freed of are no bits of a descriptor's address. -/
theorem blOhciEdTdPointer_address (tds : TdPool) (i : Nat) :
    blOhciEdTdPointer (tds.address i) = tds.address i := by
  have haligned := tds.aligned
  have hlow : tds.address i &&& 0xf#32 = 0#32 := by
    apply BitVec.eq_of_toNat_eq
    have hmask : (0xf#32).toNat = 2 ^ 4 - 1 := rfl
    rw [BitVec.toNat_and, hmask, Nat.and_two_pow_sub_one_eq_mod]
    simp only [TdPool.address, sizeofGeneralTd, BitVec.toNat_add, BitVec.toNat_ofNat]
    omega
  calc tds.address i &&& ~~~0xf#32
      = tds.address i &&& 0xf#32 ||| tds.address i &&& ~~~0xf#32 := by rw [hlow, BitVec.zero_or]
    _ = tds.address i &&& (0xf#32 ||| ~~~0xf#32) := by rw [BitVec.and_or_distrib_left]
    _ = tds.address i := by rw [BitVec.or_not_self, BitVec.and_allOnes]

/-! ## The chain while it is built -/

/-- The descriptors `as` have been taken from the pool, in this order. -/
structure Chained (tds₀ tds : TdPool) (as : List (BitVec 32)) : Prop where
  base : tds.base = tds₀.base
  nodup : as.Nodup
  slots : ∀ a ∈ as, ∃ i < blOhciNumGeneralTds, a = tds₀.address i
  free : ∀ a ∈ as, (tds₀.mem a).used = 0
  taken : ∀ a ∈ as, (tds.mem a).used ≠ 0
  others : ∀ a ∉ as, tds.mem a = tds₀.mem a
  links : as.dropLast.map (fun a => (tds.mem a).originalNextTd) = as.tail

/-- A descriptor has been taken. -/
structure Takes (tds tds' : TdPool) (td : BitVec 32) : Prop where
  base : tds'.base = tds.base
  slot : ∃ i < blOhciNumGeneralTds, td = tds.address i
  free : (tds.mem td).used = 0
  taken : (tds'.mem td).used ≠ 0
  others : ∀ p ≠ td, tds'.mem p = tds.mem p

def Inits (init : TdPool → Option (TdPool × BitVec 32)) : Prop :=
  ∀ tds tds' td, init tds = some (tds', td) → Takes tds tds' td

theorem blOhciInitGeneralTd_inits (buf : BitVec 32) (length : Int) (toggle : Bool)
    (pid : BlUsbPid) : Inits (blOhciInitGeneralTd buf length toggle pid) := by
  intro tds tds' td h
  obtain ⟨⟨tds₁, td₁⟩, halloc, heq⟩ := Option.map_eq_some_iff.mp h
  obtain ⟨i, hfind, hi⟩ := Option.map_eq_some_iff.mp halloc
  cases hi
  cases heq
  refine ⟨rfl, ⟨i, List.mem_range.mp (List.mem_of_find?_eq_some hfind), rfl⟩, ?_, ?_, ?_⟩
  · simpa using List.find?_some hfind
  · rw [TdPool.set_same, TdPool.set_same]
    exact (by decide : (1 : BitVec 32) ≠ 0)
  · intro p hp
    rw [TdPool.set_other _ hp, TdPool.set_other _ hp]

theorem Chained.nil (tds : TdPool) : Chained tds tds [] where
  base := rfl
  nodup := List.nodup_nil
  slots := by simp
  free := by simp
  taken := by simp
  others _ _ := rfl
  links := rfl

/-- A descriptor that is taken is none of those that have been. -/
theorem Chained.fresh (h : Chained tds₀ tds as) (htake : Takes tds tds' td) : td ∉ as :=
  fun hmem => h.taken td hmem htake.free

theorem Chained.first (htake : Takes tds tds' td) : Chained tds tds' [td] where
  base := htake.base
  nodup := List.nodup_singleton td
  slots a ha := by
    rw [List.mem_singleton.mp ha]
    exact htake.slot
  free a ha := by
    rw [List.mem_singleton.mp ha]
    exact htake.free
  taken a ha := by
    rw [List.mem_singleton.mp ha]
    exact htake.taken
  others a ha := htake.others a (by simpa using ha)
  links := rfl

/-- One more, which the last one is linked to. -/
theorem Chained.snoc (h : Chained tds₀ tds (as ++ [a])) (htake : Takes tds tds' td) :
    Chained tds₀ (linkTd a td tds') (as ++ [a] ++ [td]) := by
  have hfresh := h.fresh htake
  have hne : a ≠ td := fun heq => hfresh (heq ▸ List.mem_concat_self)
  obtain ⟨i, hi, htd⟩ := htake.slot
  have hold : ∀ p ∈ as ++ [a], ((linkTd a td tds').mem p).used = (tds.mem p).used := by
    intro p hp
    have hother := htake.others p (fun heq => hfresh (heq ▸ hp))
    rcases eq_or_ne p a with rfl | hpa
    · rw [linkTd, TdPool.set_same, hother]
    · rw [linkTd, TdPool.set_other _ hpa, hother]
  refine ⟨htake.base.trans h.base, ?_, ?_, ?_, ?_, ?_, ?_⟩
  · exact List.nodup_append'.mpr ⟨h.nodup, List.nodup_singleton td, by simpa using hfresh⟩
  · intro p hp
    rcases List.mem_append.mp hp with hp | hp
    · exact h.slots p hp
    · rw [List.mem_singleton.mp hp]
      exact ⟨i, hi, htd.trans (address_congr h.base i)⟩
  · intro p hp
    rcases List.mem_append.mp hp with hp | hp
    · exact h.free p hp
    · rw [List.mem_singleton.mp hp, ← h.others td hfresh]
      exact htake.free
  · intro p hp
    rcases List.mem_append.mp hp with hp | hp
    · rw [hold p hp]
      exact h.taken p hp
    · rw [List.mem_singleton.mp hp, linkTd, TdPool.set_other _ hne.symm]
      exact htake.taken
  · intro p hp
    rw [List.mem_append, not_or, List.mem_singleton] at hp
    have hpa : p ≠ a := fun heq => hp.1 (heq ▸ List.mem_concat_self)
    rw [linkTd, TdPool.set_other _ hpa, htake.others p hp.2, h.others p hp.1]
  · have hlinks := h.links
    rw [List.dropLast_concat] at hlinks ⊢
    rw [List.map_append, List.map_singleton, linkTd, TdPool.set_same,
      List.tail_append_of_ne_nil (List.concat_ne_nil a as), ← hlinks]
    congr 1
    refine List.map_congr_left fun p hp => ?_
    have hpa : p ≠ a := fun heq => (List.nodup_append'.mp h.nodup).2.2 hp (by simp [heq])
    have hptd : p ≠ td := fun heq => hfresh (heq ▸ List.mem_append_left _ hp)
    rw [TdPool.set_other _ hpa, htake.others p hptd]

/-- The chain in the making is `as`. -/
inductive Holds (tds₀ : TdPool) : Building → List (BitVec 32) → Prop
  | none : Holds tds₀ (tds₀, some none) []
  | some {tds : TdPool} {ends : Ends} {as : List (BitVec 32)} (hchained : Chained tds₀ tds as)
      (hhead : as.head? = some ends.head) (hlast : as.getLast? = some ends.last) :
      Holds tds₀ (tds, some (some ends)) as

variable {init : TdPool → Option (TdPool × BitVec 32)}

theorem takeNext_some (h : (takeNext init b).2 ≠ none) : b.2 ≠ none := by
  obtain ⟨tds, _ | ends⟩ := b
  · exact h
  · exact Option.some_ne_none ends

theorem takeNext_spec (h : Holds tds₀ b as) (hinit : Inits init)
    (hsome : (takeNext init b).2 ≠ none) : ∃ td, Holds tds₀ (takeNext init b) (as ++ [td]) := by
  cases h with
  | none =>
    cases htake : init tds₀ with
    | none => simp [takeNext, htake] at hsome
    | some r =>
      obtain ⟨tds, td⟩ := r
      simp only [takeNext, htake]
      exact ⟨td, .some (.first (hinit _ _ _ htake)) rfl rfl⟩
  | @some tds ends as hchained hhead hlast =>
    cases htake : init tds with
    | none => simp [takeNext, htake] at hsome
    | some r =>
      obtain ⟨tds', td⟩ := r
      obtain ⟨pre, rfl⟩ := List.getLast?_eq_some_iff.mp hlast
      simp only [takeNext, htake]
      refine ⟨td, .some (hchained.snoc (hinit _ _ _ htake)) ?_ List.getLast?_concat⟩
      rw [List.head?_append, hhead]
      rfl

variable {initPacket : Int → Int → Bool → TdPool → Option (TdPool × BitVec 32)} {fuel : Nat}

theorem takePackets_some
    (h : (takePackets initPacket packetSize fuel toggle length off b).1.2 ≠ none) :
    b.2 ≠ none := by
  induction fuel generalizing toggle length off b with
  | zero => exact absurd rfl h
  | succ fuel ih =>
    rw [takePackets] at h
    split_ifs at h
    · exact takeNext_some (ih h)
    · exact h

/-- Every round adds one descriptor. -/
theorem takePackets_spec (h : Holds tds₀ b as)
    (hinit : ∀ off size toggle, Inits (initPacket off size toggle))
    (hsome : (takePackets initPacket packetSize fuel toggle length off b).1.2 ≠ none) :
    ∃ more, Holds tds₀ (takePackets initPacket packetSize fuel toggle length off b).1
      (as ++ more) := by
  induction fuel generalizing toggle length off b as with
  | zero => exact absurd rfl hsome
  | succ fuel ih =>
    rw [takePackets] at hsome ⊢
    split_ifs at hsome ⊢
    · obtain ⟨td, hnext⟩ := takeNext_spec h (hinit _ _ _) (takePackets_some hsome)
      obtain ⟨more, hall⟩ := ih hnext hsome
      rw [List.append_assoc] at hall
      exact ⟨_, hall⟩
    · exact ⟨[], by rwa [List.append_nil]⟩

/-! ## The ring of a transfer -/

/-- The descriptors `as` have been taken and linked into a ring. -/
structure Ringed (tds₀ tds : TdPool) (as : List (BitVec 32)) : Prop where
  base : tds.base = tds₀.base
  nodup : as.Nodup
  slots : ∀ a ∈ as, ∃ i < blOhciNumGeneralTds, a = tds₀.address i
  free : ∀ a ∈ as, (tds₀.mem a).used = 0
  taken : ∀ a ∈ as, (tds.mem a).used ≠ 0
  others : ∀ a ∉ as, tds.mem a = tds₀.mem a
  closed : Ring.Closed (fun a => (tds.mem a).originalNextTd) as

theorem Chained.close {ends : Ends} (h : Chained tds₀ tds as) (hhead : as.head? = some ends.head)
    (hlast : as.getLast? = some ends.last) : Ringed tds₀ (closeRing ends tds) as := by
  obtain ⟨pre, rfl⟩ := List.getLast?_eq_some_iff.mp hlast
  have hused : ∀ p, ((closeRing ends tds).mem p).used = (tds.mem p).used := by
    intro p
    rcases eq_or_ne p ends.last with rfl | hne
    · rw [closeRing, TdPool.set_same]
    · rw [closeRing, TdPool.set_other _ hne]
  refine ⟨h.base, h.nodup, h.slots, h.free, fun a ha => ?_, fun a ha => ?_, ?_⟩
  · rw [hused]
    exact h.taken a ha
  · have hne : a ≠ ends.last := fun heq => ha (heq ▸ List.mem_concat_self)
    rw [closeRing, TdPool.set_other _ hne, h.others a ha]
  · have hlinks := h.links
    rw [List.dropLast_concat] at hlinks
    -- All but the last one lead where they led, and the last one leads to the head.
    have hkept : pre.map (fun a => ((closeRing ends tds).mem a).originalNextTd) =
        (pre ++ [ends.last]).tail := by
      rw [← hlinks]
      refine List.map_congr_left fun p hp => ?_
      have hne : p ≠ ends.last := fun heq =>
        (List.nodup_append'.mp h.nodup).2.2 hp (by simp [heq])
      rw [closeRing, TdPool.set_other _ hne]
    unfold Ring.Closed
    rw [List.map_append, List.map_singleton, hkept, closeRing, TdPool.set_same]
    obtain ⟨rest, hrest⟩ := List.head?_eq_some_iff.mp hhead
    rw [hrest, List.rotate_cons_succ, List.rotate_zero, List.tail_cons]

theorem controlTds_spec {setup : BlUsbSetupData} {setupBuf data : BitVec 32}
    (hsome : (controlTds packetSize setup setupBuf data length tds).2 ≠ none) :
    ∃ as, Holds tds (controlTds packetSize setup setupBuf data length tds) as := by
  unfold controlTds at hsome ⊢
  simp only at hsome ⊢
  have hdata := takeNext_some hsome
  split_ifs at hsome hdata ⊢
  · obtain ⟨td, hsetup⟩ := takeNext_spec (@Holds.none tds)
      (blOhciInitGeneralTd_inits _ _ _ _) (takeNext_some hdata)
    obtain ⟨td', hempty⟩ := takeNext_spec hsetup (blOhciInitGeneralTd_inits _ _ _ _) hdata
    obtain ⟨td'', hall⟩ := takeNext_spec hempty (blOhciInitGeneralTd_inits _ _ _ _) hsome
    exact ⟨_, hall⟩
  · obtain ⟨td, hsetup⟩ := takeNext_spec (@Holds.none tds)
      (blOhciInitGeneralTd_inits _ _ _ _) (takePackets_some hdata)
    obtain ⟨more, hpackets⟩ :=
      takePackets_spec hsetup (fun _ _ _ => blOhciInitGeneralTd_inits _ _ _ _) hdata
    obtain ⟨td', hall⟩ := takeNext_spec hpackets (blOhciInitGeneralTd_inits _ _ _ _) hsome
    exact ⟨_, hall⟩

theorem bulkTds_spec {endp : BlUsbEndpoint} {direction : Nat} {data : BitVec 32}
    {pid : BlUsbPid}
    (hsome : (takeNext (blOhciInitGeneralTd 0 0 toggle pid)
      (bulkPackets endp direction data length tds).1).2 ≠ none) :
    ∃ as, Holds tds (takeNext (blOhciInitGeneralTd 0 0 toggle pid)
      (bulkPackets endp direction data length tds).1) as := by
  have hsomePackets := takeNext_some hsome
  obtain ⟨more, hpackets⟩ := takePackets_spec (@Holds.none tds)
    (fun _ _ _ => blOhciInitGeneralTd_inits _ _ _ _) hsomePackets
  obtain ⟨td, hall⟩ := takeNext_spec hpackets (blOhciInitGeneralTd_inits _ _ _ _) hsome
  exact ⟨_, hall⟩

theorem Holds.ringed {ends : Ends} (h : Holds tds₀ (tds, Option.some (Option.some ends)) as) :
    Ringed tds₀ (closeRing ends tds) as ∧ ends.last ∈ as := by
  cases h with
  | some hchained hhead hlast => exact ⟨hchained.close hhead hlast, List.mem_of_getLast? hlast⟩

variable {ohci : BlOhciController} {ed ed' : Endpoints.BlOhciEd}

theorem prepareControlTransfer_ringed {address : BitVec 32} {speed : BlUsbSpeed}
    {setup : BlUsbSetupData} {setupBuf data : BitVec 32} {ohci' : BlOhciController} {i : Nat}
    (h : prepareControlTransfer ohci packetSize address speed setup setupBuf data length =
      (ohci', some i)) :
    ∃ as, Ringed ohci.tds ohci'.tds as ∧ (ohci'.eds.controlEds.eds i).tdTailPointer ∈ as := by
  unfold prepareControlTransfer at h
  dsimp only at h
  generalize (if packetSize = 0 then 8 else packetSize) = packetSize at h
  generalize Endpoints.blOhciInitEd ohci.eds (controlRequest packetSize address speed) = alloc at h
  obtain ⟨eds, _ | ed⟩ := alloc
  · cases h
  · have hspec := @controlTds_spec ohci.tds length packetSize setup setupBuf data
    generalize controlTds packetSize setup setupBuf data length ohci.tds = built at h hspec
    obtain ⟨tds, _ | _ | ends⟩ := built
    · cases h
    · cases h
    · cases h
      obtain ⟨as, has⟩ := hspec (Option.some_ne_none _)
      refine ⟨as, has.ringed.1, ?_⟩
      simp only [Endpoints.EdPool.setEd, Function.update_self, linkTransfer]
      exact has.ringed.2

theorem blOhciBulkInterruptPrepare_ringed {address : BitVec 32} {endp endp' : BlUsbEndpoint}
    {speed : BlUsbSpeed} {direction : Nat} {data : BitVec 32} {ohci' : BlOhciController} {i : Nat}
    (h : blOhciBulkInterruptPrepare ohci address endp speed direction data length =
      some (ohci', endp', some i)) :
    ∃ as, Ringed ohci.tds ohci'.tds as ∧ (ohci'.eds.bulkEds.eds i).tdTailPointer ∈ as := by
  unfold blOhciBulkInterruptPrepare at h
  dsimp only at h
  generalize (if direction ≠ 0 then BlUsbPid.tokenIn else .tokenOut) = pid at h
  generalize Endpoints.blOhciInitEd ohci.eds (bulkRequest address endp speed) = alloc at h
  obtain ⟨eds, _ | ed⟩ := alloc
  · cases h
  · have hspec := @bulkTds_spec ohci.tds length
      (!(bulkPackets endp direction data length ohci.tds).2) endp direction data pid
    generalize takeNext _ _ = built at h hspec
    obtain ⟨tds, _ | _ | ends⟩ := built
    · cases h
    · cases h
    · dsimp only at h
      split_ifs at h
      cases h
      obtain ⟨as, has⟩ := hspec (Option.some_ne_none _)
      refine ⟨as, has.ringed.1, ?_⟩
      simp only [Endpoints.EdPool.setEd, Function.update_self, linkTransfer]
      exact has.ringed.2

theorem Built.ringed (h : Built ohci tds ed) :
    ∃ as, Ringed ohci.tds tds as ∧ ed.tdTailPointer ∈ as := by
  cases h with
  | control h => exact prepareControlTransfer_ringed h
  | bulk h => exact blOhciBulkInterruptPrepare_ringed h

/-! ## Once round the ring -/

theorem clearTd_foldl (freed : List (BitVec 32)) (tds : TdPool) :
    (freed.foldl clearTd tds).base = tds.base ∧
      (∀ a ∈ freed, ((freed.foldl clearTd tds).mem a).used = 0) ∧
      ∀ a ∉ freed, (freed.foldl clearTd tds).mem a = tds.mem a := by
  induction freed generalizing tds with
  | nil => simp
  | cons td freed ih =>
    obtain ⟨hbase, hfreed, hothers⟩ := ih (clearTd tds td)
    rw [List.foldl_cons]
    refine ⟨hbase, fun a ha => ?_, fun a ha => ?_⟩
    · by_cases hmem : a ∈ freed
      · exact hfreed a hmem
      · have heq : a = td := (List.mem_cons.mp ha).resolve_right hmem
        rw [hothers a hmem, heq, clearTd, TdPool.set_same]
    · rw [List.mem_cons, not_or] at ha
      rw [hothers a ha.2, clearTd, TdPool.set_other _ ha.1]

theorem Ringed.length_le (h : Ringed tds₀ tds as) : as.length ≤ blOhciNumGeneralTds := by
  have hsub : as ⊆ (List.range blOhciNumGeneralTds).map tds₀.address := by
    intro a ha
    obtain ⟨i, hi, rfl⟩ := h.slots a ha
    exact List.mem_map_of_mem (List.mem_range.mpr hi)
  simpa using (h.nodup.subperm hsub).length_le

/-- What the controller has written does not open the ring. -/
theorem Ringed.closed_of_completed (h : Ringed tds₀ tds as) (hdone : Completed ed ed' tds tds') :
    Ring.Closed (originalNext tds') as := by
  have hclosed := h.closed
  unfold Ring.Closed at hclosed ⊢
  rw [← hclosed]
  refine List.map_congr_left fun a ha => ?_
  have hmem : (tds.mem a).originalNextTd ∈ as := by
    rw [← List.mem_rotate (n := 1), ← hclosed]
    exact List.mem_map_of_mem ha
  obtain ⟨i, -, hi⟩ := h.slots _ hmem
  rw [originalNext, hdone.originalNextTd, hi, blOhciEdTdPointer_address]

theorem originalNext_clearTd (tds : TdPool) (td a : BitVec 32) (hne : a ≠ td) :
    originalNext (clearTd tds td) a = originalNext tds a := by
  rw [originalNext, originalNext, clearTd, TdPool.set_other _ hne]

/-- **The descriptors of a transfer are released**, each of them once, and no others. -/
theorem blOhciFreeTdList_releases (hbuilt : Built ohci tds ed)
    (hdone : Completed ed ed' tds tds') :
    ∃ after freed, freed.Nodup ∧
      (∀ fuel ≥ blOhciNumGeneralTds, blOhciFreeTdList fuel ed' tds' = some (after, freed) ∧
        (ed'.tdHeadPointer &&& blOhciEdTdHeadPointerHalted = 0 →
          blOhciTransferFinished fuel ed' tds' = some (.success,
            { ed' with flags := ed'.flags ||| Endpoints.blOhciEdFlagsSkip }, after))) ∧
      (∀ a, a ∈ freed ↔ (ohci.tds.mem a).used = 0 ∧ (tds.mem a).used ≠ 0) ∧
      (∀ a ∈ freed, (after.mem a).used = 0) ∧ (∀ a ∉ freed, after.mem a = tds'.mem a) ∧
      freeTds after = freeTds ohci.tds := by
  obtain ⟨as, hring, htail⟩ := hbuilt.ringed
  have hstart : blOhciEdTdPointer ed'.tdHeadPointer = ed.tdTailPointer := by
    obtain ⟨i, -, hi⟩ := hring.slots _ htail
    rw [hdone.head, hdone.tail, hi, blOhciEdTdPointer_address]
  obtain ⟨freed, hperm, hsweep⟩ := (hring.closed_of_completed hdone).sweep_eq
    originalNext_clearTd hring.nodup htail
  obtain ⟨hbase, hfreed, hothers⟩ := clearTd_foldl freed tds'
  have hmem : ∀ a, a ∈ freed ↔ a ∈ as := fun a => hperm.mem_iff
  have hrun : ∀ fuel ≥ blOhciNumGeneralTds,
      blOhciFreeTdList fuel ed' tds' = some (freed.foldl clearTd tds', freed) := by
    intro fuel hfuel
    unfold blOhciFreeTdList
    simp only [hstart]
    exact hsweep fuel (Nat.le_trans hring.length_le hfuel)
  have hused : ∀ a, ((freed.foldl clearTd tds').mem a).used = (ohci.tds.mem a).used := by
    intro a
    by_cases ha : a ∈ as
    · rw [hfreed a ((hmem a).mpr ha), hring.free a ha]
    · rw [hothers a (fun h => ha ((hmem a).mp h)), hdone.used, hring.others a ha]
  refine ⟨_, freed, hperm.nodup_iff.mpr hring.nodup, fun fuel hfuel =>
    ⟨hrun fuel hfuel, fun hrunning => ?_⟩, fun a => ?_, hfreed, hothers, ?_⟩
  · unfold blOhciTransferFinished
    rw [if_neg (not_not.mpr hrunning), if_pos hdone.head]
    exact congrArg (Option.map _) (hrun fuel hfuel)
  · rw [hmem]
    constructor
    · exact fun ha => ⟨hring.free a ha, hring.taken a ha⟩
    · rintro ⟨hfree, htaken⟩
      by_contra ha
      rw [hring.others a ha] at htaken
      exact htaken hfree
  · have hplace : ∀ i, (freed.foldl clearTd tds').address i = ohci.tds.address i := fun i =>
      address_congr (hbase.trans (hdone.base.trans hring.base)) i
    unfold freeTds
    simp only [hplace, hused]

/-! ## A disk -/

def freshOhci : BlOhciController where
  eds := Endpoints.blOhciInitDataStructures Endpoints.zeroPool Endpoints.zeroPool
  tds := ⟨0x200000, rfl, fun _ => ⟨0, 0, 0, 0, 0, 0⟩⟩

/-- 100 bytes to an endpoint 2 of 64 bytes: two packets, and the descriptor behind them. -/
def bulkOut : Option (BlOhciController × BlUsbEndpoint × Option Nat) :=
  blOhciBulkInterruptPrepare freshOhci 1 ⟨false, 0x02, 64⟩ .full 1 0x300000 100

/-- The controller has linked what it has done into a queue of its own. -/
def queued (tds : TdPool) : TdPool :=
  { tds with mem := fun td => { tds.mem td with nextTd := 0x200000 } }

theorem bulkOut_released : ∃ tds ed after freed, Built freshOhci tds ed ∧
    blOhciFreeTdList 512 { ed with tdHeadPointer := ed.tdTailPointer } (queued tds) =
      some (after, freed) ∧ freed.Nodup ∧ freeTds after = freeTds freshOhci.tds := by
  have hprepared : bulkOut.map (fun r => r.2.2) = some (some 0) := by decide +kernel
  obtain ⟨⟨ohci, endp, ed⟩, hbuilt, rfl⟩ := Option.map_eq_some_iff.mp hprepared
  have hdone : Completed (ohci.eds.bulkEds.eds 0) { ohci.eds.bulkEds.eds 0 with
      tdHeadPointer := (ohci.eds.bulkEds.eds 0).tdTailPointer } ohci.tds (queued ohci.tds) :=
    ⟨rfl, rfl, rfl, fun _ => rfl, fun _ => rfl⟩
  obtain ⟨after, freed, hnodup, hrun, -, -, -, hcount⟩ :=
    blOhciFreeTdList_releases (Built.bulk hbuilt) hdone
  exact ⟨_, _, after, freed, Built.bulk hbuilt, (hrun 512 (by decide)).1, hnodup, hcount⟩

end BootLoader.Ohci.Release
