import BootLoader.Lib.Runs
import BootLoader.Xhci.Events
import BootLoader.Xhci.Rings

/-!
# Runs of the xHCI driver

The driver's own steps, in any order, interleaved with the events that the controller posts.
-/

namespace BootLoader.Xhci

open DescriptorPool Usb

inductive Command where
  | enableSlot
  | addressDevice (address slotId : Nat)
  | configureEndpoint (address slotId : Nat)

def Command.trb : Command → BlXhciTrb
  | .enableSlot => enableSlotTrb
  | .addressDevice address slotId => slotCommandTrb 11 address slotId
  | .configureEndpoint address slotId => slotCommandTrb 12 address slotId

inductive Step where
  | post (e : Event)
  | getLastEvent
  | command (posts : Nat → List Event) (c : Command)
  /-- The end of `bl_xhci_device_slot_init`: a slot and a packet size, or no device. -/
  | setDevice (address : Nat) (device : Option (Nat × Nat))
  | control (posts : Nat → List Event) (packetSize address : Nat) (setup : BlUsbSetupData)
      (length : Int)
  | bulk (env : BulkEnv) (address : Nat) (endp : Uhci.BlUsbEndpoint) (length : Int)

def newDevice (slotId maxPacketSize : Nat) : BlXhciDevice where
  slotId
  tr i := if i = 0 then some blXhciAllocTransferRing else none
  maxPacketSize
  epValid _ := false

def Step.run : Step → BlXhciController → Option BlXhciController
  | .post e, xhci => some (Xhci.post xhci e)
  | .getLastEvent, xhci => some (blXhciGetLastEvent xhci).1
  | .command posts c, xhci => some (blXhciCrQueueTrb posts xhci c.trb).1
  | .setDevice address device, xhci =>
    some { xhci with
      devices := Function.update xhci.devices address
        (device.map fun (slotId, maxPacketSize) => newDevice slotId maxPacketSize) }
  | .control posts packetSize address setup length, xhci =>
    blXhciControlTransfer posts xhci packetSize address setup length
  | .bulk env address endp length, xhci => blXhciBulkTransfer env xhci address endp length

/-! ## The functions of the driver are runs of these steps -/

variable {xhci xhci' : BlXhciController}

theorem run_posts (es : List Event) :
    Runs.run Step.run (es.map Step.post) xhci = some (es.foldl post xhci) := by
  induction es generalizing xhci with
  | nil => rfl
  | cons e es ih => exact ih

theorem portSpeed_run (env : PortEnv) (xhci : BlXhciController) (port : Nat) :
    ∃ is, Runs.run Step.run is xhci = some (portSpeed env xhci port).1 := by
  unfold portSpeed
  by_cases hthree : env.usbType = 3
  · rw [if_pos hthree]
    exact ⟨[], rfl⟩
  by_cases htwo : env.usbType ≤ 2
  · rw [if_neg hthree, if_pos htwo]
    refine ⟨env.resetPosts.map Step.post ++ [.getLastEvent], ?_⟩
    rw [Runs.run_append, run_posts, Option.bind_some]
    show some (blXhciGetLastEvent (env.resetPosts.foldl post xhci)).1 = _
    generalize blXhciGetLastEvent (env.resetPosts.foldl post xhci) = r
    obtain ⟨xhci', e⟩ := r
    cases e with
    | none => rfl
    | some e =>
      dsimp only
      split_ifs <;> rfl
  · rw [if_neg hthree, if_neg htwo]
    exact ⟨[], rfl⟩

theorem enableSlot_run (posts : Nat → List Event) (xhci : BlXhciController) :
    Runs.run Step.run [.command posts .enableSlot] xhci =
      some (blXhciCrEnableSlot posts xhci).1 := by
  show some (blXhciCrQueueTrb posts xhci enableSlotTrb).1 = _
  unfold blXhciCrEnableSlot
  generalize blXhciCrQueueTrb posts xhci enableSlotTrb = r
  obtain ⟨xhci', e⟩ := r
  cases e with
  | none => rfl
  | some e =>
    dsimp only
    split_ifs <;> rfl

theorem blXhciDeviceSlotInit_run (env : PortEnv) (xhci : BlXhciController) (slotId address : Nat)
    (speed : Option Uhci.BlUsbSpeed) :
    ∃ is, Runs.run Step.run is xhci =
      some (blXhciDeviceSlotInit env xhci slotId address speed) := by
  unfold blXhciDeviceSlotInit
  split_ifs with hcontext hdevice
  · exact ⟨[.command env.addressPosts (.addressDevice address slotId),
      .setDevice address (some (slotId, slotMaxPacketSize speed))], rfl⟩
  · exact ⟨[.command env.addressPosts (.addressDevice address slotId), .setDevice address none],
      rfl⟩
  · exact ⟨[], rfl⟩

/-- **Initialising a port is a run.** -/
theorem blXhciPortInit_run (env : PortEnv) (xhci : BlXhciController) (port address : Nat) :
    ∃ is, Runs.run Step.run is xhci = some (blXhciPortInit env xhci port address).1 := by
  obtain ⟨is, hspeed⟩ := portSpeed_run env xhci port
  unfold blXhciPortInit
  generalize portSpeed env xhci port = r at hspeed
  obtain ⟨xhci₁, early⟩ := r
  cases early with
  | none => exact ⟨is, hspeed⟩
  | some speed =>
    have hslot := enableSlot_run env.slotPosts xhci₁
    dsimp only
    generalize blXhciCrEnableSlot env.slotPosts xhci₁ = r at hslot
    obtain ⟨xhci₂, slot⟩ := r
    have hboth : Runs.run Step.run (is ++ [.command env.slotPosts .enableSlot]) xhci =
        some xhci₂ := by
      rw [Runs.run_append, hspeed, Option.bind_some, hslot]
    cases slot with
    | none => exact ⟨_, hboth⟩
    | some slotId =>
      obtain ⟨js, hinit⟩ := blXhciDeviceSlotInit_run env xhci₂ slotId address speed
      exact ⟨_ ++ js, by rw [Runs.run_append, hboth, Option.bind_some, hinit]⟩

theorem blXhciPortDeviceConnected_run (connected : Bool) (xhci : BlXhciController) (port : Nat) :
    ∃ is, Runs.run Step.run is xhci =
      some (blXhciPortDeviceConnected connected xhci port).1 := by
  unfold blXhciPortDeviceConnected
  split_ifs
  · refine ⟨[.getLastEvent], ?_⟩
    show some (blXhciGetLastEvent xhci).1 = _
    generalize blXhciGetLastEvent xhci = r
    obtain ⟨xhci', e⟩ := r
    cases e <;> rfl
  · exact ⟨[], rfl⟩

/-! ## Positions and cycle states -/

/-- Every ring is written to before its Link TRB only, and the events are read in order. -/
structure RingsKept (xhci : BlXhciController) : Prop where
  command : xhci.commandRing.Sound
  transfer : ∀ address device i r, xhci.devices address = some device → device.tr i = some r →
    r.Sound
  dequeue : xhci.erDequeue < blXhciErTrbs
  events : xhci.consumed = xhci.posted.take xhci.erDequeue

def effectivePacketSize (packetSize : Nat) (device : BlXhciDevice) : Nat :=
  if packetSize = 0 then device.maxPacketSize else packetSize

/-- The step stays inside the rings: there is room before the Link TRB for what it queues and in the
event ring for what it waits for, and it is no bulk transfer of data. -/
def Step.Fits : Step → BlXhciController → Prop
  | .post _, _ => True
  | .getLastEvent, xhci => EventsFit xhci []
  | .command posts _, xhci =>
    xhci.commandRing.enqueue < blXhciCrTrbs - 1 ∧ EventsFit xhci (arriving posts polls 0)
  | .setDevice _ _, _ => True
  | .control posts packetSize address _ length, xhci =>
    EventsFit xhci (arriving posts polls 0) ∧
      ∃ device r, xhci.devices address = some device ∧ device.tr 0 = some r ∧
        (0 < length → 0 < effectivePacketSize packetSize device) ∧
        r.enqueue + packetCount (effectivePacketSize packetSize device) length.toNat + 2 ≤
          blXhciTrTrbs - 1
  | .bulk env address endp length, xhci =>
    let ep := endpointId endp.endpointAddress
    length ≤ 0 ∧ 2 ≤ ep ∧ ∃ device, xhci.devices address = some device ∧
      if device.epValid (ep - 2) then
        (∃ r, device.tr (ep - 1) = some r) ∧ EventsFit xhci (arriving env.posts polls 0)
      else env.ringAlloc →
        xhci.commandRing.enqueue < blXhciCrTrbs - 1 ∧
          EventsFit xhci (arriving env.configurePosts polls 0) ∧
          (env.running → EventsFit (configureBulk env xhci address ep (validated device ep))
            (arriving env.posts polls 0))

variable {posts : Nat → List Event} {address i : Nat} {device : BlXhciDevice} {r : BlXhciRing}

structure Kept (xhci : BlXhciController) : Prop where
  rings : RingsKept xhci
  inOrder : EventsInOrder xhci

theorem Command.cycle (c : Command) : c.trb.cycle = true := by
  cases c <;>
    simp [Command.trb, enableSlotTrb, slotCommandTrb, BlXhciTrb.cycle, trbType, cycleBit]

theorem EventsInOrder.congr (h : EventsInOrder xhci) (hdequeue : xhci'.erDequeue = xhci.erDequeue)
    (hposted : xhci'.posted = xhci.posted) (hconsumed : xhci'.consumed = xhci.consumed)
    (hring : xhci'.eventRing = xhci.eventRing) : EventsInOrder xhci' where
  inside := hdequeue ▸ h.inside
  le := by rw [hdequeue, hposted]; exact h.le
  consumed := by rw [hconsumed, hposted, hdequeue]; exact h.consumed
  room := by rw [hdequeue, hposted]; exact h.room
  ahead := by rw [hdequeue, hposted, hring]; exact h.ahead
  marked := by rw [hposted]; exact h.marked

theorem RingsKept.of_sameRings (h : RingsKept xhci) (hsame : SameRings xhci xhci')
    (hinOrder : EventsInOrder xhci') : RingsKept xhci' where
  command := hsame.command ▸ h.command
  transfer := by rw [hsame.devices]; exact h.transfer
  dequeue := hinOrder.inside
  events := hinOrder.consumed

theorem Kept.wait (h : Kept xhci) (hfit : EventsFit xhci (arriving posts polls 0)) :
    Kept (waitEvent posts polls 0 xhci).1 := by
  obtain ⟨hinOrder, hsame⟩ := waitEvent_spec h.inOrder hfit
  exact ⟨h.rings.of_sameRings hsame hinOrder, hinOrder⟩

theorem Kept.setRing (h : Kept xhci) (hdevice : xhci.devices address = some device)
    (hr : r.Sound) {device' : BlXhciDevice} (htr : device'.tr = device.tr) :
    Kept (setRing xhci address i device' r) := by
  refine ⟨⟨h.rings.command, ?_, h.rings.dequeue, h.rings.events⟩,
    h.inOrder.congr rfl rfl rfl rfl⟩
  intro address' d j r' hd hj
  rcases eq_or_ne address' address with rfl | hne
  · simp only [Xhci.setRing, Function.update_self, Option.some.injEq] at hd
    subst hd
    simp only at hj
    rcases eq_or_ne j i with rfl | hne
    · rw [Function.update_self] at hj
      exact Option.some.inj hj ▸ hr
    · rw [Function.update_of_ne hne, htr] at hj
      exact h.rings.transfer address' device j r' hdevice hj
  · simp only [Xhci.setRing, Function.update_of_ne hne] at hd
    exact h.rings.transfer address' d j r' hd hj

theorem Kept.setDevice (h : Kept xhci) {device : Option BlXhciDevice}
    (hdevice : ∀ d j r, device = some d → d.tr j = some r → r.Sound) :
    Kept { xhci with devices := Function.update xhci.devices address device } := by
  refine ⟨⟨h.rings.command, ?_, h.rings.dequeue, h.rings.events⟩,
    h.inOrder.congr rfl rfl rfl rfl⟩
  intro address' d j r' hd hj
  rcases eq_or_ne address' address with rfl | hne
  · simp only [Function.update_self] at hd
    exact hdevice d j r' hd hj
  · simp only [Function.update_of_ne hne] at hd
    exact h.rings.transfer address' d j r' hd hj

theorem Kept.newRequest (h : Kept xhci) : Kept (newRequest xhci) :=
  ⟨⟨h.rings.command, h.rings.transfer, h.rings.dequeue, h.rings.events⟩,
    h.inOrder.congr rfl rfl rfl rfl⟩

theorem Kept.stopAt (h : Kept xhci) (n : Nat) (e : Event) : Kept (stopAt xhci n e) :=
  ⟨⟨h.rings.command, h.rings.transfer, h.rings.dequeue, h.rings.events⟩,
    h.inOrder.congr rfl rfl rfl rfl⟩

theorem Kept.command (h : Kept xhci) (c : Command)
    (hroom : xhci.commandRing.enqueue < blXhciCrTrbs - 1)
    (hfit : EventsFit xhci (arriving posts polls 0)) :
    Kept (blXhciCrQueueTrb posts xhci c.trb).1 ∧
      (blXhciCrQueueTrb posts xhci c.trb).1.devices = xhci.devices := by
  have hwritten : Kept (Xhci.newRequest
      { xhci with commandRing := xhci.commandRing.write c.trb }) :=
    Kept.newRequest ⟨⟨h.rings.command.write hroom c.cycle, h.rings.transfer, h.rings.dequeue,
      h.rings.events⟩, h.inOrder.congr rfl rfl rfl rfl⟩
  have hwait := hwritten.wait hfit
  obtain ⟨-, hsame⟩ := waitEvent_spec hwritten.inOrder hfit
  unfold blXhciCrQueueTrb
  generalize waitEvent posts polls 0
    (Xhci.newRequest { xhci with commandRing := xhci.commandRing.write c.trb }) = w at hwait hsame
  obtain ⟨xhci', e⟩ := w
  cases e with
  | none => exact ⟨hwait, hsame.devices⟩
  | some e =>
    have hlt : xhci'.commandRing.enqueue < blXhciCrTrbs - 1 := by
      rw [hsame.command]
      exact hroom
    have hadvanced : Kept { xhci' with commandRing := xhci'.commandRing.advance } :=
      ⟨⟨hwait.rings.command.advance hlt, hwait.rings.transfer, hwait.rings.dequeue,
        hwait.rings.events⟩, hwait.inOrder.congr rfl rfl rfl rfl⟩
    exact ⟨hadvanced.stopAt _ _, hsame.devices⟩

theorem Kept.control (h : Kept xhci) {packetSize : Nat} (setup : BlUsbSetupData) {length : Int}
    (hfit : EventsFit xhci (arriving posts polls 0)) (hdevice : xhci.devices address = some device)
    (hr : device.tr 0 = some r)
    (hpacket : 0 < length → 0 < effectivePacketSize packetSize device)
    (hroom : r.enqueue + packetCount (effectivePacketSize packetSize device) length.toNat + 2 ≤
      blXhciTrTrbs - 1) :
    ∃ xhci', blXhciControlTransfer posts xhci packetSize address setup length = some xhci' ∧
      Kept xhci' := by
  obtain ⟨r', hqueue, hr'⟩ := queueControl_sound setup
    (h.rings.transfer address device 0 r hdevice hr) hpacket hroom
  unfold effectivePacketSize at hqueue
  have hqueued := (h.setRing (i := 0) hdevice hr' rfl).newRequest
  have hwait := hqueued.wait hfit
  simp only [blXhciControlTransfer, hdevice, hr, hqueue, Option.bind_eq_bind, Option.bind_some]
  generalize waitEvent posts polls 0 (Xhci.newRequest (Xhci.setRing xhci address 0 device r')) = w
    at hwait
  obtain ⟨xhci', e⟩ := w
  cases e with
  | none => exact ⟨xhci', rfl, hwait⟩
  | some e => exact ⟨_, rfl, hwait.stopAt _ e⟩

theorem Kept.queueBulk (h : Kept xhci) {env : BulkEnv} {ep packetSize : Nat} {length : Int}
    (hlength : length ≤ 0) (hfit : EventsFit xhci (arriving env.posts polls 0))
    (hdevice : xhci.devices address = some device) (hr : device.tr (ep - 1) = some r) :
    ∃ xhci', queueBulk env xhci address ep packetSize length = some xhci' ∧ Kept xhci' := by
  have hzero : length.toNat = 0 := by omega
  have hqueued := (h.setRing (i := ep - 1) hdevice
    (h.rings.transfer address device _ r hdevice hr) rfl).newRequest
  have hwait := hqueued.wait hfit
  refine ⟨_, ?_, hwait⟩
  simp only [Xhci.queueBulk, hdevice, hr, hzero, queuePackets, Option.bind_eq_bind,
    Option.bind_some, Nat.lt_irrefl, if_false]
  rfl

theorem Kept.configureBulk (h : Kept xhci) {env : BulkEnv} (ep : Nat)
    (hdevice : xhci.devices address = some device)
    (hroom : xhci.commandRing.enqueue < blXhciCrTrbs - 1)
    (hfit : EventsFit xhci (arriving env.configurePosts polls 0)) :
    Kept (configureBulk env xhci address ep (validated device ep)) ∧
      ∃ device', (configureBulk env xhci address ep (validated device ep)).devices address =
          some device' ∧
        device'.tr (ep - 1) = some blXhciAllocTransferRing := by
  have hset := h.setRing (i := ep - 1) hdevice blXhciAllocTransferRing_sound
    (show (validated device ep).tr = device.tr from rfl)
  obtain ⟨hkept, hdevices⟩ :=
    hset.command (.configureEndpoint address (validated device ep).slotId) hroom hfit
  refine ⟨hkept, _, (congrFun hdevices address).trans (Function.update_self _ _ _), ?_⟩
  exact Function.update_self _ _ _

theorem Kept.bulk (h : Kept xhci) {env : BulkEnv} {endp : Uhci.BlUsbEndpoint} {length : Int}
    (hfits : (Step.bulk env address endp length).Fits xhci) :
    ∃ xhci', blXhciBulkTransfer env xhci address endp length = some xhci' ∧ Kept xhci' := by
  obtain ⟨hlength, hep, device, hdevice, hfits⟩ := hfits
  unfold blXhciBulkTransfer
  simp only [Nat.not_lt.mpr hep, if_false, hdevice]
  split_ifs at hfits ⊢ with hvalid halloc hrunning
  · obtain ⟨⟨r, hr⟩, hfit⟩ := hfits
    exact h.queueBulk hlength hfit hdevice hr
  · obtain ⟨hroom, hfit, hlast⟩ := hfits halloc
    obtain ⟨hkept, device', hdevice', hr⟩ := h.configureBulk _ hdevice hroom hfit
    exact hkept.queueBulk hlength (hlast hrunning) hdevice' hr
  · obtain ⟨hroom, hfit, -⟩ := hfits halloc
    exact ⟨_, rfl, (h.configureBulk _ hdevice hroom hfit).1⟩
  · refine ⟨_, rfl, h.setDevice ?_⟩
    intro d j r hd hj
    obtain rfl := Option.some.inj hd
    exact h.rings.transfer address device j r hdevice hj

theorem Kept.step (i : Step) (xhci : BlXhciController) (h : Kept xhci) (hfits : i.Fits xhci) :
    ∃ xhci', i.run xhci = some xhci' ∧ Kept xhci' := by
  cases i with
  | post e =>
    have hinOrder := post_inOrder h.inOrder e
    exact ⟨_, rfl, h.rings.of_sameRings (post_sameRings xhci e) hinOrder, hinOrder⟩
  | getLastEvent =>
    refine ⟨_, rfl, ?_⟩
    rcases blXhciGetLastEvent_spec h.inOrder with ⟨-, hread⟩ | ⟨e, he, hread⟩
    · rw [hread]
      exact h
    · rw [hread]
      have hlt := (List.getElem?_eq_some_iff.mp he).1
      have hinOrder := take_inOrder h.inOrder he (hfits.elim id fun hlast => by
        rw [List.length_nil] at hlast
        omega)
      exact ⟨h.rings.of_sameRings ⟨rfl, rfl, rfl, rfl⟩ hinOrder, hinOrder⟩
  | command posts c => exact ⟨_, rfl, (h.command c hfits.1 hfits.2).1⟩
  | setDevice address device =>
    refine ⟨_, rfl, h.setDevice ?_⟩
    intro d j r hd hj
    obtain ⟨⟨slotId, maxPacketSize⟩, -, rfl⟩ := Option.map_eq_some_iff.mp hd
    simp only [newDevice] at hj
    split_ifs at hj
    exact Option.some.inj hj ▸ blXhciAllocTransferRing_sound
  | control posts packetSize address setup length =>
    obtain ⟨hfit, device, r, hdevice, hr, hpacket, hroom⟩ := hfits
    exact h.control setup hfit hdevice hr hpacket hroom
  | bulk env address endp length => exact h.bulk hfits

theorem blXhciInitDataStructures_kept (behind : Nat → Event) :
    Kept (blXhciInitDataStructures behind) := by
  have hinside : (blXhciInitDataStructures behind).erDequeue < blXhciErTrbs := Nat.succ_pos 31
  refine ⟨⟨blXhciAllocTransferRing_sound, by simp [blXhciInitDataStructures], hinside, rfl⟩, ?_⟩
  refine ⟨hinside, le_rfl, rfl, Nat.zero_le _, ?_, by simp [blXhciInitDataStructures]⟩
  intro i _ hi
  simp [blXhciInitDataStructures, hi]

/-- **Runs that stay inside the rings**: no Link TRB is written to, every TRB is handed over with
the cycle state of its ring, and every event is taken once, in order. -/
theorem run_ringsKept (behind : Nat → Event) (is : List Step)
    (hfits : Runs.Along Step.run Step.Fits is (blXhciInitDataStructures behind)) :
    ∃ xhci, Runs.run Step.run is (blXhciInitDataStructures behind) = some xhci ∧
      RingsKept xhci := by
  obtain ⟨xhci, hrun, hkept⟩ :=
    Runs.run_invariant Kept.step (blXhciInitDataStructures_kept behind) hfits
  exact ⟨xhci, hrun, hkept.rings⟩

def quietly : Nat → List Event := fun _ => []

/-- A device in slot 1 is asked for its descriptor. -/
def identify : List Step :=
  [.command quietly .enableSlot, .setDevice 1 (some (1, 8)),
   .control quietly 8 1 (blUsbSetupDataFill 0x80 6 0x100 0 18) 18]

theorem identify_ringsKept :
    ∃ xhci, Runs.run Step.run identify (blXhciInitDataStructures fun _ => zeroEvent) = some xhci ∧
      RingsKept xhci := by
  refine run_ringsKept (fun _ => zeroEvent) identify
    ⟨⟨by decide, .inl (by decide)⟩, fun x hx => ⟨trivial, fun y hy => ⟨?_, fun _ _ => trivial⟩⟩⟩
  obtain rfl := Option.some.inj hx
  obtain rfl := Option.some.inj hy
  exact ⟨.inl (by decide +kernel), newDevice 1 8, blXhciAllocTransferRing, rfl, rfl, by decide,
    by decide⟩

/-- Reading a sector: the endpoint has no ring yet. -/
def firstRead : List Step :=
  [.setDevice 1 (some (1, 8)), .bulk ⟨true, true, quietly, quietly⟩ 1 ⟨false, 0x81, 512⟩ 512]

theorem firstRead_not_ringsKept : ¬ ∀ behind is,
    ∃ xhci, Runs.run Step.run is (blXhciInitDataStructures behind) = some xhci ∧
      RingsKept xhci := by
  intro h
  obtain ⟨xhci, hrun, hkept⟩ := h (fun _ => zeroEvent) firstRead
  have hcycle : (Runs.run Step.run firstRead (blXhciInitDataStructures fun _ => zeroEvent)).bind
      (fun xhci => (xhci.devices 1).bind fun device => (device.tr 2).map fun r =>
        r.writes.map fun w => w.2.cycle) = some [false] := by
    decide +kernel
  rw [hrun, Option.bind_some] at hcycle
  obtain ⟨device, hdevice, hcycle⟩ := Option.bind_eq_some_iff.mp hcycle
  obtain ⟨r, hr, hcycle⟩ := Option.map_eq_some_iff.mp hcycle
  have hsound := hkept.transfer 1 device 2 r hdevice hr
  cases hwrites : r.writes with
  | nil => simp [hwrites] at hcycle
  | cons w ws =>
    rw [hwrites, List.map_cons] at hcycle
    have hw := (hsound.writes w (by simp [hwrites])).2
    rw [hw] at hcycle
    simp at hcycle

/-! ## Whose event it is -/

/-- The first event that the driver has not read, or that is posted while it waits, tells the end of
the request that it makes. -/
def NextIsOwn (xhci : BlXhciController) (es : List Event) : Prop :=
  ∀ r, ((unread xhci ++ es).head?).map Event.request = some r → r = some xhci.requests

/-- The step stays inside the event ring, and a command or control transfer is next to be
answered. -/
def Step.Answered : Step → BlXhciController → Prop
  | .post _, _ => True
  | .getLastEvent, xhci => EventsFit xhci []
  | .command posts _, xhci =>
    EventsFit xhci (arriving posts polls 0) ∧ NextIsOwn xhci (arriving posts polls 0)
  | .setDevice _ _, _ => True
  | .control posts _ _ _ _, xhci =>
    EventsFit xhci (arriving posts polls 0) ∧ NextIsOwn xhci (arriving posts polls 0)
  | .bulk env address endp _, xhci =>
    let ep := endpointId endp.endpointAddress
    ∀ device, xhci.devices address = some device →
      if device.epValid (ep - 2) then EventsFit xhci (arriving env.posts polls 0)
      else env.ringAlloc →
        EventsFit xhci (arriving env.configurePosts polls 0) ∧
          NextIsOwn xhci (arriving env.configurePosts polls 0) ∧
          (env.running → EventsFit (configureBulk env xhci address ep (validated device ep))
            (arriving env.posts polls 0))

/-- Every command and every control transfer stopped at its own event. -/
structure OwnStops (xhci : BlXhciController) : Prop where
  own : ∀ n e, (n, e) ∈ xhci.stops → e.request = some n
  inOrder : EventsInOrder xhci

theorem OwnStops.stopAt (h : OwnStops xhci) {n : Nat} {e : Event} (he : e.request = some n) :
    OwnStops (stopAt xhci n e) := by
  refine ⟨?_, h.inOrder.congr rfl rfl rfl rfl⟩
  intro m e' hmem
  rcases List.mem_append.mp hmem with hold | hnew
  · exact h.own m e' hold
  · obtain ⟨rfl, rfl⟩ := Prod.mk.inj (List.mem_singleton.mp hnew)
    exact he

theorem OwnStops.wait (h : OwnStops xhci) (hfit : EventsFit xhci (arriving posts polls 0)) :
    OwnStops (waitEvent posts polls 0 xhci).1 := by
  obtain ⟨hinOrder, hsame⟩ := waitEvent_spec h.inOrder hfit
  exact ⟨by rw [hsame.stops]; exact h.own, hinOrder⟩

theorem OwnStops.congr (h : OwnStops xhci) (hstops : xhci'.stops = xhci.stops)
    (hinOrder : EventsInOrder xhci') : OwnStops xhci' :=
  ⟨by rw [hstops]; exact h.own, hinOrder⟩

theorem OwnStops.setRing (h : OwnStops xhci) (address i : Nat) (device : BlXhciDevice)
    (r : BlXhciRing) : OwnStops (setRing xhci address i device r) :=
  h.congr rfl (h.inOrder.congr rfl rfl rfl rfl)

theorem OwnStops.newRequest (h : OwnStops xhci) : OwnStops (newRequest xhci) :=
  h.congr rfl (h.inOrder.congr rfl rfl rfl rfl)

theorem OwnStops.command (h : OwnStops xhci) (trb : BlXhciTrb)
    (hfit : EventsFit xhci (arriving posts polls 0))
    (hnext : NextIsOwn xhci (arriving posts polls 0)) :
    OwnStops (blXhciCrQueueTrb posts xhci trb).1 := by
  have hwritten : OwnStops (Xhci.newRequest
      { xhci with commandRing := xhci.commandRing.write trb }) :=
    h.congr rfl (h.inOrder.congr rfl rfl rfl rfl)
  have hwait := hwritten.wait hfit
  have hevent := fun e => waitEvent_next posts polls 0 (e := e) hwritten.inOrder
  unfold blXhciCrQueueTrb
  generalize waitEvent posts polls 0
    (Xhci.newRequest { xhci with commandRing := xhci.commandRing.write trb }) = w at hwait hevent
  obtain ⟨xhci', e⟩ := w
  cases e with
  | none => exact hwait
  | some e =>
    have hadvanced : OwnStops { xhci' with commandRing := xhci'.commandRing.advance } :=
      hwait.congr rfl (hwait.inOrder.congr rfl rfl rfl rfl)
    exact hadvanced.stopAt (hnext _ (hevent e rfl))

theorem OwnStops.control (h : OwnStops xhci) {packetSize : Nat} {setup : BlUsbSetupData}
    {length : Int} (hfit : EventsFit xhci (arriving posts polls 0))
    (hnext : NextIsOwn xhci (arriving posts polls 0))
    (hrun : blXhciControlTransfer posts xhci packetSize address setup length = some xhci') :
    OwnStops xhci' := by
  unfold blXhciControlTransfer at hrun
  simp only [Option.bind_eq_bind, Option.bind_eq_some_iff] at hrun
  obtain ⟨device, -, r, -, r', -, hrun⟩ := hrun
  have hqueued := (h.setRing address 0 device r').newRequest
  have hwait := hqueued.wait hfit
  have hevent := fun e => waitEvent_next posts polls 0 (e := e) hqueued.inOrder
  generalize waitEvent posts polls 0 (Xhci.newRequest (Xhci.setRing xhci address 0 device r')) = w
    at hrun hwait hevent
  obtain ⟨x, e⟩ := w
  cases e with
  | none =>
    obtain rfl := Option.some.inj hrun
    exact hwait
  | some e =>
    obtain rfl := Option.some.inj hrun
    exact hwait.stopAt (hnext _ (hevent e rfl))

theorem OwnStops.queueBulk (h : OwnStops xhci) {env : BulkEnv} {ep packetSize : Nat} {length : Int}
    (hfit : EventsFit xhci (arriving env.posts polls 0))
    (hrun : Xhci.queueBulk env xhci address ep packetSize length = some xhci') :
    OwnStops xhci' := by
  unfold Xhci.queueBulk at hrun
  simp only [Option.bind_eq_bind, Option.bind_eq_some_iff] at hrun
  obtain ⟨device, -, r, -, r', -, hrun⟩ := hrun
  obtain rfl := Option.some.inj hrun
  exact (h.setRing address (ep - 1) device r').newRequest.wait hfit

theorem OwnStops.bulk (h : OwnStops xhci) {env : BulkEnv} {endp : Uhci.BlUsbEndpoint}
    {length : Int} (hok : (Step.bulk env address endp length).Answered xhci)
    (hrun : blXhciBulkTransfer env xhci address endp length = some xhci') : OwnStops xhci' := by
  unfold blXhciBulkTransfer at hrun
  by_cases hep : endpointId endp.endpointAddress < 2
  · simp [hep] at hrun
  cases hdevice : xhci.devices address with
  | none => simp [hep, hdevice] at hrun
  | some device =>
    have hok' := hok device hdevice
    simp only [hep, if_false, hdevice] at hrun
    split_ifs at hok' hrun with hvalid halloc hrunning
    · exact h.queueBulk hok' hrun
    · obtain ⟨hfit, hnext, hlast⟩ := hok' halloc
      exact ((h.setRing _ _ _ _).command _ hfit hnext).queueBulk (hlast hrunning) hrun
    · obtain ⟨hfit, hnext, -⟩ := hok' halloc
      obtain rfl := Option.some.inj hrun
      exact (h.setRing _ _ _ _).command _ hfit hnext
    · obtain rfl := Option.some.inj hrun
      exact h.congr rfl (h.inOrder.congr rfl rfl rfl rfl)

theorem OwnStops.step (i : Step) (xhci xhci' : BlXhciController) (h : OwnStops xhci)
    (hok : i.Answered xhci) (hrun : i.run xhci = some xhci') : OwnStops xhci' := by
  cases i with
  | post e =>
    obtain rfl := Option.some.inj hrun
    exact h.congr (post_sameRings xhci e).stops (post_inOrder h.inOrder e)
  | getLastEvent =>
    obtain rfl := Option.some.inj hrun
    rcases blXhciGetLastEvent_spec h.inOrder with ⟨-, hread⟩ | ⟨e, he, hread⟩
    · rw [hread]
      exact h
    · rw [hread]
      have hlt := (List.getElem?_eq_some_iff.mp he).1
      refine h.congr rfl (take_inOrder h.inOrder he (hok.elim id fun hlast => ?_))
      rw [List.length_nil] at hlast
      omega
  | command posts c =>
    obtain rfl := Option.some.inj hrun
    exact h.command c.trb hok.1 hok.2
  | setDevice address device =>
    obtain rfl := Option.some.inj hrun
    exact h.congr rfl (h.inOrder.congr rfl rfl rfl rfl)
  | control posts packetSize address setup length => exact h.control hok.1 hok.2 hrun
  | bulk env address endp length => exact h.bulk hok hrun

/-- **Runs in which nothing else is posted**: every event that a command or a control transfer stops
at tells the end of that very request. -/
theorem run_ownStops (behind : Nat → Event) (is : List Step) (xhci : BlXhciController)
    (hok : Runs.Along Step.run Step.Answered is (blXhciInitDataStructures behind))
    (hrun : Runs.run Step.run is (blXhciInitDataStructures behind) = some xhci) :
    ∀ n e, (n, e) ∈ xhci.stops → e.request = some n := by
  have hinit : OwnStops (blXhciInitDataStructures behind) :=
    ⟨by simp [blXhciInitDataStructures], (blXhciInitDataStructures_kept behind).inOrder⟩
  exact (Runs.run_keeps OwnStops.step hinit hok hrun).own

theorem blXhciCrEnableSlot_stop {slotId : Nat}
    (h : (blXhciCrEnableSlot posts xhci).2 = some slotId) :
    ∃ e, (xhci.requests, e) ∈ (blXhciCrEnableSlot posts xhci).1.stops ∧ e.slotId = slotId := by
  unfold blXhciCrEnableSlot at h ⊢
  unfold blXhciCrQueueTrb at h ⊢
  generalize waitEvent posts polls 0
    (newRequest { xhci with commandRing := xhci.commandRing.write enableSlotTrb }) = w at h ⊢
  obtain ⟨xhci', e⟩ := w
  cases e with
  | none => simp at h
  | some e =>
    dsimp only at h ⊢
    split_ifs at h ⊢
    exact ⟨e, List.mem_append_right _ (List.mem_singleton_self _), Option.some.inj h⟩

/-- The controller's answer to the command number `n`. -/
def commandCompletion (n : Nat) (slotId : BitVec 32) : Event :=
  ⟨0, 0x1000000, slotId <<< 24 ||| trbType 33, some n⟩

/-- A change at the port with this number. -/
def portStatusChange (port : BitVec 64) : Event := ⟨port <<< 24, 0x1000000, trbType 34, none⟩

def enableSlotAnswered : List Step :=
  [.command (fun k => if k = 2 then [commandCompletion 0 1] else []) .enableSlot]

theorem enableSlotAnswered_ownStops : ∃ xhci,
    Runs.run Step.run enableSlotAnswered (blXhciInitDataStructures fun _ => zeroEvent) =
      some xhci ∧ ∀ n e, (n, e) ∈ xhci.stops → e.request = some n := by
  have hserved : (Runs.run Step.run enableSlotAnswered
      (blXhciInitDataStructures fun _ => zeroEvent)).isSome := by
    decide +kernel
  obtain ⟨xhci, hrun⟩ := Option.isSome_iff_exists.mp hserved
  refine ⟨xhci, hrun, run_ownStops _ enableSlotAnswered xhci
    ⟨⟨.inl (by decide), ?_⟩, fun _ _ => trivial⟩ hrun⟩
  intro r hr
  have hfirst : ((unread (blXhciInitDataStructures fun _ => zeroEvent) ++
      arriving (fun k => if k = 2 then [commandCompletion 0 1] else []) polls 0).head?).map
        Event.request = some (some 0) := by
    decide +kernel
  rw [hfirst] at hr
  exact (Option.some.inj hr).symm

/-- Another port changes before the answer comes: the command takes that event, and the slot is
0. -/
def otherPortChanges : List Step :=
  [.post (portStatusChange 2),
   .command (fun k => if k = 0 then [commandCompletion 0 1] else []) .enableSlot]

theorem otherPortChanges_not_ownStops : ¬ ∀ behind is xhci,
    Runs.run Step.run is (blXhciInitDataStructures behind) = some xhci →
      ∀ n e, (n, e) ∈ xhci.stops → e.request = some n := by
  intro h
  have hstops : (Runs.run Step.run otherPortChanges
      (blXhciInitDataStructures fun _ => zeroEvent)).map (fun xhci =>
        xhci.stops.map fun s => (s.1, s.2.request)) = some [(0, none)] := by
    decide +kernel
  obtain ⟨xhci, hrun, hstops⟩ := Option.map_eq_some_iff.mp hstops
  have hown := h _ _ xhci hrun
  cases hs : xhci.stops with
  | nil => simp [hs] at hstops
  | cons s ss =>
    rw [hs, List.map_cons] at hstops
    have hmem : (s.1, s.2) ∈ xhci.stops := by simp [hs]
    have hrequest := hown s.1 s.2 hmem
    simp only [List.cons.injEq, Prod.mk.injEq] at hstops
    rw [hstops.1.2] at hrequest
    contradiction

end BootLoader.Xhci
