import BootLoader.Usb.ControlTransfer
import BootLoader.Uhci.Code

/-!
# The xHCI driver (`modules/usb/xhci/xhci.c`)

Positions in a ring count its TRBs from the start. What the driver does is interleaved with the
events that the controller posts.
-/

namespace BootLoader.Xhci

open Usb

def blXhciTrTrbs : Nat := 128
def blXhciCrTrbs : Nat := 128
def blXhciErTrbs : Nat := 32

/-! ## TRBs -/

inductive Parameter where
  | word (w : BitVec 64)
  | setupData (setup : BlUsbSetupData)
  | buffer (p : Ptr)
  | inputContext (address : Nat)
  | ringSegment
  deriving DecidableEq

structure BlXhciTrb where
  parameter : Parameter
  status : BitVec 32
  control : BitVec 32
  deriving DecidableEq

def cycleBit : BitVec 32 := 1
def chainBit : BitVec 32 := 0x10
def iocBit : BitVec 32 := 0x20
def idtBit : BitVec 32 := 0x40
def dirIn : BitVec 32 := 0x10000
def trtIn : BitVec 32 := 0x30000

def trbType (type : BitVec 32) : BitVec 32 := (type &&& 0x3f) <<< 10

def BlXhciTrb.cycle (trb : BlXhciTrb) : Bool := trb.control.getLsbD 0

def zeroTrb : BlXhciTrb := ⟨.word 0, 0, 0⟩

/-- The field has 17 bits. -/
def transferLength (size : Nat) : BitVec 32 := (BitVec.ofNat 17 size).setWidth 32

def setupStageTrb (setup : BlUsbSetupData) : BlXhciTrb where
  parameter := .setupData setup
  status := transferLength 8
  control := cycleBit ||| idtBit ||| trbType 2 ||| trtIn

def dataStageTrb (off size : Nat) : BlXhciTrb where
  parameter := .buffer ⟨.data, off⟩
  status := transferLength size
  control := cycleBit ||| trbType 3 ||| dirIn

def statusStageTrb : BlXhciTrb where
  parameter := .word 0
  status := 0
  control := cycleBit ||| iocBit ||| trbType 4

def normalTrb (off size : Nat) (more : Bool) : BlXhciTrb where
  parameter := .buffer ⟨.data, off⟩
  status := transferLength size
  control := (if more then chainBit else 0) ||| trbType 1

/-! ## Rings -/

/-- `writes` is what was written, and where to. -/
structure BlXhciRing where
  trbs : Nat → BlXhciTrb
  enqueue : Nat
  writes : List (Nat × BlXhciTrb)

def BlXhciRing.write (r : BlXhciRing) (trb : BlXhciTrb) : BlXhciRing where
  trbs := Function.update r.trbs r.enqueue trb
  enqueue := r.enqueue
  writes := r.writes ++ [(r.enqueue, trb)]

def BlXhciRing.advance (r : BlXhciRing) : BlXhciRing := { r with enqueue := r.enqueue + 1 }

def BlXhciRing.queue (r : BlXhciRing) (trb : BlXhciTrb) : BlXhciRing := (r.write trb).advance

/-- Zeroed, with a Link TRB at the end. The command ring is set up the same way. -/
def blXhciAllocTransferRing : BlXhciRing where
  trbs i := if i = blXhciTrTrbs - 1 then ⟨.ringSegment, 0, trbType 6⟩ else zeroTrb
  enqueue := 0
  writes := []

/-- One TRB for each packet, as long as `length` is positive. With packets of no bytes the loop has
no end. -/
def queuePackets (trb : Nat → Nat → Bool → BlXhciTrb) (packetSize : Nat) :
    Nat → Nat → Nat → BlXhciRing → Option BlXhciRing
  | 0, _, _, _ => none
  | fuel + 1, length, off, r =>
    if 0 < length then
      queuePackets trb packetSize fuel (length - packetSize) (off + packetSize)
        (r.queue (trb off (min length packetSize) (packetSize < length)))
    else some r

/-- The three stages of a control transfer. -/
def queueControl (packetSize : Nat) (setup : BlUsbSetupData) (length : Int) (r : BlXhciRing) :
    Option BlXhciRing :=
  (queuePackets (fun off size _ => dataStageTrb off size) packetSize (length.toNat + 1)
    length.toNat 0 (r.queue (setupStageTrb setup))).map fun r => r.queue statusStageTrb

/-! ## Events -/

/-- `request` is the number of the command or transfer that the event tells the end of. -/
structure Event where
  parameter : BitVec 64
  status : BitVec 32
  control : BitVec 32
  request : Option Nat
  deriving DecidableEq

def Event.cycle (e : Event) : Bool := e.control.getLsbD 0
def Event.portId (e : Event) : Nat := ((e.parameter >>> 24) &&& 0xff).toNat
def Event.completionCode (e : Event) : Nat := ((e.status >>> 24) &&& 0xff).toNat
def Event.slotId (e : Event) : Nat := ((e.control >>> 24) &&& 0xff).toNat

def ccSuccess : Nat := 1

def zeroEvent : Event := ⟨0, 0, 0, none⟩

structure BlXhciDevice where
  slotId : Nat
  /-- `tr_enqueue` and `tr`. -/
  tr : Nat → Option BlXhciRing
  maxPacketSize : Nat
  epValid : Nat → Bool

/-- Of the run so far, `posted` are the events of the controller, `consumed` those the driver took,
`requests` counts the commands and transfers, and `stops` tells at which event each stopped. -/
structure BlXhciController where
  commandRing : BlXhciRing
  eventRing : Nat → Event
  erDequeue : Nat
  devices : Nat → Option BlXhciDevice
  posted : List Event
  consumed : List Event
  requests : Nat
  stops : List (Nat × Event)

/-- Behind the event ring there is what the heap held. -/
def blXhciInitDataStructures (behind : Nat → Event) : BlXhciController where
  commandRing := blXhciAllocTransferRing
  eventRing i := if i < blXhciErTrbs then zeroEvent else behind i
  erDequeue := 0
  devices _ := none
  posted := []
  consumed := []
  requests := 0
  stops := []

/-- The controller marks its events with the cycle bit, which changes with every pass. -/
def Event.marked (e : Event) (n : Nat) : Event :=
  { e with control := if n / blXhciErTrbs % 2 = 0 then e.control ||| 1 else e.control &&& ~~~1 }

/-- The controller posts an event if that leaves alone what the driver has not read yet. -/
def post (xhci : BlXhciController) (e : Event) : BlXhciController :=
  if xhci.posted.length < xhci.erDequeue + blXhciErTrbs then
    { xhci with
      eventRing := Function.update xhci.eventRing (xhci.posted.length % blXhciErTrbs)
        (e.marked xhci.posted.length)
      posted := xhci.posted ++ [e.marked xhci.posted.length] }
  else xhci

def blXhciGetLastEvent (xhci : BlXhciController) : BlXhciController × Option Event :=
  let e := xhci.eventRing xhci.erDequeue
  if e.cycle then
    ({ xhci with erDequeue := xhci.erDequeue + 1, consumed := xhci.consumed ++ [e] }, some e)
  else (xhci, none)

/-- The loop, at the poll number `k` with `left` more; before each poll the controller posts. -/
def waitEvent (posts : Nat → List Event) :
    Nat → Nat → BlXhciController → BlXhciController × Option Event
  | 0, _, xhci => (xhci, none)
  | left + 1, k, xhci =>
    match blXhciGetLastEvent ((posts k).foldl post xhci) with
    | (xhci, some e) => (xhci, some e)
    | (xhci, none) => waitEvent posts left (k + 1) xhci

/-- `while (--timeout)` from 20 on. -/
def polls : Nat := 19

def newRequest (xhci : BlXhciController) : BlXhciController :=
  { xhci with requests := xhci.requests + 1 }

def stopAt (xhci : BlXhciController) (n : Nat) (e : Event) : BlXhciController :=
  { xhci with stops := xhci.stops ++ [(n, e)] }

/-! ## Commands -/

def blXhciCrQueueTrb (posts : Nat → List Event) (xhci : BlXhciController) (trb : BlXhciTrb) :
    BlXhciController × Option Event :=
  let n := xhci.requests
  match waitEvent posts polls 0
      (newRequest { xhci with commandRing := xhci.commandRing.write trb }) with
  | (xhci, none) => (xhci, none)
  | (xhci, some e) =>
    (stopAt { xhci with commandRing := xhci.commandRing.advance } n e, some e)

def enableSlotTrb : BlXhciTrb := ⟨.word 0, 0, trbType 9 ||| cycleBit⟩

def slotCommandTrb (type : BitVec 32) (address slotId : Nat) : BlXhciTrb where
  parameter := .inputContext address
  status := 0
  control := ((BitVec.ofNat 32 slotId &&& 0xff) <<< 24) ||| trbType type ||| cycleBit

def blXhciCrEnableSlot (posts : Nat → List Event) (xhci : BlXhciController) :
    BlXhciController × Option Nat :=
  match blXhciCrQueueTrb posts xhci enableSlotTrb with
  | (xhci, none) => (xhci, none)
  | (xhci, some e) => if e.completionCode = ccSuccess then (xhci, some e.slotId) else (xhci, none)

def blXhciCrAddressDevice (posts : Nat → List Event) (xhci : BlXhciController)
    (address slotId : Nat) : BlXhciController :=
  (blXhciCrQueueTrb posts xhci (slotCommandTrb 11 address slotId)).1

def blXhciCrConfigureEndpoint (posts : Nat → List Event) (xhci : BlXhciController)
    (address slotId : Nat) : BlXhciController :=
  (blXhciCrQueueTrb posts xhci (slotCommandTrb 12 address slotId)).1

/-! ## Ports -/

/-- What the port registers, the heap and the controller answer in `bl_xhci_port_init`. -/
structure PortEnv where
  /-- `port_usb_type[port]` -/
  usbType : Nat
  /-- The conditions on `portsc`, and the speed it tells. -/
  enabled : Bool
  speed : Option Uhci.BlUsbSpeed
  /-- Posted before the port's event is looked for. -/
  resetPosts : List Event
  slotPosts : Nat → List Event
  addressPosts : Nat → List Event
  /-- Do the input context, the ring, the device context and the device get their blocks ? -/
  contextAlloc : Bool
  ringAlloc : Bool
  deviceContextAlloc : Bool
  deviceAlloc : Bool

/-- Without a speed the field stays zero. -/
def slotMaxPacketSize : Option Uhci.BlUsbSpeed → Nat
  | none => 0
  | some .low | some .full => 8
  | some .high => 64
  | some .super | some .superPlus => 512

def blXhciDeviceSlotInit (env : PortEnv) (xhci : BlXhciController) (slotId address : Nat)
    (speed : Option Uhci.BlUsbSpeed) : BlXhciController :=
  if env.contextAlloc && env.ringAlloc && env.deviceContextAlloc then
    let xhci := blXhciCrAddressDevice env.addressPosts xhci address slotId
    let device := if env.deviceAlloc then
        some {
          slotId
          tr i := if i = 0 then some blXhciAllocTransferRing else none
          maxPacketSize := slotMaxPacketSize speed
          epValid _ := false }
      else none
    { xhci with devices := Function.update xhci.devices address device }
  else xhci

/-- The first part of `bl_xhci_port_init`: the speed, or the early return. For a port of another USB
type the speed stays -1. -/
def portSpeed (env : PortEnv) (xhci : BlXhciController) (port : Nat) :
    BlXhciController × Option (Option Uhci.BlUsbSpeed) :=
  if env.usbType = 3 then (xhci, if env.enabled then env.speed.map some else none)
  else if env.usbType ≤ 2 then
    match blXhciGetLastEvent (env.resetPosts.foldl post xhci) with
    | (xhci, none) => (xhci, none)
    | (xhci, some e) =>
      if env.enabled && e.completionCode = ccSuccess && e.portId = port + 1 then
        (xhci, env.speed.map some)
      else (xhci, none)
  else (xhci, some none)

def blXhciPortInit (env : PortEnv) (xhci : BlXhciController) (port address : Nat) :
    BlXhciController × Option Uhci.BlUsbSpeed :=
  match portSpeed env xhci port with
  | (xhci, none) => (xhci, none)
  | (xhci, some speed) =>
    match blXhciCrEnableSlot env.slotPosts xhci with
    | (xhci, none) => (xhci, none)
    | (xhci, some slotId) => (blXhciDeviceSlotInit env xhci slotId address speed, speed)

/-- `connected` is the bit of the register. -/
def blXhciPortDeviceConnected (connected : Bool) (xhci : BlXhciController) (port : Nat) :
    BlXhciController × Bool :=
  if connected then
    match blXhciGetLastEvent xhci with
    | (xhci, none) => (xhci, true)
    | (xhci, some e) => (xhci, e.completionCode = ccSuccess && e.portId = port + 1)
  else (xhci, false)

/-! ## Transfers -/

def setRing (xhci : BlXhciController) (address i : Nat) (device : BlXhciDevice) (r : BlXhciRing) :
    BlXhciController :=
  { xhci with
    devices := Function.update xhci.devices address
      (some { device with tr := Function.update device.tr i (some r) }) }

/-- `none`: there is no such device or ring, or the loop has no end. -/
def blXhciControlTransfer (posts : Nat → List Event) (xhci : BlXhciController) (packetSize : Nat)
    (address : Nat) (setup : BlUsbSetupData) (length : Int) : Option BlXhciController := do
  let device ← xhci.devices address
  let r ← device.tr 0
  let packetSize := if packetSize = 0 then device.maxPacketSize else packetSize
  let r ← queueControl packetSize setup length r
  let n := xhci.requests
  match waitEvent posts polls 0 (newRequest (setRing xhci address 0 device r)) with
  | (xhci, none) => some xhci
  | (xhci, some e) => some (stopAt xhci n e)

structure BulkEnv where
  ringAlloc : Bool
  /-- Is the endpoint in the running state after it was configured ? -/
  running : Bool
  configurePosts : Nat → List Event
  posts : Nat → List Event

def endpointId (endpointAddress : BitVec 8) : Nat :=
  2 * (endpointAddress &&& 0xf).toNat + ((endpointAddress >>> 7) &&& 1).toNat

/-- The endpoint's context is filled in. -/
def validated (device : BlXhciDevice) (ep : Nat) : BlXhciDevice :=
  { device with epValid := Function.update device.epValid (ep - 2) true }

/-- The endpoint gets a ring and is configured. -/
def configureBulk (env : BulkEnv) (xhci : BlXhciController) (address ep : Nat)
    (device : BlXhciDevice) : BlXhciController :=
  blXhciCrConfigureEndpoint env.configurePosts
    (setRing xhci address (ep - 1) device blXhciAllocTransferRing) address device.slotId

/-- The second part of `bl_xhci_bulk_transfer`. -/
def queueBulk (env : BulkEnv) (xhci : BlXhciController) (address ep : Nat) (packetSize : Nat)
    (length : Int) : Option BlXhciController := do
  let device ← xhci.devices address
  let r ← device.tr (ep - 1)
  let r ← queuePackets normalTrb packetSize (length.toNat + 1) length.toNat 0 r
  pure (waitEvent env.posts polls 0 (newRequest (setRing xhci address (ep - 1) device r))).1

/-- The contexts of the default endpoint lie before `ep_context`. -/
def blXhciBulkTransfer (env : BulkEnv) (xhci : BlXhciController) (address : Nat)
    (endp : Uhci.BlUsbEndpoint) (length : Int) : Option BlXhciController :=
  let ep := endpointId endp.endpointAddress
  if ep < 2 then none
  else match xhci.devices address with
    | none => none
    | some device =>
      if device.epValid (ep - 2) then queueBulk env xhci address ep endp.maxPacketSize length
      else if env.ringAlloc then
        let xhci := configureBulk env xhci address ep (validated device ep)
        if env.running then queueBulk env xhci address ep endp.maxPacketSize length else some xhci
      else
        some { xhci with
          devices := Function.update xhci.devices address (some (validated device ep)) }

end BootLoader.Xhci
