import BootLoader.Status
import BootLoader.Usb.ControlTransfer

/-!
# The UHCI driver (`modules/usb/uhci/uhci.c`)

Descriptors are named by their index in the pools.
-/

namespace BootLoader.Uhci

open DescriptorPool Usb

def blUhciNumTd : Nat := 1024
def blUhciNumQh : Nat := 256

structure BlUhciTd where
  controlStatus : BitVec 32
  token : BitVec 32
  bufferPointer : Option Ptr
  deriving DecidableEq

/-- An element link pointer: the terminate bit, and the descriptor unless the address is zero. -/
structure QhLink where
  terminate : Bool
  td : Option Nat
  deriving DecidableEq

structure BlUhciQh where
  elementLinkPointer : QhLink
  used : Bool
  originalElement : Option Nat

structure BlUhciController where
  tds : Pool BlUhciTd
  qhs : Nat → BlUhciQh

inductive BlUsbSpeed where
  | low
  | full
  | high
  | super
  | superPlus
  deriving DecidableEq

/-! ## Descriptors -/

def BlUsbPid.value : BlUsbPid → BitVec 8
  | .tokenOut => 0x1
  | .tokenIn => 0x9
  | .tokenSetup => 0xd

def blUsbPidFormatCheck (pid : BitVec 8) : BitVec 8 := (pid &&& 0xf) ||| (~~~pid <<< 4)

/-- `(length - 1) & 0x7ff` -/
def lengthField (size : Nat) : BitVec 32 := (BitVec.ofNat 32 size - 1) &&& 0x7ff

def activeBit : BitVec 32 := 0x800000
def lowSpeedBit : BitVec 32 := 0x4000000
def errorCount3 : BitVec 32 := 0x18000000

def tdToken (pid : BlUsbPid) (address endpoint : BitVec 8) (toggle : Bool) (size : Nat) :
    BitVec 32 :=
  (blUsbPidFormatCheck (BlUsbPid.value pid)).setWidth 32 ||| address.setWidth 32 <<< 8 |||
    endpoint.setWidth 32 <<< 15 ||| (BitVec.ofBool toggle).setWidth 32 <<< 19 |||
    lengthField size <<< 21

def initializedTd (speed : BlUsbSpeed) (pid : BlUsbPid) (address endpoint : BitVec 8)
    (toggle : Bool) (size : Nat) (buffer : Option Ptr) : BlUhciTd where
  controlStatus :=
    lengthField size ||| activeBit ||| (if speed = .low then lowSpeedBit else 0) ||| errorCount3
  token := tdToken pid address endpoint toggle size
  bufferPointer := buffer

def blUhciInitTd (speed : BlUsbSpeed) (pid : BlUsbPid) (address endpoint : BitVec 8)
    (toggle : Bool) (size : Nat) (buffer : Option Ptr) (tds : Pool BlUhciTd) :
    Option (Pool BlUhciTd × Nat) :=
  take tds blUhciNumTd (initializedTd speed pid address endpoint toggle size buffer)

def blUhciAllocQh (uhci : BlUhciController) : Option (BlUhciController × Nat) :=
  ((List.range blUhciNumQh).find? fun i => !(uhci.qhs i).used).map fun i =>
    ({ uhci with qhs := Function.update uhci.qhs i { uhci.qhs i with used := true } }, i)

def blUhciFreeTdList (tds : Pool BlUhciTd) (td : Nat) : Option (Pool BlUhciTd) :=
  release tds blUhciNumTd td

/-! ## The end of a transfer -/

/-- What the controller does to a queue head: `element n` is its element pointer at the poll number
`n`, `controlStatus` the word of the descriptor which that pointer names after the last poll. -/
structure Hardware where
  element : Nat → QhLink
  controlStatus : BitVec 32

def blUhciTransferStatus (hw : Hardware) : BlStatus :=
  match (hw.controlStatus &&& 0xff0000).toNat with
  | 0x20000 => .usbBitstuffError
  | 0x40000 => .usbTimeoutError
  | 0x80000 => .usbNakReceived
  | 0x100000 => .usbBabbleDetected
  | 0x200000 => .usbDataBufferError
  | 0x400000 => .usbStalled
  | _ => .success

/-- `none`: a null descriptor is written to, or the chain has no end. -/
def blUhciTransferFinished (uhci : BlUhciController) (qh : Nat) :
    Option (BlUhciController × BlStatus) :=
  if (uhci.qhs qh).elementLinkPointer.terminate then
    if (uhci.qhs qh).elementLinkPointer.td ≠ none then some (uhci, .usbShouldCheckStatus)
    else
      (uhci.qhs qh).originalElement.bind fun td =>
        (blUhciFreeTdList uhci.tds td).map fun tds =>
          ({ tds, qhs := Function.update uhci.qhs qh { uhci.qhs qh with used := false } }, .success)
  else some (uhci, .usbActionNotFinished)

def setElement (uhci : BlUhciController) (qh : Nat) (element : QhLink) : BlUhciController :=
  { uhci with
    qhs := Function.update uhci.qhs qh { uhci.qhs qh with elementLinkPointer := element } }

/-- The loop, at the poll number `n` with `left` more. -/
def pollTransfer (hw : Hardware) (qh : Nat) :
    Nat → Nat → BlUhciController → Option (BlUhciController × BlStatus)
  | 0, _, uhci => some (uhci, blUhciTransferStatus hw)
  | left + 1, n, uhci =>
    (blUhciTransferFinished (setElement uhci qh (hw.element n)) qh).bind fun (uhci, status) =>
      if status = .success then some (uhci, status)
      else if status = .usbShouldCheckStatus then some (uhci, blUhciTransferStatus hw)
      else pollTransfer hw qh left (n + 1) uhci

/-- `while (--timeout)` polls once less than `timeout`. A null `qh` is looked into at once. -/
def blUhciCheckTransferTimeout (hw : Hardware) (uhci : BlUhciController) (qh : Option Nat)
    (timeout : Nat) : Option (BlUhciController × BlStatus) :=
  qh.bind fun qh => pollTransfer hw qh (timeout - 1) 0 uhci

/-! ## Transfers -/

/-- `qh->element_link_pointer = qh->original_element = td_head` -/
def startTransfer (uhci : BlUhciController) (qh : Nat) (head : Option Nat) : BlUhciController :=
  { uhci with
    qhs := Function.update uhci.qhs qh
      { uhci.qhs qh with elementLinkPointer := ⟨false, head⟩, originalElement := head } }

/-- More packets than there are descriptors. -/
def packetFuel : Nat := blUhciNumTd + 1

/-- The packet at `data + off`. -/
def initPacket (speed : BlUsbSpeed) (pid : BlUsbPid) (address endpoint : BitVec 8)
    (off size : Nat) (toggle : Bool) : Pool BlUhciTd → Option (Pool BlUhciTd × Nat) :=
  blUhciInitTd speed pid address endpoint toggle size (some ⟨.data, off⟩)

def controlTds (packetSize : Nat) (address : BitVec 8) (speed : BlUsbSpeed)
    (setup : BlUsbSetupData) (length : Int) (tds : Pool BlUhciTd) : Building BlUhciTd :=
  let dataPid := blUsbDirectionPid setup
  takeStages (blUhciInitTd speed .tokenSetup address 0 false 8 (some ⟨.setup, 0⟩))
    (blUhciInitTd speed (blUsbStatusPid dataPid) address 0 true 0 none)
    (initPacket speed dataPid address 0) packetSize packetFuel length.toNat tds

/-- Up to the start of the transfer. Without a queue head or a descriptor there is none. -/
def prepareControlTransfer (uhci : BlUhciController) (packetSize : Nat) (address : BitVec 8)
    (speed : BlUsbSpeed) (setup : BlUsbSetupData) (length : Int) :
    BlUhciController × Option Nat :=
  let packetSize := if packetSize = 0 then 8 else packetSize
  match blUhciAllocQh uhci with
  | none => (uhci, none)
  | some (uhci, qh) =>
    match controlTds packetSize address speed setup length uhci.tds with
    | (tds, none) => ({ uhci with tds }, none)
    | (tds, some (head, _)) => (startTransfer { uhci with tds } qh head, some qh)

def blUhciControlTransfer (hw : Hardware) (uhci : BlUhciController) (packetSize : Nat)
    (address : BitVec 8) (speed : BlUsbSpeed) (setup : BlUsbSetupData) (length : Int) :
    Option (BlUhciController × BlStatus) :=
  match prepareControlTransfer uhci packetSize address speed setup length with
  | (uhci, none) => some (uhci, .usbInternalError)
  | (uhci, some qh) => blUhciCheckTransferTimeout hw uhci (some qh) 100

structure BlUsbEndpoint where
  toggle : Bool
  endpointAddress : BitVec 8
  maxPacketSize : Nat

/-- The result is null without a queue head or a descriptor. -/
def blUhciBulkInterruptTransfers (uhci : BlUhciController) (address : BitVec 8)
    (endp : BlUsbEndpoint) (speed : BlUsbSpeed) (direction : Nat) (length : Int) :
    BlUhciController × BlUsbEndpoint × Option Nat :=
  match blUhciAllocQh uhci with
  | none => (uhci, endp, none)
  | some (uhci, qh) =>
    let dataPid := if direction ≠ 0 then .tokenOut else .tokenIn
    match takePackets (initPacket speed dataPid address endp.endpointAddress) endp.maxPacketSize
        packetFuel endp.toggle length.toNat 0 (uhci.tds, some (none, none)) with
    | ((tds, none), _) => ({ uhci with tds }, endp, none)
    | ((tds, some (head, _)), toggle) =>
      (startTransfer { uhci with tds } qh head, { endp with toggle }, some qh)

def blUhciBulkTransfer (hw : Hardware) (uhci : BlUhciController) (address : BitVec 8)
    (endp : BlUsbEndpoint) (speed : BlUsbSpeed) (direction : Nat) (length : Int) :
    Option (BlUhciController × BlUsbEndpoint) :=
  if length = 0 then some (uhci, endp)
  else
    let (uhci, endp, qh) :=
      blUhciBulkInterruptTransfers uhci address endp speed direction length
    (blUhciCheckTransferTimeout hw uhci qh 100).map fun (uhci, _) => (uhci, endp)

/-! ## Start -/

/-- `before` is what the blocks for the pools held: the loop over the queue heads stops before the
last one. -/
def blUhciInitDataStructures (before : BlUhciController) : BlUhciController where
  tds i := if i < blUhciNumTd then { before.tds i with used := false } else before.tds i
  qhs i :=
    if i < blUhciNumQh - 1 then
      { before.qhs i with elementLinkPointer := ⟨true, none⟩, used := false }
    else before.qhs i

end BootLoader.Uhci
