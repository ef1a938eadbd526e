import BootLoader.Ehci.Code
import BootLoader.Status
import BootLoader.Uhci.Code

/-!
# Control transfers to their end (`modules/usb/ehci/ehci.c`)

Of a queue head, its place in the asynchronous list is left out.
-/

namespace BootLoader.Ehci

open DescriptorPool Usb
open Uhci (BlUsbSpeed)

def blEhciNumQhs : Nat := 64

/-- A link to a descriptor: the terminate bit, and the descriptor of the pool that is at the
address, if one is. -/
structure QtdLink where
  terminate : Bool
  qtd : Option Nat
  deriving DecidableEq

/-- `BL_EHCI_QTD_LINK_T`. -/
def blEhciQtdLinkT : QtdLink := ⟨true, none⟩

def haltedBit : BitVec 32 := 0x40

/-- `token` and `nextQtd` are those of the overlay. -/
structure BlEhciQh where
  chars : BitVec 32
  currentQtd : Option Nat
  nextQtd : QtdLink
  token : BitVec 32
  used : Bool
  firstQtd : Option Nat
  lastQtd : Option Nat

structure BlEhciController where
  qtds : Pool BlEhciQtd
  qhs : Nat → BlEhciQh

def BlEhciController.setQh (ehci : BlEhciController) (q : Nat) (qh : BlEhciQh) : BlEhciController :=
  { ehci with qhs := Function.update ehci.qhs q qh }

/-- The overlay is cleared after its links were terminated. -/
def blEhciResetQh (qh : BlEhciQh) : BlEhciQh :=
  { qh with nextQtd := ⟨false, none⟩, token := (0 &&& ~~~activeBit) ||| haltedBit }

/-! ## Queue heads -/

def qhCharsAddress : BitVec 32 := 0x7f
def qhCharsEndpoint : BitVec 32 := 0xf00

def blEhciMakeQhAddress (address : BitVec 32) : BitVec 32 := address &&& qhCharsAddress
def blEhciMakeQhEndpoint (endpoint : BitVec 32) : BitVec 32 := endpoint <<< 8 &&& qhCharsEndpoint

def qhSpeed : BlUsbSpeed → Option (BitVec 32)
  | .low => some 0x1000
  | .full => some 0
  | .high => some 0x2000
  | _ => none

/-- `chars` as `bl_ehci_set_qh` leaves it for a control endpoint. -/
def blEhciSetQh (chars address endpoint : BitVec 32) (speed : BlUsbSpeed)
    (maxPacketLength : BitVec 32) : BitVec 32 :=
  let chars := chars ||| blEhciMakeQhAddress address ||| blEhciMakeQhEndpoint endpoint
  match qhSpeed speed with
  | none => chars
  | some bits =>
    let chars := chars ||| bits ||| 0x4000 ||| (maxPacketLength <<< 16 &&& 0x3ff0000)
    if speed ≠ .high then chars ||| 0x8000000 else chars

/-- The queue head of the address and endpoint, or the first free one. Old memory may look like
either. -/
def blEhciAllocQh (ehci : BlEhciController) (address endpoint : BitVec 32) : Option Nat :=
  (List.range' 1 (blEhciNumQhs - 1)).find? fun i =>
    let qhAddress := (ehci.qhs i).chars &&& qhCharsAddress
    let qhEndpoint := (ehci.qhs i).chars &&& qhCharsEndpoint
    (qhAddress = blEhciMakeQhAddress address ∧ qhEndpoint = blEhciMakeQhEndpoint endpoint) ∨
      (qhAddress = 0 ∧ qhEndpoint = 0)

/-- Which queue head `bl_ehci_init_qh` takes for a control endpoint. -/
def controlQh (ehci : BlEhciController) (address endpoint : BitVec 32) : Option Nat :=
  if address = 0 ∧ endpoint = 0 then some 0 else blEhciAllocQh ehci address endpoint

def blEhciInitQh (ehci : BlEhciController) (address endpoint : BitVec 32) (speed : BlUsbSpeed)
    (maxPacketLength : BitVec 32) : Option (BlEhciController × Nat) :=
  (controlQh ehci address endpoint).map fun q =>
    let qh := ehci.qhs q
    if qh.used then (ehci, q)
    else
      let chars := blEhciSetQh qh.chars address endpoint speed maxPacketLength
      (ehci.setQh q { qh with chars, used := true }, q)

/-! ## The end of a transfer -/

/-- What the controller leaves in a queue head before the poll of each number. -/
structure Hardware where
  token : Nat → BitVec 32
  nextQtd : Nat → QtdLink
  currentQtd : Nat → Option Nat

/-- `none`: a null descriptor is written to, or the chain has no end. -/
def blEhciFreeQtdList (ehci : BlEhciController) (q : Nat) : Option BlEhciController :=
  let ehci := ehci.setQh q (blEhciResetQh (ehci.qhs q))
  (ehci.qhs q).firstQtd.bind fun qtd =>
    (release ehci.qtds blEhciNumQtds qtd).map fun qtds => { ehci with qtds }

def blEhciTransferStatus (qh : BlEhciQh) : BlStatus :=
  match (qh.token &&& 0xff).toNat with
  | 0x10 => .usbBabbleDetected
  | 0x4 => .usbDataBufferError
  | 0x8 => .usbDataBufferError
  | 0x20 => .usbDataBufferError
  | _ => .usbNakReceived

def blEhciTransferFinished (qh : BlEhciQh) : BlStatus :=
  if qh.token &&& haltedBit ≠ 0 then .usbShouldCheckStatus
  else if qh.token &&& activeBit = 0 ∧ qh.nextQtd = blEhciQtdLinkT ∧
      qh.lastQtd = qh.currentQtd then .success
  else .usbActionNotFinished

def Hardware.advance (hw : Hardware) (n : Nat) (qh : BlEhciQh) : BlEhciQh :=
  { qh with token := hw.token n, nextQtd := hw.nextQtd n, currentQtd := hw.currentQtd n }

/-- The loop, at the poll number `n` with `left` more. -/
def pollTransfer (hw : Hardware) (q : Nat) :
    Nat → Nat → BlEhciController → Option (BlEhciController × BlStatus)
  | 0, _, ehci => some (ehci, blEhciTransferStatus (ehci.qhs q))
  | left + 1, n, ehci =>
    let ehci := ehci.setQh q (hw.advance n (ehci.qhs q))
    let status := blEhciTransferFinished (ehci.qhs q)
    if status = .success then
      (blEhciFreeQtdList ehci q).map fun ehci => (ehci, status)
    else if status = .usbShouldCheckStatus then some (ehci, blEhciTransferStatus (ehci.qhs q))
    else pollTransfer hw q left (n + 1) ehci

/-- `while (--timeout)` polls once less than `timeout`. -/
def blEhciCheckTransferTimeout (hw : Hardware) (ehci : BlEhciController) (q : Nat)
    (timeout : Nat) : Option (BlEhciController × BlStatus) :=
  pollTransfer hw q (timeout - 1) 0 ehci

/-- The chain goes into the queue head, and the overlay is neither halted nor active. -/
def startTransfer (ehci : BlEhciController) (q : Nat) (head last : Option Nat) : BlEhciController :=
  let qh := ehci.qhs q
  ehci.setQh q { qh with
    firstQtd := head, nextQtd := ⟨false, head⟩, lastQtd := last
    token := qh.token &&& ~~~(haltedBit ||| activeBit) }

def blEhciControlTransfer (hw : Hardware) (ehci : BlEhciController) (packetSize : Nat)
    (address : BitVec 32) (speed : BlUsbSpeed) (setup : BlUsbSetupData) (length : Int) :
    Option (BlEhciController × BlStatus) :=
  let packetSize := if packetSize = 0 then 8 else packetSize
  match blEhciInitQh ehci address 0 speed (BitVec.ofNat 32 packetSize) with
  | none => some (ehci, .usbInternalError)
  | some (ehci, q) =>
    match controlQtds packetSize setup length ehci.qtds with
    | (qtds, none) => some ({ ehci with qtds }, .usbInternalError)
    | (qtds, some (head, last)) =>
      blEhciCheckTransferTimeout hw (startTransfer { ehci with qtds } q head last) q 100

/-- `before` is what the blocks of the pools held. The flags of the descriptors and the
characteristics of the queue heads are not set. -/
def blEhciInitDataStructures (before : BlEhciController) : BlEhciController where
  qtds i := if i < blEhciNumQtds then { before.qtds i with next := none } else before.qtds i
  qhs i :=
    if i < blEhciNumQhs then blEhciResetQh { before.qhs i with used := false } else before.qhs i

end BootLoader.Ehci
