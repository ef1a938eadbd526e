import Mathlib.Data.BitVec
import Mathlib.Logic.Function.Basic

/-!
# The endpoint descriptors of the OHCI driver (`modules/usb/ohci/ohci.c`)

Two pools, one for each kind of transfer. A descriptor whose address field is 0 is taken to be free.
-/

namespace BootLoader.Ohci.Endpoints

def blOhciNumControlEds : Nat := 128
def blOhciNumBulkEds : Nat := 128

def blOhciEdFlagsAddress : BitVec 32 := 0x7f
def blOhciEdFlagsEndpoint : BitVec 32 := 0xf <<< 7
def blOhciEdFlagsSpeed : BitVec 32 := 1 <<< 13
def blOhciEdFlagsSkip : BitVec 32 := 1 <<< 14
def blOhciEdFlagsMps : BitVec 32 := 0x7ff <<< 16

def blOhciEdFlagsAddressEndpoint : BitVec 32 := blOhciEdFlagsAddress ||| blOhciEdFlagsEndpoint

/-- `BL_OHCI_ED_ADDRESS_ENDPOINT`. -/
def blOhciEdAddressEndpoint (address endpoint : BitVec 32) : BitVec 32 :=
  address &&& blOhciEdFlagsAddress ||| endpoint <<< 7 &&& blOhciEdFlagsEndpoint

structure BlOhciEd where
  flags : BitVec 32
  tdTailPointer : BitVec 32
  tdHeadPointer : BitVec 32
  nextEd : Nat

def BlOhciEd.addressEndpoint (ed : BlOhciEd) : BitVec 32 :=
  ed.flags &&& blOhciEdFlagsAddressEndpoint

/-- A pool at an address that `bl_heap_alloc_align` aligned. -/
structure EdPool where
  base : Nat
  aligned : 16 ∣ base
  eds : Nat → BlOhciEd

/-- `&eds[i]`. -/
def EdPool.address (pool : EdPool) (i : Nat) : Nat := pool.base + 16 * i

/-- `& ~0xf`, as in what the controller makes of `next_ed`. -/
def edPointer (address : Nat) : Nat := address / 16 * 16

def EdPool.setEd (pool : EdPool) (i : Nat) (ed : BlOhciEd) : EdPool :=
  { pool with eds := Function.update pool.eds i ed }

/-- The loop of `bl_ohci_alloc_ed` from `i` on, over `left` descriptors. -/
def allocEdFrom (addressEndpoint : BitVec 32) :
    Nat → Nat → EdPool → EdPool × Option Nat
  | 0, _, eds => (eds, none)
  | left + 1, i, eds =>
    if (eds.eds i).addressEndpoint = addressEndpoint then (eds, some i)
    else if (eds.eds i).addressEndpoint = 0 then
      if 0 < i then
        (eds.setEd (i - 1) { eds.eds (i - 1) with nextEd := edPointer (eds.address i) }, some i)
      else (eds, some i)
    else allocEdFrom addressEndpoint left (i + 1) eds

def blOhciAllocEd (eds : EdPool) (count : Nat) (addressEndpoint : BitVec 32) :
    EdPool × Option Nat :=
  allocEdFrom addressEndpoint count 0 eds

structure BlOhciController where
  controlEds : EdPool
  bulkEds : EdPool

inductive BlUsbTransfer where
  | control
  | bulk
  | interrupt
  | isochronous
  deriving DecidableEq, Repr

/-- The flags that `bl_ohci_init_ed` sets; the address and endpoint are in their place already. -/
def initFlags (flags addressEndpoint : BitVec 32) (lowSpeed : Bool) (maxPacketSize : BitVec 32) :
    BitVec 32 :=
  let flags := flags &&& ~~~blOhciEdFlagsAddressEndpoint ||| addressEndpoint
  let flags := flags &&& ~~~blOhciEdFlagsSpeed ||| if lowSpeed then blOhciEdFlagsSpeed else 0
  flags &&& ~~~blOhciEdFlagsMps ||| maxPacketSize <<< 16 &&& blOhciEdFlagsMps

/-- A request for an endpoint descriptor. -/
structure Request where
  transfer : BlUsbTransfer
  address : BitVec 32
  endpoint : BitVec 32
  lowSpeed : Bool
  maxPacketSize : BitVec 32

def Request.addressEndpoint (r : Request) : BitVec 32 :=
  blOhciEdAddressEndpoint r.address r.endpoint

/-- What `bl_ohci_init_ed` does in the pool of the transfer. -/
def initEdIn (alloc : EdPool × Option Nat) (r : Request) : EdPool × Option Nat :=
  match alloc with
  | (eds, none) => (eds, none)
  | (eds, some i) =>
    (eds.setEd i { eds.eds i with
      flags := initFlags (eds.eds i).flags r.addressEndpoint r.lowSpeed r.maxPacketSize }, some i)

def initControlEd (eds : EdPool) (r : Request) : EdPool × Option Nat :=
  initEdIn (if r.addressEndpoint = 0 then (eds, some 0)
    else blOhciAllocEd eds blOhciNumControlEds r.addressEndpoint) r

def initBulkEd (eds : EdPool) (r : Request) : EdPool × Option Nat :=
  initEdIn (blOhciAllocEd eds blOhciNumBulkEds r.addressEndpoint) r

def blOhciInitEd (ohci : BlOhciController) (r : Request) : BlOhciController × Option Nat :=
  match r.transfer with
  | .control =>
    let (controlEds, ed) := initControlEd ohci.controlEds r
    ({ ohci with controlEds }, ed)
  | .bulk =>
    let (bulkEds, ed) := initBulkEd ohci.bulkEds r
    ({ ohci with bulkEds }, ed)
  | _ => (ohci, none)

/-- `for (i = 0; i < count; i++)` over descriptors. -/
def EdPool.forEach (pool : EdPool) (count : Nat) (set : BlOhciEd → BlOhciEd) : EdPool :=
  { pool with eds := fun i => if i < count then set (pool.eds i) else pool.eds i }

def clearPointers (ed : BlOhciEd) : BlOhciEd :=
  { ed with tdHeadPointer := 0, tdTailPointer := 0, nextEd := 0 }

/-- `bl_ohci_init_data_structures` once all is allocated: the second loop sets the flags of the bulk
descriptors and clears the pointers of the control descriptors once more. -/
def blOhciInitDataStructures (controlEds bulkEds : EdPool) : BlOhciController :=
  let controlEds := controlEds.forEach blOhciNumControlEds fun ed =>
    clearPointers { ed with flags := blOhciEdFlagsSkip }
  { controlEds := controlEds.forEach blOhciNumBulkEds clearPointers
    bulkEds := bulkEds.forEach blOhciNumBulkEds fun ed => { ed with flags := blOhciEdFlagsSkip } }

end BootLoader.Ohci.Endpoints
