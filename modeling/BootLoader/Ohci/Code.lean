import BootLoader.Usb.ControlTransfer

/-!
# Control transfers of the OHCI driver (`modules/usb/ohci/ohci.c`)

Up to the start of the transfer. The endpoint descriptor is given.
-/

namespace BootLoader.Ohci

open DescriptorPool Usb

def blOhciNumGeneralTds : Nat := 512

structure BlOhciGeneralTd where
  flags : BitVec 32
  currentBufferPointer : Option Ptr
  bufferEnd : Option Ptr
  deriving DecidableEq

/-- The descriptors from `tdHeadPointer` up to `tdTailPointer` belong to the controller. -/
structure BlOhciEd where
  tdHeadPointer : Option Nat
  tdTailPointer : Option Nat

def directionPid : BlUsbPid → BitVec 32
  | .tokenSetup => 0
  | .tokenOut => 0x80000
  | .tokenIn => 0x100000

def notAccessed : BitVec 32 := 0xf0000000
def errorCount3 : BitVec 32 := 0xc000000
def toggleInTd : BitVec 32 := 0x2000000

def tdFlags (toggle : Bool) (pid : BlUsbPid) : BitVec 32 :=
  directionPid pid ||| notAccessed |||
    (toggleInTd ||| (BitVec.ofBool toggle).setWidth 32 <<< 24) ||| errorCount3

def initializedGeneralTd (buf : Option Ptr) (length : Nat) (toggle : Bool) (pid : BlUsbPid) :
    BlOhciGeneralTd where
  flags := tdFlags toggle pid
  currentBufferPointer := if 0 < length then buf else none
  bufferEnd := if 0 < length then buf.map fun p => { p with off := p.off + (length - 1) } else none

def blOhciInitGeneralTd (buf : Option Ptr) (length : Nat) (toggle : Bool) (pid : BlUsbPid)
    (tds : Pool BlOhciGeneralTd) : Option (Pool BlOhciGeneralTd × Nat) :=
  take tds blOhciNumGeneralTds (initializedGeneralTd buf length toggle pid)

/-- More packets than there are descriptors. -/
def packetFuel : Nat := blOhciNumGeneralTds + 1

def controlTds (packetSize : Nat) (setup : BlUsbSetupData) (length : Int)
    (tds : Pool BlOhciGeneralTd) : Building BlOhciGeneralTd :=
  let dataPid := blUsbDirectionPid setup
  let statusPid := blUsbStatusPid dataPid
  let initSetup := blOhciInitGeneralTd (some ⟨.setup, 0⟩) 8 false .tokenSetup
  let initStatus := blOhciInitGeneralTd none 0 true statusPid
  if length = 0 then
    takeNext initStatus (takeNext initStatus (takeNext initSetup (tds, some (none, none))))
  else
    takeStages initSetup initStatus
      (fun off size toggle => blOhciInitGeneralTd (some ⟨.data, off⟩) size toggle dataPid)
      packetSize packetFuel length.toNat tds

/-- `ed->td_tail_pointer` is the status descriptor. -/
def prepareControlTransfer (packetSize : Nat) (setup : BlUsbSetupData) (length : Int)
    (tds : Pool BlOhciGeneralTd) : Pool BlOhciGeneralTd × Option BlOhciEd :=
  let packetSize := if packetSize = 0 then 8 else packetSize
  match controlTds packetSize setup length tds with
  | (tds, none) => (tds, none)
  | (tds, some (head, last)) => (tds, some ⟨head, last⟩)

end BootLoader.Ohci
