import BootLoader.Usb.ControlTransfer

/-!
# Control transfers of the EHCI driver (`modules/usb/ehci/ehci.c`)

Up to the start of the transfer. The queue head is given.
-/

namespace BootLoader.Ehci

open DescriptorPool Usb

def blEhciNumQtds : Nat := 256
def maxBufferSize : Nat := 0x5000

structure BlEhciQtd where
  token : BitVec 32
  bufferPointer : Option Ptr
  deriving DecidableEq

def activeBit : BitVec 32 := 0x80
def cerr3 : BitVec 32 := 0xc00

def tokenPid : BlUsbPid → BitVec 32
  | .tokenSetup => 0x200
  | .tokenOut => 0
  | .tokenIn => 0x100

def qtdToken (length : Nat) (toggle : Bool) (pid : BlUsbPid) : BitVec 32 :=
  activeBit ||| tokenPid pid ||| cerr3 ||| BitVec.ofNat 32 length <<< 16 |||
    (BitVec.ofBool toggle).setWidth 32 <<< 31

/-- Of the buffer pages the first one. -/
def initializedQtd (buf : Option Ptr) (length : Nat) (toggle : Bool) (pid : BlUsbPid) :
    BlEhciQtd where
  token := qtdToken (if buf = none then 0 else length) toggle pid
  bufferPointer := if length = 0 then none else buf

def blEhciInitQtd (buf : Option Ptr) (length : Nat) (toggle : Bool) (pid : BlUsbPid)
    (qtds : Pool BlEhciQtd) : Option (Pool BlEhciQtd × Nat) :=
  if maxBufferSize < length then none
  else take qtds blEhciNumQtds (initializedQtd buf length toggle pid)

/-- More packets than there are descriptors. -/
def packetFuel : Nat := blEhciNumQtds + 1

def controlQtds (packetSize : Nat) (setup : BlUsbSetupData) (length : Int)
    (qtds : Pool BlEhciQtd) : Building BlEhciQtd :=
  let pid := blUsbDirectionPid setup
  let initSetup := blEhciInitQtd (some ⟨.setup, 0⟩) 8 false .tokenSetup
  if length = 0 then
    takeNext (blEhciInitQtd none 0 true .tokenIn) (takeNext initSetup (qtds, some (none, none)))
  else
    takeStages initSetup (blEhciInitQtd none 0 true pid)
      (fun off size toggle => blEhciInitQtd (some ⟨.data, off⟩) size toggle pid)
      packetSize packetFuel length.toNat qtds

/-- The pool, and what `qh->overlay.next_qtd` is set to. -/
def prepareControlTransfer (packetSize : Nat) (setup : BlUsbSetupData) (length : Int)
    (qtds : Pool BlEhciQtd) : Pool BlEhciQtd × Option (Option Nat) :=
  let packetSize := if packetSize = 0 then 8 else packetSize
  match controlQtds packetSize setup length qtds with
  | (qtds, none) => (qtds, none)
  | (qtds, some (head, _)) => (qtds, some head)

end BootLoader.Ehci
