import BootLoader.Ahci.Code
import BootLoader.Heap.Code
import BootLoader.Pci.Code

/-!
# The start of a controller (`modules/storage/ahci/ahci.c`, `ahci.h`)

The registers stand in memory at an address of the controller's own. Every access to them is on
record, a read with what it showed.
-/

open ByteMemory Runs

namespace BootLoader.Ahci

open Heap (BlHeap blHeapAllocAlign)

/-! ## Registers -/

inductive Register where
  | cap | ghc | pi
  | clb (port : Nat)
  | fb (port : Nat)
  | cmd (port : Nat)
  | serr (port : Nat)
  deriving DecidableEq, Repr

inductive Access where
  | read (r : Register) (value : BitVec 32)
  | write (r : Register) (value : BitVec 32)
  deriving DecidableEq, Repr

/-- What a register shows behind these accesses. -/
abbrev Registers := List Access → Register → BitVec 32

def blAhciCapNp : BitVec 32 := 0x1f
def blAhciCapNcs (cap : BitVec 32) : BitVec 32 := (cap >>> 8) &&& 0x1f

def blAhciGhcHr : BitVec 32 := 1 <<< 0
def blAhciGhcAe : BitVec 32 := 1 <<< 31

def blAhciPortCmdSt : BitVec 32 := 1 <<< 0
def blAhciPortCmdFre : BitVec 32 := 1 <<< 4
def blAhciPortCmdFr : BitVec 32 := 1 <<< 14
def blAhciPortCmdCr : BitVec 32 := 1 <<< 15

/-- `struct bl_ahci_port`, less the address of its registers. -/
structure PortAreas where
  implemented : Bool
  commandList : Nat
  commandTable : Nat
  rfis : Nat
  deriving DecidableEq, Repr

/-- The array at `ports` is `port`, by its elements. -/
structure BlAhciController where
  ghc : BitVec 32
  numberOfPorts : Nat
  ports : Nat
  port : Nat → PortAreas
  commandSlots : Nat

structure Machine where
  heap : BlHeap
  log : List Access
  ahci : BlAhciController

def readReg (hw : Registers) (r : Register) (s : Machine) : Machine × BitVec 32 :=
  ({ s with log := s.log ++ [.read r (hw s.log r)] }, hw s.log r)

def writeReg (r : Register) (v : BitVec 32) (s : Machine) : Machine :=
  { s with log := s.log ++ [.write r v] }

/-- `|=` on a register. -/
def setBits (hw : Registers) (r : Register) (bits : BitVec 32) (s : Machine) : Machine :=
  let (s, v) := readReg hw r s
  writeReg r (v ||| bits) s

/-- `&= ~` on a register. -/
def clearBits (hw : Registers) (r : Register) (bits : BitVec 32) (s : Machine) : Machine :=
  let (s, v) := readReg hw r s
  writeReg r (v &&& ~~~bits) s

def Machine.setPort (s : Machine) (i : Nat) (p : PortAreas) : Machine :=
  { s with ahci := { s.ahci with port := Function.update s.ahci.port i p } }

def Machine.alloc (s : Machine) (sz align : Nat) : Option (Machine × Nat) :=
  (blHeapAllocAlign s.heap sz align).map fun (heap, p) => ({ s with heap }, p)

/-! ## Reset -/

def resetPolls : Nat := 999

/-- At most `left` polls, until the reset bit is clear. -/
def awaitReset (hw : Registers) : Nat → Machine → Machine
  | 0, s => s
  | left + 1, s =>
    let (s, v) := readReg hw .ghc s
    if v &&& blAhciGhcHr = 0 then s else awaitReset hw left s

def resetController (hw : Registers) (s : Machine) : Machine × BlStatus :=
  let s := setBits hw .ghc blAhciGhcAe s
  let s := setBits hw .ghc blAhciGhcHr s
  let s := awaitReset hw resetPolls s
  let (s, v) := readReg hw .ghc s
  if v &&& blAhciGhcHr ≠ 0 then (s, .diskControllerInternalError)
  else (setBits hw .ghc blAhciGhcAe s, .success)

/-! ## Ports -/

def blAhciPortCmdRunning : BitVec 32 :=
  blAhciPortCmdSt ||| blAhciPortCmdFre ||| blAhciPortCmdFr ||| blAhciPortCmdCr

def stopPort (hw : Registers) (i : Nat) (s : Machine) : Machine × BlStatus :=
  let (s, v) := readReg hw (.cmd i) s
  if v &&& blAhciPortCmdRunning = 0 then (s, .success)
  else
    let s := clearBits hw (.cmd i) blAhciPortCmdSt s
    let (s, v) := readReg hw (.cmd i) s
    if v &&& blAhciPortCmdCr ≠ 0 then (s, .diskControllerInternalError)
    else
      let (s, v) := readReg hw (.cmd i) s
      -- A FIS receiver that is still running is not waited for if it is not enabled.
      if v &&& blAhciPortCmdFre = 0 then (s, .success)
      else
        let s := clearBits hw (.cmd i) blAhciPortCmdFre s
        let (s, v) := readReg hw (.cmd i) s
        if v &&& blAhciPortCmdFr ≠ 0 then (s, .diskControllerInternalError) else (s, .success)

/-- A round of the first loop over the ports. -/
def checkPort (hw : Registers) (i : Nat) (s : Machine) : Option (Machine × BlStatus) :=
  let (s, pi) := readReg hw .pi s
  if pi &&& 1 <<< i = 0 then
    some (s.setPort i { s.ahci.port i with implemented := false }, .success)
  else
    match stopPort hw i s with
    | (s, .success) => some (s.setPort i { s.ahci.port i with implemented := true }, .success)
    | (s, status) => some (s, status)

def sizeofAhciPort : Nat := 20
def sizeofAhciController : Nat := 20
def sizeofCommandHeader : Nat := 32
def sizeofCommandTable : Nat := 256
def sizeofReceivedFis : Nat := 256

/-- The loop over the slots, from number `j` on with `left` still to set: a header's `ctba`. -/
def setHeaders (list table : Nat) : Nat → Nat → Mem → Mem
  | 0, _, m => m
  | left + 1, j, m =>
    setHeaders list table left (j + 1)
      (write32 m ((list + sizeofCommandHeader * j + 8) % 2 ^ 32)
        ((table + sizeofCommandTable * j) % 2 ^ 32))

def setCommandList (i : Nat) (s : Machine) : Option (Machine × BlStatus) :=
  (s.alloc (s.ahci.commandSlots * sizeofCommandHeader) 0x400).map fun (s, list) =>
    let s := s.setPort i { s.ahci.port i with commandList := list }
    if list = 0 then (s, .memoryAllocationFailed)
    else (writeReg (.clb i) (BitVec.ofNat 32 list) s, .success)

def setCommandTable (i : Nat) (s : Machine) : Option (Machine × BlStatus) :=
  (s.alloc (s.ahci.commandSlots * sizeofCommandTable) 0x400).map fun (s, table) =>
    let s := s.setPort i { s.ahci.port i with commandTable := table }
    if table = 0 then (s, .memoryAllocationFailed)
    else
      let m := setHeaders (s.ahci.port i).commandList table s.ahci.commandSlots 0 s.heap.mem
      ({ s with heap := { s.heap with mem := m } }, .success)

def setReceivedFis (hw : Registers) (i : Nat) (s : Machine) : Option (Machine × BlStatus) :=
  (s.alloc sizeofReceivedFis 0x1000).map fun (s, rfis) =>
    let s := s.setPort i { s.ahci.port i with rfis }
    if rfis = 0 then (s, .memoryAllocationFailed)
    else
      let s := writeReg (.fb i) (BitVec.ofNat 32 rfis) s
      (setBits hw (.cmd i) blAhciPortCmdFre s, .success)

/-- A round of the second loop over the ports. -/
def setUpPort (hw : Registers) (i : Nat) (s : Machine) : Option (Machine × BlStatus) :=
  if (s.ahci.port i).implemented = false then some (s, .success)
  else
    follow (· = .success) (setCommandList i s) fun s =>
      follow (· = .success) (setCommandTable i s) (setReceivedFis hw i)

/-- A round of the third loop. -/
def clearErrors (hw : Registers) (i : Nat) (s : Machine) : Option (Machine × BlStatus) :=
  if (s.ahci.port i).implemented = false then some (s, .success)
  else
    let (s, v) := readReg hw (.serr i) s
    some (writeReg (.serr i) v s, .success)

/-! ## The controller -/

def allocPorts (hw : Registers) (s : Machine) : Option (Machine × BlStatus) :=
  let (s, cap) := readReg hw .cap s
  let numberOfPorts := 1 + (cap &&& blAhciCapNp).toNat
  let s := { s with ahci := { s.ahci with numberOfPorts } }
  (s.alloc (numberOfPorts * sizeofAhciPort) 1).map fun (s, ports) =>
    ({ s with ahci := { s.ahci with ports } }, if ports = 0 then .memoryAllocationFailed else .success)

def readCommandSlots (hw : Registers) (s : Machine) : Machine :=
  let (s, cap) := readReg hw .cap s
  { s with ahci := { s.ahci with commandSlots := 1 + (blAhciCapNcs cap).toNat } }

def overPorts (body : Nat → Machine → Option (Machine × BlStatus)) (s : Machine) :
    Option (Machine × BlStatus) :=
  rounds (· = .success) .success body s.ahci.numberOfPorts 0 s

/-- What `bl_ahci_detect_devices` does is `detect`. -/
def blAhciControllerInit (hw : Registers) (detect : Machine → Option (Machine × BlStatus))
    (s : Machine) : Option (Machine × BlStatus) :=
  follow (· = .success) (some (resetController hw s)) fun s =>
    follow (· = .success) (allocPorts hw s) fun s =>
      follow (· = .success) (overPorts (checkPort hw) s) fun s =>
        follow (· = .success) (overPorts (setUpPort hw) (readCommandSlots hw s)) fun s =>
          follow (· = .success) (overPorts (clearErrors hw) s) detect

def blPciBaseClassStorage : Byte := 0x01
def blPciSubclassStorageSata : Byte := 0x06
def blPciProgIfStorageSataAhci : Byte := 0x01

def blAhciPciBar5Rte : BitVec 32 := 1 <<< 0
def blAhciPciBar5Tp : BitVec 32 := 1 <<< 1
def blAhciPciBar5Pf : BitVec 32 := 1 <<< 2
def blAhciPciBar5Ba : BitVec 32 := 0xfffff000

/-- The registers are those at the address that is found. -/
def blAhciPciInitialize (hw : BitVec 32 → Registers)
    (detect : Machine → Option (Machine × BlStatus)) (i : Pci.BlPciIndex)
    (m : Pci.Machine Machine) : Option (Pci.Machine Machine × BlStatus) :=
  let (status, m) := Pci.blPciCheckDeviceClass m i (some blPciBaseClassStorage)
    (some blPciSubclassStorageSata) (some blPciProgIfStorageSataAhci)
  if status ≠ .success then some (m, status)
  else
    let (base, m) := Pci.readLong m i Pci.blPciConfigRegBar5
    if base &&& (blAhciPciBar5Rte ||| blAhciPciBar5Tp ||| blAhciPciBar5Pf) ≠ 0 then
      some (m, .diskControllerInternalError)
    else
      (m.rest.alloc sizeofAhciController 1).bind fun (s, ahci) =>
        if ahci = 0 then some ({ m with rest := s }, .memoryAllocationFailed)
        else
          let ghc := base &&& blAhciPciBar5Ba
          let s := { s with ahci := { s.ahci with ghc } }
          (blAhciControllerInit (hw ghc) detect s).map fun (s, status) =>
            ({ m with rest := s }, status)

end BootLoader.Ahci
