import BootLoader.Lib.Runs
import BootLoader.Status
import BootLoader.Video.Hex

/-!
# The PCI bus (`core/include/pci/pci.h`, `core/bus/pci/pci.c`)

The configuration space stands behind two ports: one takes an address, at the other the register
there is read. A hook may do anything to the machine.
-/

open ByteMemory Runs

namespace BootLoader.Pci

open Video

def blPciNbuses : Nat := 256
def blPciNdevices : Nat := 32
def blPciNfunctions : Nat := 8

def blPciConfigRegVendorId : BitVec 8 := 0x00
def blPciConfigRegDeviceId : BitVec 8 := 0x02
def blPciConfigRegProgIf : BitVec 8 := 0x09
def blPciConfigRegSubclass : BitVec 8 := 0x0a
def blPciConfigRegBaseclass : BitVec 8 := 0x0b
def blPciConfigRegHeaderType : BitVec 8 := 0x0e
def blPciConfigRegBar5 : BitVec 8 := 0x24

/-- The content of the port at 0xcf8, the bytes of the configuration space by bus, device, function
and register, what has been printed, and everything else. -/
structure Machine (σ : Type*) where
  configAddress : BitVec 32
  config : BitVec 8 → BitVec 5 → BitVec 3 → BitVec 8 → Byte
  printed : List Byte
  rest : σ

structure BlPciIndex where
  bus : Nat
  dev : Nat
  func : Nat
  deriving DecidableEq, Repr

variable {σ : Type*}

/-! ## The ports -/

/-- `bl_outl(v, BL_PCI_CONFIG_ADDRESS)`. -/
def Machine.outConfigAddress (m : Machine σ) (v : BitVec 32) : Machine σ :=
  { m with configAddress := v }

/-- `bl_inb(BL_PCI_CONFIG_DATA + port)`. The low two bits of the address do not count. -/
def Machine.inConfigData (m : Machine σ) (port : BitVec 2) : Byte :=
  if m.configAddress.getLsbD 31 then
    m.config (m.configAddress.extractLsb' 16 8) (m.configAddress.extractLsb' 11 5)
      (m.configAddress.extractLsb' 8 3) (m.configAddress.extractLsb' 2 6 ++ port)
  else 0xff

def blPciMakeConfigAddress (bus dev func reg : BitVec 8) : BitVec 32 :=
  1 <<< 31 ||| bus.setWidth 32 <<< 16 ||| dev.setWidth 32 <<< 11 ||| func.setWidth 32 <<< 8 |||
    reg.setWidth 32

def blPciReadConfigByte (m : Machine σ) (bus dev func reg : BitVec 8) : Byte × Machine σ :=
  let m := m.outConfigAddress (blPciMakeConfigAddress bus dev func reg)
  (m.inConfigData (reg &&& 3 |>.setWidth 2), m)

def blPciReadConfigWord (m : Machine σ) (bus dev func reg : BitVec 8) : BitVec 16 × Machine σ :=
  let m := m.outConfigAddress (blPciMakeConfigAddress bus dev func reg)
  let port : BitVec 2 := reg &&& 2 |>.setWidth 2
  (m.inConfigData (port + 1) ++ m.inConfigData port, m)

def blPciReadConfigLong (m : Machine σ) (bus dev func reg : BitVec 8) : BitVec 32 × Machine σ :=
  let m := m.outConfigAddress (blPciMakeConfigAddress bus dev func reg)
  (m.inConfigData 3 ++ m.inConfigData 2 ++ m.inConfigData 1 ++ m.inConfigData 0, m)

/-- The arguments are `u8`. -/
def readByte (m : Machine σ) (i : BlPciIndex) (reg : BitVec 8) : Byte × Machine σ :=
  blPciReadConfigByte m (BitVec.ofNat 8 i.bus) (BitVec.ofNat 8 i.dev) (BitVec.ofNat 8 i.func) reg

def readWord (m : Machine σ) (i : BlPciIndex) (reg : BitVec 8) : BitVec 16 × Machine σ :=
  blPciReadConfigWord m (BitVec.ofNat 8 i.bus) (BitVec.ofNat 8 i.dev) (BitVec.ofNat 8 i.func) reg

def readLong (m : Machine σ) (i : BlPciIndex) (reg : BitVec 8) : BitVec 32 × Machine σ :=
  blPciReadConfigLong m (BitVec.ofNat 8 i.bus) (BitVec.ofNat 8 i.dev) (BitVec.ofNat 8 i.func) reg

/-- Whether the register holds what is asked for; `none` is -1, for anything. -/
def checkRegister (m : Machine σ) (i : BlPciIndex) (reg : BitVec 8) :
    Option Byte → BlStatus × Machine σ
  | none => (.success, m)
  | some wanted =>
    let (value, m) := readByte m i reg
    (if wanted ≠ value then .failure else .success, m)

def blPciCheckDeviceClass (m : Machine σ) (i : BlPciIndex) (class' subclass interface : Option Byte) :
    BlStatus × Machine σ :=
  let (status, m) := checkRegister m i blPciConfigRegBaseclass class'
  if status ≠ .success then (status, m)
  else
    let (status, m) := checkRegister m i blPciConfigRegSubclass subclass
    if status ≠ .success then (status, m)
    else checkRegister m i blPciConfigRegProgIf interface

/-! ## Enumeration -/

def Machine.print (m : Machine σ) (text : List Byte) : Machine σ :=
  { m with printed := m.printed ++ text }

def blPciDumpDevice (i : BlPciIndex) (m : Machine σ) : Machine σ :=
  let (vendor, m) := readWord m i blPciConfigRegVendorId
  let (deviceId, m) := readWord m i blPciConfigRegDeviceId
  let (class', m) := readByte m i blPciConfigRegBaseclass
  let (subclass, m) := readByte m i blPciConfigRegSubclass
  let (progIf, m) := readByte m i blPciConfigRegProgIf
  m.print (textOf "Vendor: " ++ blPrintHex (vendor.setWidth 32) ++
    textOf "  Device id: " ++ blPrintHex (deviceId.setWidth 32) ++
    textOf "  Class: " ++ blPrintHex (class'.setWidth 32) ++
    textOf "  Subclass: " ++ blPrintHex (subclass.setWidth 32) ++
    textOf "  PROG-IF: " ++ blPrintHex (progIf.setWidth 32) ++ textOf "\n")

abbrev Hook (σ : Type*) := BlPciIndex → Machine σ → Machine σ

/-- One round of the innermost loop: the calls of the hook, and whether the loop goes on. -/
def discoverFunction (hook : Option (Hook σ)) (dump : Bool) (bus dev func : Nat) (m : Machine σ) :
    List BlPciIndex × Machine σ × Bool :=
  let i : BlPciIndex := ⟨bus, dev, func⟩
  let (vendor, m) := readWord m i blPciConfigRegVendorId
  if vendor = 0xffff then ([], m, true)
  else
    let m := if dump then blPciDumpDevice i m else m
    let (calls, m) := match hook with
      | none => ([], m)
      | some hook => ([i], hook i m)
    if i.func = 0 then
      let (header, m) := readByte m i blPciConfigRegHeaderType
      (calls, m, header &&& 0x80 ≠ 0)
    else (calls, m, true)

/-- The innermost loop. -/
def discoverDevice (hook : Option (Hook σ)) (dump : Bool) (bus dev : Nat) (m : Machine σ) :
    List BlPciIndex × Machine σ × Bool :=
  let (calls, m, _) := stateRounds (discoverFunction hook dump bus dev) blPciNfunctions 0 m
  (calls, m, true)

def discoverBus (hook : Option (Hook σ)) (dump : Bool) (bus : Nat) (m : Machine σ) :
    List BlPciIndex × Machine σ × Bool :=
  let (calls, m, _) := stateRounds (discoverDevice hook dump bus) blPciNdevices 0 m
  (calls, m, true)

/-- What the hook is called with, and the machine that is left. -/
def blPciDiscoverDevices (hook : Option (Hook σ)) (dump : Bool) (m : Machine σ) :
    List BlPciIndex × Machine σ :=
  let (calls, m, _) := stateRounds (discoverBus hook dump) blPciNbuses 0 m
  (calls, m)

def blPciIterateDevices (hook : Option (Hook σ)) (m : Machine σ) : List BlPciIndex × Machine σ :=
  blPciDiscoverDevices hook false m

def blPciDumpDevices (m : Machine σ) : Machine σ := (blPciDiscoverDevices none true m).2

end BootLoader.Pci
