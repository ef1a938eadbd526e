import BootLoader.Storage.Code

/-!
# Serial ATA (`modules/storage/ahci/ahci.c`, `ahci.h`)

A command has a header and a table in the slot of its number: where in memory the data goes, and the
registers that are sent to the drive.
-/

open ByteMemory

namespace BootLoader.Ahci

open Storage (blStorageSectorSize)

/-! ## Tables -/

/-- An entry of the scatter list. `dbc` is the number of bytes less one. -/
structure BlAhciPrdt where
  dba : BitVec 32
  dbau : BitVec 32
  reserved0 : BitVec 32
  dbc : BitVec 22
  reserved1 : BitVec 9
  i : BitVec 1
  deriving DecidableEq, Repr

structure BlAhciFisHostToDevice where
  fisType : Byte
  c : BitVec 1
  command : Byte
  lba0 : Byte
  lba1 : Byte
  lba2 : Byte
  device : Byte
  lba3 : Byte
  lba4 : Byte
  lba5 : Byte
  count0 : Byte
  count1 : Byte
  deriving DecidableEq, Repr

structure BlAhciCommandTable where
  cfis : BlAhciFisHostToDevice
  prdt : Nat → BlAhciPrdt

structure BlAhciCommandHeader where
  cfl : BitVec 5
  w : BitVec 1
  prdtl : BitVec 16
  deriving DecidableEq, Repr

/-- The registers of a port that a command uses, and its headers and tables by slots. -/
structure BlAhciPort where
  sact : BitVec 32
  ci : BitVec 32
  commandList : Nat → BlAhciCommandHeader
  commandTable : Nat → BlAhciCommandTable

/-- What the controller shows once the command is issued: `ci` in each poll, and `is`. -/
structure Hba where
  ci : Nat → BitVec 32
  is : BitVec 32

/-! ## Commands -/

def blAhciPrdtMaxDbc : Nat := 0x400000
def blAhciPrdtEntries : BitVec 64 := 8

def blAhciFisTypeRegisterHostToDevice : Byte := 0x27
def blSataCommandReadSectorsDmaExt : Byte := 0x25

def blAhciPortIsTfes : BitVec 32 := 1 <<< 30

def prdtSectors : BitVec 64 := BitVec.ofNat 64 (blAhciPrdtMaxDbc / blStorageSectorSize)

/-- The loop over the slots, from number `i` on with `left` still to look at. -/
def findSlotFrom : Nat → Nat → BitVec 32 → Option Nat
  | 0, _, _ => none
  | left + 1, i, slots =>
    if slots &&& 0x1 = 0 then some i else findSlotFrom left (i + 1) (slots >>> 1)

def blAhciFindFreeCommandSlot (port : BlAhciPort) (commandSlots : Nat) : Option Nat :=
  findSlotFrom commandSlots 0 (port.sact ||| port.ci)

def zeroFis : BlAhciFisHostToDevice := ⟨0, 0, 0, 0, 0, 0, 0, 0, 0, 0, 0, 0⟩

/-- `bl_memset` of a table leaves its last byte, the highest of the last entry's. -/
def clearTable (table : BlAhciCommandTable) : BlAhciCommandTable where
  cfis := zeroFis
  prdt := fun i =>
    if i = 7 then ⟨0, 0, 0, 0, (table.prdt 7).reserved1 &&& 0x1fc, (table.prdt 7).i⟩
    else ⟨0, 0, 0, 0, 0, 0⟩

/-- `BL_MIN`, of a signed and an unsigned number: it compares as unsigned. -/
def blMin (a b : BitVec 64) : BitVec 64 := if b < a then b else a

/-- The loop over the entries, from number `i` on with `left` still to set. -/
def setPrdt (buf : BitVec 32) : Nat → Nat → BitVec 64 → BitVec 64 → (Nat → BlAhciPrdt) →
    (Nat → BlAhciPrdt)
  | 0, _, _, _, prdt => prdt
  | left + 1, i, count, off, prdt =>
    let readSize :=
      (blMin count prdtSectors * BitVec.ofNat 64 blStorageSectorSize).setWidth 32
    let entry := { prdt i with
      dba := (buf.setWidth 64 + off).setWidth 32, dbc := (readSize - 1).setWidth 22, i := 1 }
    setPrdt buf left (i + 1) (count - prdtSectors) (off + readSize.signExtend 64)
      (Function.update prdt i entry)

def setFis (fis : BlAhciFisHostToDevice) (command : Byte) (lba sectors : BitVec 64) :
    BlAhciFisHostToDevice :=
  let fis := { fis with fisType := blAhciFisTypeRegisterHostToDevice, c := 1, command }
  if command = blSataCommandReadSectorsDmaExt then
    { fis with
      lba0 := (lba &&& 0xff).setWidth 8
      lba1 := ((lba >>> 8) &&& 0xff).setWidth 8
      lba2 := ((lba >>> 16) &&& 0xff).setWidth 8
      lba3 := ((lba >>> 24) &&& 0xff).setWidth 8
      lba4 := ((lba >>> 32) &&& 0xff).setWidth 8
      lba5 := ((lba >>> 40) &&& 0xff).setWidth 8
      count0 := (sectors &&& 0xff).setWidth 8
      count1 := ((sectors >>> 8) &&& 0xff).setWidth 8
      device := 1 <<< 6 }
  else fis

/-- `timeout` starts at 100 and is counted down before the first poll. -/
def waitCommand (hba : Hba) (slot : Nat) : BlStatus :=
  let bit : BitVec 32 := 1 <<< slot
  let polls := (List.range 99).find? fun k => hba.ci k &&& bit = 0
  -- The register is read once more behind the loop.
  let last := match polls with
    | some k => k + 1
    | none => 99
  if hba.ci last &&& bit ≠ 0 then .diskOperationTimeout
  else if hba.is &&& blAhciPortIsTfes ≠ 0 then .diskControllerInternalError
  else .success

def blAhciDoCommand (hba : Hba) (commandSlots : Nat) (port : BlAhciPort) (command : Byte)
    (buf : BitVec 32) (lba sectors : BitVec 64) : BlAhciPort × BlStatus :=
  if blAhciPrdtEntries * prdtSectors < sectors then (port, .invalidParameters)
  else
    match blAhciFindFreeCommandSlot port commandSlots with
    | none => (port, .insufficientResources)
    | some slot =>
      let prdtl := (sectors / prdtSectors + if 0 < sectors % prdtSectors then 1 else 0).setWidth 16
      let header : BlAhciCommandHeader := ⟨20 / 4, 0, prdtl⟩
      let table := clearTable (port.commandTable slot)
      let table := { table with prdt := setPrdt buf prdtl.toNat 0 sectors 0 table.prdt }
      let table := { table with cfis := setFis table.cfis command lba sectors }
      let port := { port with
        commandList := Function.update port.commandList slot header
        commandTable := Function.update port.commandTable slot table
        ci := port.ci ||| 1 <<< slot }
      (port, waitCommand hba slot)

def blAhciRead (hba : Hba) (commandSlots : Nat) (port : BlAhciPort) (buf : BitVec 32)
    (lba sectors : BitVec 64) : BlAhciPort × BlStatus :=
  let (port, status) :=
    blAhciDoCommand hba commandSlots port blSataCommandReadSectorsDmaExt buf lba sectors
  if status ≠ .success then (port, status) else (port, .success)

end BootLoader.Ahci
