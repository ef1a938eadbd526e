import BootLoader.Storage.Code

/-!
# Parallel ATA (`modules/storage/pata/pata.c`, `pata.h`)

A sector is taken word by word from the data port. Between the sectors the driver looks at the
status register, first until `BSY` is clear and then once more.
-/

open ByteMemory

namespace BootLoader.Pata

open Storage (blStorageSectorSize)

/-! ## Registers -/

def blPataRegStatusErr : Byte := 1 <<< 0
def blPataRegStatusDrq : Byte := 1 <<< 3
def blPataRegStatusBsy : Byte := 1 <<< 7

def blPataRegDeviceSet (lba type : Byte) : Byte :=
  (1 <<< 7) ||| ((lba &&& 1) <<< 6) ||| (1 <<< 5) ||| ((type &&& 1) <<< 4) ||| 0

/-- The registers as they are written. `lba48` are the same registers, written first. -/
inductive WriteReg where
  | features | sectorCount | lba48Low | lba48Mid | lba48High | lbaLow | lbaMid | lbaHigh
  | device | command
  deriving DecidableEq, Repr

def blPataCmdReadSectors : Byte := 0x20

/-! ## The drive and its ports -/

/-- What the drive shows each time the status register, or the data port, is read. -/
structure Drive where
  status : Nat → Byte
  data : Nat → BitVec 16

/-- One access to the ports. -/
inductive Access where
  | write (reg : WriteReg) (val : Byte)
  | status (val : Byte)
  /-- A word of the data port, stored at `addr`. -/
  | data (addr : Nat) (word : BitVec 16)
  deriving DecidableEq, Repr

/-- How often both were read, and all the accesses. -/
structure Ports where
  statusReads : Nat
  dataReads : Nat
  log : List Access

def blPataWriteReg (ports : Ports) (reg : WriteReg) (val : Byte) : Ports :=
  { ports with log := ports.log ++ [.write reg val] }

/-- `bl_pata_read_reg` of the status register. -/
def blPataReadStatus (drive : Drive) (ports : Ports) : Ports × Byte :=
  let val := drive.status ports.statusReads
  ({ ports with statusReads := ports.statusReads + 1, log := ports.log ++ [.status val] }, val)

/-- `bl_pata_read_data`, the word going to `addr`. -/
def blPataReadData (drive : Drive) (addr : Nat) (ports : Ports) : Ports :=
  { ports with
    dataReads := ports.dataReads + 1
    log := ports.log ++ [.data addr (drive.data ports.dataReads)] }

/-! ## Reading sectors -/

/-- The loop of `bl_pata_wait_ready`, for so many polls at most. -/
def pollStatus (drive : Drive) : Nat → Ports → Ports × BlStatus
  | 0, ports => (ports, .diskOperationTimeout)
  | polls + 1, ports =>
    let (ports, val) := blPataReadStatus drive ports
    if val &&& blPataRegStatusBsy = 0 then (ports, .success) else pollStatus drive polls ports

def waitPolls : Nat := 99

/-- `timeout` starts at 100 and is counted down before the first poll. -/
def blPataWaitReady (drive : Drive) (ports : Ports) : Ports × BlStatus :=
  pollStatus drive waitPolls ports

def sectorWords : Nat := blStorageSectorSize / 2

def blPataBufferReadSector (drive : Drive) (buf : Nat) (ports : Ports) : Ports :=
  (List.range sectorWords).foldl
    (fun ports i => blPataReadData drive ((buf + 2 * i) % 2 ^ 32) ports) ports

/-- The loop over the sectors, from number `i` on with `left` still to read. -/
def readSectors (drive : Drive) (buf : Nat) : Nat → Nat → Byte → Ports → Ports × BlStatus
  | 0, _, _, ports => (ports, .success)
  | left + 1, i, readStatus, ports =>
    if readStatus &&& (blPataRegStatusDrq ||| blPataRegStatusErr) = blPataRegStatusErr then
      (ports, .success)
    else
      let ports :=
        blPataBufferReadSector drive ((buf + i * blStorageSectorSize) % 2 ^ 32) ports
      let (ports, status) := blPataWaitReady drive ports
      if status ≠ .success then (ports, status)
      else
        let (ports, readStatus) := blPataReadStatus drive ports
        readSectors drive buf left (i + 1) readStatus ports

/-- The registers of a command, the 48-bit address coming in two halves. -/
def writeCommand (ports : Ports) (type command : Byte) (lba sectors : BitVec 64) : Ports :=
  let ports := blPataWriteReg ports .features 0
  let ports := blPataWriteReg ports .sectorCount ((sectors >>> 8).setWidth 8)
  let ports := blPataWriteReg ports .lba48Low ((lba >>> 24).setWidth 8)
  let ports := blPataWriteReg ports .lba48Mid ((lba >>> 32).setWidth 8)
  let ports := blPataWriteReg ports .lba48High ((lba >>> 40).setWidth 8)
  let ports := blPataWriteReg ports .sectorCount (sectors.setWidth 8)
  let ports := blPataWriteReg ports .lbaLow (lba.setWidth 8)
  let ports := blPataWriteReg ports .lbaMid ((lba >>> 8).setWidth 8)
  let ports := blPataWriteReg ports .lbaHigh ((lba >>> 16).setWidth 8)
  let ports := blPataWriteReg ports .device (blPataRegDeviceSet 1 type)
  blPataWriteReg ports .command command

def blPataDeviceCommand (drive : Drive) (ports : Ports) (type command : Byte) (buf : Nat)
    (bufSectors lba sectors : BitVec 64) : Ports × BlStatus :=
  let ports := writeCommand ports type command lba sectors
  let (ports, status) := blPataWaitReady drive ports
  if status ≠ .success then (ports, status)
  else
    let (ports, readStatus) := blPataReadStatus drive ports
    readSectors drive buf bufSectors.toNat 0 readStatus ports

/-- `type` is that of the disk's device. -/
def blPataRead (drive : Drive) (ports : Ports) (type : Byte) (buf : Nat)
    (lba sectors : BitVec 64) : Ports × BlStatus :=
  let (ports, status) :=
    blPataDeviceCommand drive ports type blPataCmdReadSectors buf sectors lba sectors
  if status ≠ .success then (ports, status) else (ports, .success)

end BootLoader.Pata
