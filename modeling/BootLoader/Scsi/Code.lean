import BootLoader.Lib.ByteMemory
import BootLoader.Status

/-!
# Disks on the USB (`modules/storage/usb-scsi/usb-scsi.c`, `core/bus/usb/usb.c`)

A command is three bulk transfers: the command wrapper, the data, the status wrapper.
-/

open ByteMemory

namespace BootLoader.Scsi

/-! ## Bulk transfers -/

inductive Endpoint where
  | inEndp
  | outEndp
  deriving DecidableEq

/-- A bulk transfer, and the bytes that moved. -/
structure Transfer where
  endp : Endpoint
  length : BitVec 32
  bytes : List Byte
  deriving DecidableEq

/-- What the device does in the transfer of each number: the bytes it delivers, or how many it
takes. A phase that fails moves fewer, or none. -/
structure Env where
  delivers : Nat → List Byte
  takes : Nat → Nat
  /-- What a variable on the stack holds that nothing was put into. `bl_memset` leaves its last
  byte. -/
  stack : Mem

/-- The tag that was used last, and the transfers so far. -/
structure Bus where
  tag : BitVec 32
  log : List Transfer

def Bus.add (bus : Bus) (t : Transfer) : Bus := { bus with log := bus.log ++ [t] }

/-- The length is an `int`. What the controller makes of the transfer is not handed back. -/
def blUsbBulkTransfer (env : Env) (bus : Bus) (direction : Bool) (data : Mem)
    (length : BitVec 32) : Bus × Mem :=
  let count := length.toInt.toNat
  if direction then
    let moved := (List.range (min count (env.takes bus.log.length))).map data
    (bus.add ⟨.outEndp, length, moved⟩, data)
  else
    let moved := (env.delivers bus.log.length).take count
    (bus.add ⟨.inEndp, length, moved⟩, fun k => moved.getD k (data k))

/-! ## Wrappers -/

def blUsbBbbCbwSignature : BitVec 32 := 0x43425355
def blUsbBbbCswSignature : BitVec 32 := 0x53425355

structure BlUsbBbbCbw where
  signature : BitVec 32
  tag : BitVec 32
  dataTransferLength : BitVec 32
  flags : Byte
  lun : Byte
  cbLength : Byte
  cmd : List Byte

def BlUsbBbbCbw.bytes (cbw : BlUsbBbbCbw) : List Byte :=
  bytesLE 4 cbw.signature.toNat ++ bytesLE 4 cbw.tag.toNat ++
    bytesLE 4 cbw.dataTransferLength.toNat ++ [cbw.flags, cbw.lun, cbw.cbLength] ++ cbw.cmd

def sizeofCbw : BitVec 32 := 31
def sizeofCsw : BitVec 32 := 13

def cswSignature (csw : Mem) : Nat := read32 csw 0
def cswTag (csw : Mem) : Nat := read32 csw 4
def cswDataResidue (csw : Mem) : Nat := read32 csw 8
def cswStatus (csw : Mem) : Byte := csw 12

def blUsbScsiBbbInitCbw (env : Env) (tag : BitVec 32) (lun : Byte) (direction : Bool)
    (cmd : List Byte) (length : BitVec 32) : BlUsbBbbCbw where
  signature := blUsbBbbCbwSignature
  tag := tag + 1
  dataTransferLength := length
  flags := if direction then 0 else 1 <<< 7
  lun := lun
  cbLength := BitVec.ofNat 8 cmd.length
  cmd := cmd ++ (List.replicate 15 0 ++ [env.stack 30]).drop cmd.length

/-- What is in the buffer afterwards comes with the status. -/
def blUsbScsiBbbExecuteCommand (env : Env) (bus : Bus) (direction : Bool) (cmd : List Byte)
    (buf : Mem) (length : BitVec 32) : Bus × Mem × BlStatus :=
  let cbw := blUsbScsiBbbInitCbw env bus.tag 0 direction cmd length
  let bus := { bus with tag := cbw.tag }
  let (bus, _) := blUsbBulkTransfer env bus true (ofBytes cbw.bytes) sizeofCbw
  let (bus, buf) := blUsbBulkTransfer env bus direction buf length
  let (bus, _) := blUsbBulkTransfer env bus false env.stack sizeofCsw
  (bus, buf, .success)

/-! ## Commands -/

def blScsiCommandSenseData : Byte := 0x03
def blScsiCommandInquiry : Byte := 0x12
def blScsiCommandReadCapacity10 : Byte := 0x25
def blScsiCommandRead10 : Byte := 0x28
def blScsiCommandReadCapacity16 : Byte := 0x9e

def bytesSwap16 (val : BitVec 16) : BitVec 16 := ((val &&& 0xff) <<< 8) ||| (val >>> 8)

def bytesSwap32 (val : BitVec 32) : BitVec 32 :=
  ((val &&& 0xff) <<< 24) ||| (((val >>> 8) &&& 0xff) <<< 16) |||
    (((val >>> 16) &&& 0xff) <<< 8) ||| (val >>> 24)

def bytesSwap64 (val : BitVec 64) : BitVec 64 :=
  ((val &&& 0xff) <<< 56) ||| (((val >>> 8) &&& 0xff) <<< 48) |||
    (((val >>> 16) &&& 0xff) <<< 40) ||| (((val >>> 24) &&& 0xff) <<< 32) |||
    (((val >>> 32) &&& 0xff) <<< 24) ||| (((val >>> 40) &&& 0xff) <<< 16) |||
    (((val >>> 48) &&& 0xff) <<< 8) ||| ((val >>> 58) &&& 0xff)

def sizeofRequestSenseData : Nat := 18

def blScsiRequestSense (env : Env) : List Byte :=
  [blScsiCommandSenseData, 0 <<< 5, 0, 0, BitVec.ofNat 8 sizeofRequestSenseData, env.stack 5]

def blUsbScsiSenseData (env : Env) (bus : Bus) : Bus × BlStatus :=
  let (bus, _, status) := blUsbScsiBbbExecuteCommand env bus false (blScsiRequestSense env)
    env.stack (BitVec.ofNat 32 sizeofRequestSenseData)
  (bus, status)

def blScsiRead10 (env : Env) (lba sectors : BitVec 64) : List Byte :=
  [blScsiCommandRead10, 0] ++
    bytesLE 4 (bytesSwap32 ((lba &&& 0xffffffff).setWidth 32)).toNat ++ [0] ++
    bytesLE 2 (bytesSwap16 ((sectors &&& 0xffff).setWidth 16)).toNat ++ [env.stack 9]

def blUsbScsiRead10 (env : Env) (bus : Bus) (buf : Mem) (lba sectors : BitVec 64)
    (length : BitVec 32) : Bus × Mem × BlStatus :=
  let (bus, buf, status) :=
    blUsbScsiBbbExecuteCommand env bus false (blScsiRead10 env lba sectors) buf length
  if status ≠ .success then (bus, buf, status)
  else
    let (bus, status) := blUsbScsiSenseData env bus
    if status ≠ .success then (bus, buf, status)
    else (bus, buf, .success)

def blUsbScsiRead (env : Env) (bus : Bus) (sectorSize : BitVec 32) (buf : Mem)
    (lba sectors : BitVec 64) : Bus × Mem × BlStatus :=
  let length := (sectors * sectorSize.setWidth 64).setWidth 32
  let (bus, buf, status) := blUsbScsiRead10 env bus buf lba sectors length
  if status ≠ .success then (bus, buf, status)
  else (bus, buf, .success)

def sizeofInquiryData : Nat := 36

/-- Every byte of it is set. -/
def blScsiInquiry : List Byte :=
  [blScsiCommandInquiry, 0 <<< 5, 0, 0, BitVec.ofNat 8 sizeofInquiryData, 0]

def blUsbScsiInquiry (env : Env) (bus : Bus) : Bus × BlStatus :=
  let (bus, _, status) := blUsbScsiBbbExecuteCommand env bus false blScsiInquiry env.stack
    (BitVec.ofNat 32 sizeofInquiryData)
  if status ≠ .success then (bus, status)
  else
    let (bus, status) := blUsbScsiSenseData env bus
    if status ≠ .success then (bus, status)
    else (bus, .success)

def sizeofReadCapacity10Data : Nat := 8
def sizeofReadCapacity16Data : Nat := 32

def blScsiReadCapacity10 (env : Env) : List Byte :=
  [blScsiCommandReadCapacity10, 0 <<< 5] ++ bytesLE 4 0 ++ bytesLE 2 0 ++ [0, env.stack 9]

def blScsiReadCapacity16 (env : Env) : List Byte :=
  [blScsiCommandReadCapacity16, 0 <<< 5] ++ bytesLE 8 0 ++
    bytesLE 4 (bytesSwap32 (BitVec.ofNat 32 sizeofReadCapacity16Data)).toNat ++ [0, env.stack 15]

def capacityLba10 (data : Mem) : BitVec 32 := BitVec.ofNat 32 (read32 data 0)
def capacityBlockSize10 (data : Mem) : BitVec 32 := BitVec.ofNat 32 (read32 data 4)
def capacityLba16 (data : Mem) : BitVec 64 := BitVec.ofNat 64 (read64 data 0)
def capacityBlockSize16 (data : Mem) : BitVec 32 := BitVec.ofNat 32 (read32 data 8)

/-- `*sector_count` and `*sector_size`. -/
structure DiskSize where
  sectorCount : BitVec 64
  sectorSize : BitVec 32

def blUsbScsiGetSize (env : Env) (bus : Bus) (size : DiskSize) : Bus × DiskSize × BlStatus :=
  let (bus, data1, status) := blUsbScsiBbbExecuteCommand env bus false (blScsiReadCapacity10 env)
    env.stack (BitVec.ofNat 32 sizeofReadCapacity10Data)
  if status ≠ .success then (bus, size, status)
  else
    let (bus, status) := blUsbScsiSenseData env bus
    if status ≠ .success then (bus, size, status)
    else if capacityLba10 data1 < 0xffffffff then
      -- The sum is one of 32 bits.
      (bus, ⟨(bytesSwap32 (capacityLba10 data1) + 1).setWidth 64,
        bytesSwap32 (capacityBlockSize10 data1)⟩, .success)
    else
      let (bus, data2, status) := blUsbScsiBbbExecuteCommand env bus false
        (blScsiReadCapacity16 env) env.stack (BitVec.ofNat 32 sizeofReadCapacity16Data)
      if status ≠ .success then (bus, size, status)
      else
        let (bus, status) := blUsbScsiSenseData env bus
        if status ≠ .success then (bus, size, status)
        else
          (bus, ⟨bytesSwap64 (capacityLba16 data2) + 1,
            bytesSwap32 (capacityBlockSize16 data2)⟩, .success)

end BootLoader.Scsi
