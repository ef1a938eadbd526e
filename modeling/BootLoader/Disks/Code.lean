import BootLoader.Partition.Code
import BootLoader.Storage.Code

/-!
# Disks over used memory (`core/storage/storage.c`, `core/storage/disk-controller.c`)

Registration as the drivers do it (`modules/storage/pata/pata.c`, `modules/storage/ahci/ahci.c`,
`modules/storage/usb-scsi/usb-scsi.c`, `core/bus/usb/usb.c`), field by field over a block that holds
what was there before, and the probe over the list that comes of it.
-/

open ByteMemory

namespace BootLoader.Disks

open Driver Storage

inductive BlDiskControllerType where
  | pata
  | ahci
  | usbScsi
  deriving DecidableEq, Repr

inductive BlStorageType where
  | hardDrive
  | usbDrive
  deriving DecidableEq, Repr

structure BlDiskControllerFunctions where
  type : BlDiskControllerType
  getInfo : Bool

structure BlDiskController where
  funcs : BlDiskControllerFunctions
  next : Option Nat

structure BlStorageDevice where
  type : BlStorageType
  sectorSize : Nat
  sectorCount : BitVec 64
  partitions : Option Nat
  controller : Option Nat
  data : Option Nat
  next : Option Nat

/-- `struct bl_partition` with its link. -/
structure BlPartitionNode where
  partition : BlPartition
  next : Option Nat

/-- The heap and what the bytes at an address read as. A block serves as one of the three: it is
written by one driver and never freed. -/
structure Registry where
  world : World
  disk : Nat → BlStorageDevice
  controller : Nat → BlDiskController
  partition : Nat → BlPartitionNode
  blStorageDevices : Option Nat
  controllerList : Option Nat

/-- The two lists are empty at the start, whatever is in the memory. -/
def Registry.start (world : World) (disk : Nat → BlStorageDevice)
    (controller : Nat → BlDiskController) (partition : Nat → BlPartitionNode) : Registry :=
  ⟨world, disk, controller, partition, none, none⟩

/-! ## Registration -/

def Registry.setDisk (s : Registry) (disk : Nat) (value : BlStorageDevice) : Registry :=
  { s with disk := Function.update s.disk disk value }

def Registry.setController (s : Registry) (controller : Nat) (value : BlDiskController) :
    Registry :=
  { s with controller := Function.update s.controller controller value }

def blDiskControllerRegister (s : Registry) (controller : Nat) : Registry :=
  { s.setController controller { s.controller controller with next := s.controllerList } with
    controllerList := some controller }

def blStorageDeviceRegister (s : Registry) (disk : Nat) : Registry :=
  { s.setDisk disk { s.disk disk with next := s.blStorageDevices } with
    blStorageDevices := some disk }

def pataFunctions : BlDiskControllerFunctions := ⟨.pata, false⟩
def ahciFunctions : BlDiskControllerFunctions := ⟨.ahci, false⟩
def blUsbScsiFuncs : BlDiskControllerFunctions := ⟨.usbScsi, true⟩

/-- A new controller, registered; null if there is no block. -/
def newController (env : Env) (funcs : BlDiskControllerFunctions) (s : Registry) :
    Registry × Option Nat :=
  match s.world.alloc env with
  | (world, none) => ({ s with world }, none)
  | (world, some controller) =>
    let s := { s with world }.setController controller ⟨funcs, none⟩
    (blDiskControllerRegister s controller, some controller)

/-- A device found on the bus: its address and `id.sectors_lba48`. -/
structure AtaDevice where
  address : Nat
  sectorsLba48 : BitVec 64

/-- The loop over the devices. -/
def registerHardDrives (env : Env) (controller : Nat) : List AtaDevice → Registry → Registry
  | [], s => s
  | device :: devices, s =>
    match s.world.alloc env with
    | (world, none) => { s with world }
    | (world, some disk) =>
      let s := { s with world }.setDisk disk { s.disk disk with
        type := .hardDrive, controller := some controller, sectorSize := blStorageSectorSize
        sectorCount := device.sectorsLba48, data := some device.address, next := none }
      registerHardDrives env controller devices (blStorageDeviceRegister s disk)

/-- `BL_MODULE_INIT` behind the search for devices. -/
def initHardDrives (env : Env) (funcs : BlDiskControllerFunctions) (devices : List AtaDevice)
    (s : Registry) : Registry :=
  match newController env funcs s with
  | (s, none) => s
  | (s, some controller) => registerHardDrives env controller devices s

def pataModuleInit (env : Env) : List AtaDevice → Registry → Registry :=
  initHardDrives env pataFunctions

def ahciModuleInit (env : Env) : List AtaDevice → Registry → Registry :=
  initHardDrives env ahciFunctions

def usbScsiModuleInit (env : Env) (s : Registry) : Registry :=
  (newController env blUsbScsiFuncs s).1

/-- The controller and the list of partitions are not set. -/
def blUsbClaimStorageDevice (env : Env) (device : Nat) (s : Registry) : Registry × BlStatus :=
  match s.world.alloc env with
  | (world, none) => ({ s with world }, .memoryAllocationFailed)
  | (world, some disk) =>
    let s := { s with world }.setDisk disk { s.disk disk with
      type := .usbDrive, data := some device, next := none }
    (blStorageDeviceRegister s disk, .success)

/-- What the drivers do, in the order in which modules are loaded and devices found. -/
inductive Registration where
  | pata (devices : List AtaDevice)
  | ahci (devices : List AtaDevice)
  | usbScsi
  | usbDisk (device : Nat)

def register (env : Env) (s : Registry) : Registration → Registry
  | .pata devices => pataModuleInit env devices s
  | .ahci devices => ahciModuleInit env devices s
  | .usbScsi => usbScsiModuleInit env s
  | .usbDisk device => (blUsbClaimStorageDevice env device s).1

/-! ## Probing -/

/-- The loop of `bl_disk_controller_match_type`, for at most `fuel` controllers. The outer `none`:
that is not enough. -/
def matchTypeFrom (s : Registry) (type : BlDiskControllerType) :
    Nat → Option Nat → Option (Option Nat)
  | 0, _ => none
  | _ + 1, none => some none
  | fuel + 1, some curr =>
    if type = (s.controller curr).funcs.type then some (some curr)
    else matchTypeFrom s type fuel (s.controller curr).next

inductive PartitionTable where
  | mbr
  | gpt

def PartitionTable.iterate : PartitionTable → Partition.Handler
  | mbr => Partition.blMbrIterate
  | gpt => Partition.blGptIterate

/-- What is on each disk, what `get_info` answers for it (the status, `sector_size` and
`sector_count`), and the handlers in the order of their list. -/
structure Probing where
  env : Env
  contents : Nat → Mem
  getInfo : Nat → BlStatus × Nat × BitVec 64
  handlers : List PartitionTable

/-- The handlers' `partition->next = disk->partitions; disk->partitions = partition;` for the
partitions that they recorded, the last one first. -/
def attach (s : Registry) (disk : Nat) : List (Nat × BlPartition) → Registry
  | [] => s
  | (block, partition) :: before =>
    let s := attach s disk before
    { s.setDisk disk { s.disk disk with partitions := some block } with
      partition := Function.update s.partition block ⟨partition, (s.disk disk).partitions⟩ }

/-- `bl_partition_table_probe`, and the blocks of the partitions that were recorded. -/
def probePartitions (p : Probing) (s : Registry) (disk : Nat) : Registry × List Nat :=
  let (d, _) := Partition.blPartitionTableProbe { p.env with disk := p.contents disk }
    (p.handlers.map PartitionTable.iterate) ⟨s.world, []⟩
  (attach { s with world := d.world } disk d.partitions, d.partitions.map Prod.fst)

/-- `disk->controller = controller;` and `get_info`, if the controller has it. -/
def askController (p : Probing) (s : Registry) (disk controller : Nat) : Registry × BlStatus :=
  let s := s.setDisk disk { s.disk disk with controller := some controller }
  if (s.controller controller).funcs.getInfo then
    let (status, sectorSize, sectorCount) := p.getInfo disk
    (s.setDisk disk { s.disk disk with sectorSize, sectorCount }, status)
  else (s, .success)

/-- The disks that were probed so far, with the blocks recorded for each. -/
abbrev Recorded := List (Nat × List Nat)

/-- The loop of `bl_storage_probe` at `disk`, for at most `fuel` turns. `none`: that is not enough,
as without a controller for USB disks, when the turn is repeated. -/
def storageProbeFrom (p : Probing) :
    Nat → Option Nat → Registry → Recorded → Option (Registry × BlStatus × Recorded)
  | 0, _, _, _ => none
  | _ + 1, none, s, recorded => some (s, .success, recorded)
  | fuel + 1, some disk, s, recorded =>
    let found := match (s.disk disk).controller with
      | some controller => some (some controller)
      | none => matchTypeFrom s .usbScsi fuel s.controllerList
    match found with
    | none => none
    | some none => storageProbeFrom p fuel (some disk) s recorded
    | some (some controller) =>
      let (s, status) := askController p s disk controller
      if status ≠ .success then some (s, status, recorded)
      else
        let (s, blocks) := probePartitions p s disk
        storageProbeFrom p fuel (s.disk disk).next s ((disk, blocks) :: recorded)

def blStorageProbe (p : Probing) (fuel : Nat) (s : Registry) :
    Option (Registry × BlStatus × Recorded) :=
  storageProbeFrom p fuel s.blStorageDevices s []

end BootLoader.Disks
