import BootLoader.Status
import BootLoader.Usb.Hub

/-!
# The interface of a driver

How a device is found to be a keyboard or a disk (`core/bus/usb/usb.c`), and what
`modules/keyboard/usb-kbd/usb-keyboard.c` and `modules/storage/usb-scsi/usb-scsi.c` then take of its
interfaces.
-/

open ByteMemory Records

namespace BootLoader.UsbInterface

open Usb UsbHub

def blUsbDescriptorTypeHid : Byte := 0x21
def sizeofHidDescriptor : Nat := 9

def blUsbSetupRequestTypeClass : Nat := 0x20
def blUsbSetupRequestTypeRecipientInterface : Nat := 0x01
def blUsbHidRequestTypeSetIdle : Nat := 0x0a
def blUsbHidRequestTypeSetProtocol : Nat := 0x0b

/-- `descriptor` is `&device->interfaces[i].endpoints[j]` as `(i, j)`, or null. -/
structure BlUsbEndpoint where
  toggle : Nat
  descriptor : Option (Nat × Nat)
  deriving DecidableEq

structure BlUsbKeyboard where
  interface : Nat
  hid : List Byte
  endp : BlUsbEndpoint

structure BlUsbStorage where
  interface : Nat
  inEndp : BlUsbEndpoint
  outEndp : BlUsbEndpoint

/-- `interfaces i` is what stands at `device->interfaces[i]`, for `i` from `interfaces_count` on
what lies behind the array. Of the union, nothing of the keyboard is left that the storage device
reads before it is written. -/
structure BlUsbDevice where
  config : List Byte
  interfaces : Nat → BlUsbInterface
  type : Nat
  keyboard : BlUsbKeyboard
  storage : BlUsbStorage

def interfaceNumber (i : BlUsbInterface) : Byte := i.descriptor.getD 2 0
def endpointsCount (i : BlUsbInterface) : Nat := (i.descriptor.getD 4 0).toNat
def interfaceClass (i : BlUsbInterface) : Byte := i.descriptor.getD 5 0
def interfaceSubclass (i : BlUsbInterface) : Byte := i.descriptor.getD 6 0
def interfaceProtocol (i : BlUsbInterface) : Byte := i.descriptor.getD 7 0

/-- `interface->endpoints[j]` -/
def endpoint (i : BlUsbInterface) (j : Nat) : List Byte := (i.endpoints.getD []).getD j []

def isIn (e : List Byte) : Bool := e.getD 2 0 &&& 0x80 ≠ 0
def attributes (e : List Byte) : Byte := e.getD 3 0

/-! ## The HID descriptor -/

/-- The first loop of `bl_usb_get_hid_info`: the elements of `device->interfaces` it read, and where
the descriptor is. -/
def findInterface (data : Mem) (selected : Nat) (number : Byte) :
    Nat → Nat → List Nat × Option Nat
  | 0, _ => ([], none)
  | fuel + 1, off =>
    if recordKind data off = blUsbDescriptorTypeInterface then
      if data (off + 2) = number then ([selected], some off)
      else
        -- the offset stays where it is
        let r := findInterface data selected number fuel off
        (selected :: r.1, r.2)
    else findInterface data selected number fuel (off + recordLength data off)

def findHid (data : Mem) : Nat → Nat → Option Nat
  | 0, _ => none
  | fuel + 1, off =>
    if recordKind data off = blUsbDescriptorTypeHid then some off
    else findHid data fuel (off + recordLength data off)

/-- `allocated` and `freed` are the sizes of the blocks. -/
structure HidInfo where
  device : BlUsbDevice
  status : BlStatus
  allocated : List Nat
  freed : List Nat

/-- What is read is the transfer number `n`, into the block of the allocation number `m`. -/
def blUsbGetHidInfo (env : Env) (n m fuel : Nat) (device : BlUsbDevice) :
    List Nat × Option HidInfo :=
  let total := totalLength device.config
  match env.heapAlloc m total with
  | none => ([], some ⟨device, .memoryAllocationFailed, [], []⟩)
  | some _ =>
    let data := blUsbGetDescriptor env n 0 blUsbDescriptorTypeConfig 0 0 total
    let selected := device.keyboard.interface
    let found := findInterface data selected (interfaceNumber (device.interfaces selected)) fuel
      (configLength device.config)
    (found.1, found.2.bind fun interface =>
      (findHid data fuel (interface + recordLength data interface)).map fun hid =>
        let keyboard := { device.keyboard with hid := bytesAt data hid sizeofHidDescriptor }
        ⟨{ device with keyboard }, .success, [total], [total]⟩)

/-! ## Finding out what a device is -/

/-- The loop over `config.interfaces_count`. -/
def firstInterface (p : BlUsbInterface → Bool) (device : BlUsbDevice) : Option Nat :=
  (List.range (interfacesCount device.config)).find? fun i => p (device.interfaces i)

def selectKeyboard (i : Nat) (device : BlUsbDevice) : BlUsbDevice :=
  { device with
    type := blUsbKeyboardDevice
    keyboard :=
      { device.keyboard with interface := (interfaceNumber (device.interfaces i)).toNat } }

def selectStorage (i : Nat) (device : BlUsbDevice) : BlUsbDevice :=
  { device with
    type := blUsbStorageDevice
    storage :=
      { device.storage with interface := (interfaceNumber (device.interfaces i)).toNat } }

/-- `claimed` says whether `bl_usb_claim_keyboard` gets its block. -/
def blUsbCheckKeyboard (env : Env) (n m fuel : Nat) (claimed : Bool) (device : BlUsbDevice) :
    List Nat × Option (BlStatus × BlUsbDevice) :=
  match firstInterface isKeyboard device with
  | none => ([], some (.usbInvalidDevice, device))
  | some i =>
    let got := blUsbGetHidInfo env n m fuel (selectKeyboard i device)
    (got.1, got.2.map fun info =>
      (if info.status ≠ .success then info.status
        else if claimed then .success else .memoryAllocationFailed, info.device))

/-- `claimed` says whether `bl_usb_claim_storage_device` gets its block. -/
def blUsbCheckStorageDevice (claimed : Bool) (device : BlUsbDevice) : BlStatus × BlUsbDevice :=
  match firstInterface isStorage device with
  | none => (.usbInvalidDevice, device)
  | some i => (if claimed then .success else .memoryAllocationFailed, selectStorage i device)

/-! ## The drivers -/

/-- `accessed` are the elements of `device->interfaces` that were read, and `requests` what was sent
to the device. -/
structure Initialized where
  device : BlUsbDevice
  status : BlStatus
  accessed : List Nat
  requests : List BlUsbSetupData

/-- `bl_usb_keyboard_set_boot_protocol` and `bl_usb_keyboard_set_idle_request` -/
def blUsbKeyboardConfigure (interface : BlUsbInterface) : List BlUsbSetupData :=
  [blUsbHidRequestTypeSetProtocol, blUsbHidRequestTypeSetIdle].map fun request =>
    blUsbSetupDataFill (blUsbSetupRequestTypeRecipientInterface ||| blUsbSetupRequestTypeClass)
      request 0 (interfaceNumber interface).toNat 0

/-- The loop up to its `break`. -/
def keyboardEndpoint (selected : Nat) (interface : BlUsbInterface) (endp : BlUsbEndpoint) :
    BlUsbEndpoint :=
  match (List.range (endpointsCount interface)).find? fun j =>
    isIn (endpoint interface j) && attributes (endpoint interface j) = 3 with
  | some j => ⟨0, some (selected, j)⟩
  | none => endp

/-- `supported` says whether the host controller has interrupt transfers. -/
def blUsbKeyboardInitialize (supported : Bool) (device : BlUsbDevice) : Initialized :=
  let selected := device.keyboard.interface
  let interface := device.interfaces selected
  if supported = false then ⟨device, .unsupported, [], []⟩
  else if interfaceClass interface ≠ 3 ∨ interfaceSubclass interface ≠ 1 ∨
      interfaceProtocol interface ≠ 1 then
    ⟨device, .usbInvalidDevice, [selected], []⟩
  -- `hid.country_code`
  else if device.keyboard.hid.getD 4 0 ≠ 0 then ⟨device, .usbInvalidDevice, [selected], []⟩
  else
    let keyboard := { device.keyboard with
      endp := keyboardEndpoint selected interface device.keyboard.endp }
    ⟨{ device with keyboard }, .success, [selected], blUsbKeyboardConfigure interface⟩

/-- A turn of the loop over the endpoints. -/
def storageEndpoint (selected : Nat) (interface : BlUsbInterface) (storage : BlUsbStorage)
    (j : Nat) : BlUsbStorage :=
  let e := endpoint interface j
  let storage := if storage.inEndp.descriptor = none ∧ isIn e = true ∧ attributes e = 2 then
      { storage with inEndp := ⟨0, some (selected, j)⟩ } else storage
  if storage.outEndp.descriptor = none ∧ isIn e = false ∧ attributes e = 2 then
    { storage with outEndp := ⟨0, some (selected, j)⟩ } else storage

def blUsbScsiValidateDevice (device : BlUsbDevice) : Initialized :=
  let selected := device.storage.interface
  let interface := device.interfaces selected
  if interfaceClass interface ≠ 8 ∨ interfaceSubclass interface ≠ 6 then
    ⟨device, .usbInvalidDevice, [selected], []⟩
  else if interfaceProtocol interface ≠ 0x50 then ⟨device, .usbInvalidDevice, [selected], []⟩
  else
    let storage := (List.range (endpointsCount interface)).foldl
      (storageEndpoint selected interface) device.storage
    let status : BlStatus :=
      if storage.inEndp.descriptor = none ∨ storage.outEndp.descriptor = none then
        .usbInvalidDevice
      else .success
    ⟨{ device with storage }, status, [selected], []⟩

end BootLoader.UsbInterface
