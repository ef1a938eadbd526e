import BootLoader.Lib.Records

/-!
# What a USB device is (`core/bus/usb/usb.c`, `core/include/usb/usb.h`)
-/

open ByteMemory

namespace BootLoader.Usb

open Records

def blUsbSetupRequestTypeDeviceToHost : Nat := 0x80
def blUsbRequestTypeGetDescriptor : Nat := 0x06

def blUsbDescriptorTypeDevice : Nat := 0x01
def blUsbDescriptorTypeConfig : Nat := 0x02
def blUsbDescriptorTypeInterface : Byte := 0x04
def blUsbDescriptorTypeEndpoint : Byte := 0x05

def sizeofDeviceDescriptor : Nat := 18
def sizeofConfigurationDescriptor : Nat := 9
def sizeofInterfaceDescriptor : Nat := 9
def sizeofEndpointDescriptor : Nat := 7

/-- `struct bl_usb_interface`: the descriptor, three bytes of padding and a pointer. -/
def sizeofInterface : Nat := 16
def offsetofEndpoints : Nat := 12

inductive BlUsbPid where
  | tokenOut
  | tokenIn
  | tokenSetup
  deriving DecidableEq

structure BlUsbSetupData where
  requestType : Nat
  request : Nat
  value : Nat
  index : Nat
  length : Nat
  deriving DecidableEq

def blUsbSetupDataFill (requestType request value index length : Nat) : BlUsbSetupData where
  requestType := requestType % 2 ^ 8
  request := request % 2 ^ 8
  value := value % 2 ^ 16
  index := index % 2 ^ 16
  length := length % 2 ^ 16

def blUsbDirectionPid (setup : BlUsbSetupData) : BlUsbPid :=
  if setup.requestType &&& blUsbSetupRequestTypeDeviceToHost ≠ 0 then .tokenIn else .tokenOut

def blUsbStatusPid (dataPid : BlUsbPid) : BlUsbPid :=
  if dataPid = .tokenOut then .tokenIn else .tokenOut

/-- What the device and the heap answer. `controlTransfer n setup` is the buffer after the transfer
number `n`, and behind its end what lies behind it in memory. `heapAlloc n sz` is the size of the
block of the allocation number `n`, or null. -/
structure Env where
  controlTransfer : Nat → BlUsbSetupData → Nat → Byte
  heapAlloc : (n sz : Nat) → Option { size : Nat // sz ≤ size }

def blUsbControlTransfer (env : Env) (n requestType request value index length : Nat) :
    Nat → Byte :=
  env.controlTransfer n (blUsbSetupDataFill requestType request value index length)

def blUsbGetDescriptor (env : Env) (n flags type index language length : Nat) : Nat → Byte :=
  blUsbControlTransfer env n (blUsbSetupRequestTypeDeviceToHost ||| flags)
    blUsbRequestTypeGetDescriptor (type <<< 8 ||| (index &&& 0xff)) language length

/-! ## Descriptors -/

def bytesAt (data : Nat → Byte) (off n : Nat) : List Byte :=
  (List.range n).map fun i => data (off + i)

/-- `dev_desc.configurations_count` -/
def configurationsCount (devDesc : List Byte) : Nat := (devDesc.getD 17 0).toNat

/-- `config.length` -/
def configLength (config : List Byte) : Nat := (config.getD 0 0).toNat

/-- `config.total_length` -/
def totalLength (config : List Byte) : Nat :=
  (config.getD 2 0).toNat + 256 * (config.getD 3 0).toNat

/-- `config.interfaces_count` -/
def interfacesCount (config : List Byte) : Nat := (config.getD 4 0).toNat

/-- `interface->num_endpoints` -/
def numEndpoints (data : Nat → Byte) (interface : Nat) : Nat := (data (interface + 4)).toNat

/-- The bytes of the descriptor; the endpoints unless the pointer to them is null. -/
structure BlUsbInterface where
  descriptor : List Byte
  endpoints : Option (List (List Byte))
  deriving DecidableEq

/-- `interfaces` holds the elements that are written, `none` is a null pointer. -/
structure BlUsbDevice where
  devDesc : List Byte
  config : List Byte
  interfaces : Option (List BlUsbInterface)

/-- An access of `len` bytes at `off` of an area of `size` bytes. -/
structure Access where
  size : Nat
  off : Nat
  len : Nat
  deriving DecidableEq

def Access.InBounds (a : Access) : Prop := a.off + a.len ≤ a.size

instance (a : Access) : Decidable a.InBounds := inferInstanceAs (Decidable (_ ≤ _))

/-! ## Finding out about a device -/

/-- The `while (1)` loop: the next interface descriptor, and what was read of the `total` bytes of
`config_data`. -/
def findInterface (data : Nat → Byte) (total : Nat) : Nat → Nat → Option (List Access × Nat)
  | 0, _ => none
  | fuel + 1, off =>
    if recordKind data off ≠ blUsbDescriptorTypeInterface then
      (findInterface data total fuel (off + recordLength data off)).map fun (trace, interface) =>
        (⟨total, off + 1, 1⟩ :: ⟨total, off, 1⟩ :: trace, interface)
    else some ([⟨total, off + 1, 1⟩], off)

/-- The loop over `j`, the endpoints block having `size` bytes: what was accessed, the endpoints
and the offset behind them. -/
def readEndpoints (data : Nat → Byte) (total size interface : Nat) :
    Nat → Nat → Nat → Option (List Access × List (List Byte) × Nat)
  | 0, _, _ => none
  | fuel + 1, j, off =>
    if j < numEndpoints data interface then
      if recordKind data off = blUsbDescriptorTypeEndpoint then
        (readEndpoints data total size interface fuel (j + 1) (off + recordLength data off)).map
          fun (trace, endpoints, off') =>
            (⟨total, interface + 4, 1⟩ :: ⟨total, off + 1, 1⟩ ::
              ⟨total, off, sizeofEndpointDescriptor⟩ ::
              ⟨size, sizeofEndpointDescriptor * j, sizeofEndpointDescriptor⟩ ::
              ⟨total, off, 1⟩ :: trace,
              bytesAt data off sizeofEndpointDescriptor :: endpoints, off')
      else
        (readEndpoints data total size interface fuel j (off + recordLength data off)).map
          fun (trace, endpoints, off') =>
            (⟨total, interface + 4, 1⟩ :: ⟨total, off + 1, 1⟩ :: ⟨total, off, 1⟩ :: trace,
              endpoints, off')
    else some ([⟨total, interface + 4, 1⟩], [], off)

/-- The loop over `i`, the interfaces block having `size` bytes. The flag is false if it was left
for want of memory. -/
def readInterfaces (env : Env) (data : Nat → Byte) (total size fuel : Nat) :
    Nat → Nat → Nat → Option (List Access × List BlUsbInterface × Bool)
  | 0, _, _ => some ([], [], true)
  | left + 1, i, off =>
    (findInterface data total fuel off).bind fun (found, interface) =>
      let descriptor := bytesAt data interface sizeofInterfaceDescriptor
      let copied : List Access := found ++
        [⟨total, interface, sizeofInterfaceDescriptor⟩,
         ⟨size, sizeofInterface * i, sizeofInterfaceDescriptor⟩, ⟨total, interface + 4, 1⟩,
         ⟨size, sizeofInterface * i + offsetofEndpoints, 4⟩]
      match env.heapAlloc (i + 2) (numEndpoints data interface * sizeofEndpointDescriptor) with
      | none => some (copied, [⟨descriptor, none⟩], false)
      | some block =>
        let copied := copied ++ [⟨total, interface, 1⟩]
        (readEndpoints data total block interface fuel 0
            (interface + recordLength data interface)).bind fun (trace, endpoints, off) =>
          (readInterfaces env data total size fuel left (i + 1) off).map
            fun (rest, interfaces, finished) =>
              (copied ++ trace ++ rest, ⟨descriptor, some endpoints⟩ :: interfaces, finished)

/-- `released` says whether `config_data` is handed back. -/
structure Identified where
  device : BlUsbDevice
  trace : List Access
  released : Bool

/-- Of the device descriptor, 8 bytes are asked for first, as transfer number 0. -/
def deviceDescriptor (env : Env) : List Byte :=
  bytesAt (blUsbGetDescriptor env 1 0 blUsbDescriptorTypeDevice 0 0 sizeofDeviceDescriptor) 0
    sizeofDeviceDescriptor

def configuration (env : Env) : List Byte :=
  bytesAt (blUsbGetDescriptor env 2 0 blUsbDescriptorTypeConfig 0 0 sizeofConfigurationDescriptor)
    0 sizeofConfigurationDescriptor

/-- `config_data` -/
def configurationData (env : Env) : Nat → Byte :=
  blUsbGetDescriptor env 3 0 blUsbDescriptorTypeConfig 0 0 (totalLength (configuration env))

def blUsbIdentifyDevice (env : Env) (fuel : Nat) (device : BlUsbDevice) : Option Identified :=
  let device := { device with devDesc := deviceDescriptor env }
  if configurationsCount device.devDesc ≠ 1 then some ⟨device, [], false⟩
  else
    let config := configuration env
    let device := { device with config }
    match env.heapAlloc 0 (totalLength config) with
    | none => some ⟨device, [], false⟩
    | some _ =>
      match env.heapAlloc 1 (interfacesCount config * sizeofInterfaceDescriptor) with
      | none => some ⟨{ device with interfaces := none }, [], false⟩
      | some block =>
        (readInterfaces env (configurationData env) (totalLength config) block fuel
            (interfacesCount config) 0 (configLength config)).map
          fun (trace, interfaces, finished) =>
            ⟨{ device with interfaces := some interfaces }, trace, finished⟩

end BootLoader.Usb
