import BootLoader.Usb.Code
import Mathlib.Logic.Function.Basic

/-!
# Hubs and their devices

How the tree of devices is built by `bl_usb_hub_root_register` and `bl_usb_hub_poll`, and how it is
read by `bl_usb_poll` and `bl_usb_dump`. A function has no result where it follows a pointer that
leads to nothing, or leaves an array.
-/

open ByteMemory

namespace BootLoader.UsbHub

/-- `struct bl_usb_hub *`: the root hub inside a host controller, or a hub in a heap block. -/
inductive HubPtr where
  | null
  | root (hc : Nat)
  | block (b : Nat)
  deriving DecidableEq, Repr

inductive BlUsbHostControllerType where
  | uhci
  | ohci
  | ehci
  | xhci
  deriving DecidableEq, Repr

structure BlUsbHostController where
  type : BlUsbHostControllerType
  /-- `root_hub.ports` -/
  rootPorts : Nat
  devicesCount : Nat

def blUsbHubDevice : Nat := 1
def blUsbStorageDevice : Nat := 2
def blUsbKeyboardDevice : Nat := 3

/-- `descriptors` are `dev_desc`, `config` and `interfaces`, and `hub` is `specific.hub.hub`. The
address that the device was told is no field of the source. -/
structure BlUsbDevice where
  address : Nat
  port : Nat
  parentHub : HubPtr
  descriptors : Usb.BlUsbDevice
  controller : Nat
  type : Nat
  hub : HubPtr
  told : Option Nat

/-- `devices` are as many elements as the block has room for. `behind` is what follows
`port_chain` in the hub's block: padding, the pointer to the device, and `next`. -/
structure BlUsbHub where
  ports : Nat
  devices : Option (List Nat)
  portChain : Vector Byte 5
  behind : Vector Byte 11
  device : Option Nat
  next : Option Nat

/-- `devices` and `hubs` are what stands in the heap blocks and in the host controllers. -/
structure BlUsb where
  next : Nat
  devices : Nat → Option BlUsbDevice
  hubs : HubPtr → Option BlUsbHub
  controllers : Nat → BlUsbHostController
  /-- `bl_root_hubs` -/
  rootHubs : Option Nat

def sizeofPointer : Nat := 4
def sizeofUsbHub : Nat := 24
def sizeofUsbDevice : Nat := 88

/-- `devices[i]` -/
def BlUsbHub.slot (hub : BlUsbHub) (i : Nat) : Option Nat := hub.devices.bind fun slots => slots[i]?

/-- `hub->devices[i] = device` -/
def setSlot (h : HubPtr) (i device : Nat) (s : BlUsb) : Option BlUsb :=
  (s.hubs h).bind fun hub => hub.devices.bind fun slots =>
    if i < slots.length then
      some { s with
        hubs := Function.update s.hubs h (some { hub with devices := some (slots.set i device) }) }
    else none

/-- A block of `size` bytes as an array of pointers, as it was before. -/
def oldArray (size : Nat) (oldSlots : Nat → Nat) : List Nat :=
  (List.range (size / sizeofPointer)).map oldSlots

/-- What a device answers, which requests are served for it, and what its blocks held before.
`descriptors` is what `bl_usb_identify_device` leaves. -/
structure Registration where
  served : Bool
  descriptors : Usb.BlUsbDevice
  oldPort : Nat
  oldParent : HubPtr
  oldType : Nat
  /-- `bl_usb_get_hid_info` and `bl_usb_claim_keyboard` -/
  keyboardClaimed : Bool
  hubServed : Bool
  /-- `descriptor.ports` -/
  hubPorts : Byte
  arrayServed : Bool
  oldSlots : Nat → Nat
  behind : Vector Byte 11

/-! ## Registering a device -/

/-- `wValue` of SET_ADDRESS. -/
def setAddressValue (address : Nat) : Nat :=
  (Usb.blUsbSetupDataFill 0 0x05 address 0 0).value

/-- `told` is the address that the controller's own command gave to the device. -/
def blUsbDeviceRegister (hc : Nat) (told : Option Nat) (r : Registration) (s : BlUsb) :
    BlUsb × Option Nat :=
  if r.served then
    let controller := s.controllers hc
    let controller := if controller.type = .xhci then controller
      else { controller with devicesCount := controller.devicesCount + 1 }
    let device : BlUsbDevice := {
      address := controller.devicesCount
      port := r.oldPort
      parentHub := r.oldParent
      descriptors := r.descriptors
      controller := hc
      type := r.oldType
      hub := .null
      told := if controller.type = .xhci then told
        else some (setAddressValue controller.devicesCount) }
    ({ s with
        next := s.next + 1
        devices := Function.update s.devices s.next (some device)
        controllers := Function.update s.controllers hc controller }, some s.next)
  else (s, none)

def blUsbHubLinkDevice (h : HubPtr) (d port : Nat) (s : BlUsb) : Option BlUsb :=
  (s.devices d).bind fun device =>
    setSlot h (port - 1) d { s with
      devices := Function.update s.devices d (some { device with port, parentHub := h }) }

def deviceClass (device : Usb.BlUsbDevice) : Nat := (device.devDesc.getD 4 0).toNat

/-- The interfaces that the loops over `config.interfaces_count` see. -/
def interfaces (device : Usb.BlUsbDevice) : List Usb.BlUsbInterface :=
  (device.interfaces.getD []).take (Usb.interfacesCount device.config)

def isKeyboard (i : Usb.BlUsbInterface) : Bool :=
  i.descriptor.getD 5 0 = 3 ∧ i.descriptor.getD 7 0 = 1

def isStorage (i : Usb.BlUsbInterface) : Bool := i.descriptor.getD 5 0 = 8

def blUsbCheckKeyboard (r : Registration) (device : BlUsbDevice) : BlUsbDevice × Bool :=
  if (interfaces device.descriptors).any isKeyboard then
    ({ device with type := blUsbKeyboardDevice }, r.keyboardClaimed)
  else (device, false)

def blUsbCheckStorageDevice (device : BlUsbDevice) : BlUsbDevice :=
  if (interfaces device.descriptors).any isStorage then
    { device with type := blUsbStorageDevice }
  else device

/-- `!bl_usb_check_keyboard(device) || !bl_usb_check_storage_device(device)` -/
def checkInterfaces (r : Registration) (device : BlUsbDevice) : BlUsbDevice :=
  let (device, claimed) := blUsbCheckKeyboard r device
  if claimed then device else blUsbCheckStorageDevice device

theorem checkInterfaces_eq (r : Registration) (device : BlUsbDevice) :
    ∃ type, checkInterfaces r device = { device with type } := by
  unfold checkInterfaces blUsbCheckKeyboard blUsbCheckStorageDevice
  split_ifs <;> dsimp only <;> split_ifs <;> exact ⟨_, rfl⟩

/-- The hub and its array are in two blocks. Without the array, the hub's is freed. -/
def blUsbCheckHub (d : Nat) (device : BlUsbDevice) (r : Registration) (s : BlUsb) :
    Option BlUsb :=
  if r.hubServed = false then some s
  else if r.arrayServed = false then some { s with next := s.next + 1 }
  else
    (s.hubs device.parentHub).bind fun parent =>
      let i := parent.portChain.toList.findIdx (· = 0)
      if h : i < 5 then
        let hub : BlUsbHub := {
          ports := r.hubPorts.toNat
          devices := some (oldArray (r.hubPorts.toNat * sizeofUsbHub) r.oldSlots)
          portChain := parent.portChain.set i (BitVec.ofNat 8 device.port) h
          behind := r.behind
          device := some d
          next := none }
        some { s with
          next := s.next + 2
          devices := Function.update s.devices d
            (some { device with type := blUsbHubDevice, hub := .block s.next })
          hubs := Function.update s.hubs (.block s.next) (some hub) }
      else none

def blUsbDeviceRegisterSpecificInfo (d : Nat) (r : Registration) (s : BlUsb) : Option BlUsb :=
  (s.devices d).bind fun device =>
    match deviceClass device.descriptors with
    | 0x00 =>
      some { s with devices := Function.update s.devices d (some (checkInterfaces r device)) }
    | 0x09 => blUsbCheckHub d device r s
    | _ => some s

/-! ## A port -/

/-- What a root port answers. `speed` says whether a speed is delivered, and `addressed` whether
`bl_xhci_device_slot_init` comes to the Address Device command. -/
structure RootPort where
  connected : Bool
  speed : Bool
  addressed : Bool
  device : Registration

/-- `usb_device_address` of the slot context has eight bits. -/
def slotAddress (address : Nat) : Nat := address % 2 ^ 8

/-- `port_init` of xHCI, or the reset of a port of the others. -/
def rootPortInit (hc : Nat) (p : RootPort) (s : BlUsb) : BlUsb × Option Nat :=
  let controller := s.controllers hc
  if controller.type = .xhci then
    let address := controller.devicesCount + 1
    ({ s with controllers :=
        Function.update s.controllers hc { controller with devicesCount := address } },
      if p.speed ∧ p.addressed then some (slotAddress address) else none)
  else (s, none)

/-- A turn of the loop of `bl_usb_hub_root_register`. -/
def rootPort (hc i : Nat) (p : RootPort) (s : BlUsb) : Option BlUsb :=
  if p.connected = false then setSlot (.root hc) i 0 s
  else
    let (s, told) := rootPortInit hc p s
    if p.speed = false then setSlot (.root hc) i 0 s
    else
      match blUsbDeviceRegister hc told p.device s with
      | (s, none) => setSlot (.root hc) i 0 s
      | (s, some d) =>
        (blUsbHubLinkDevice (.root hc) d (i + 1) s).bind
          (blUsbDeviceRegisterSpecificInfo d p.device)

/-- What a port of a hub answers: `port_change`, `port_status`, and the device. -/
structure HubPort where
  connectChange : Bool
  connected : Bool
  device : Registration

def RootPort.Registers (p : RootPort) : Prop :=
  p.connected = true ∧ p.speed = true ∧ p.device.served = true

def HubPort.Registers (p : HubPort) : Prop :=
  p.connectChange = true ∧ p.connected = true ∧ p.device.served = true

/-- A turn of the loop of `bl_usb_hub_poll`, and the hub that is pushed. -/
def hubPort (h : HubPtr) (i : Nat) (p : HubPort) (s : BlUsb) : Option (BlUsb × Option HubPtr) :=
  (s.hubs h).bind fun hub => (hub.device.bind s.devices).bind fun device =>
    if p.connectChange && p.connected then
      match blUsbDeviceRegister device.controller none p.device s with
      | (s, none) => some (s, none)
      | (s, some d) =>
        (blUsbHubLinkDevice h d i s).bind fun s =>
          (blUsbDeviceRegisterSpecificInfo d p.device s).bind fun s =>
            (s.devices d).map fun device =>
              (s, if device.type = blUsbHubDevice then some device.hub else none)
    else some (s, none)

/-! ## The list of hubs still to be visited -/

/-- `waiting` are `hubs[head]` to `hubs[tail - 1]`. -/
structure BlUsbTraversal where
  tail : Nat
  waiting : List HubPtr

def blUsbTraversalPush (t : BlUsbTraversal) (h : HubPtr) : BlUsbTraversal :=
  if t.tail < 127 - 1 then ⟨t.tail + 1, t.waiting ++ [h]⟩ else t

/-- `bl_usb_traversal_init`, and the first push. -/
def traversalOf (h : HubPtr) : BlUsbTraversal := blUsbTraversalPush ⟨0, []⟩ h

/-! ## Reading the tree -/

/-- The loop over `port_chain`: it ends inside the hub's block. -/
def BlUsbHub.chainEnds (hub : BlUsbHub) : Bool :=
  (hub.portChain.toList ++ hub.behind.toList).contains 0

/-- A hub prints its own chain, another device that of the hub it is on. -/
def blUsbDumpDeviceId (s : BlUsb) (device : BlUsbDevice) : Option Unit :=
  (s.hubs (if device.type = blUsbHubDevice then device.hub else device.parentHub)).bind fun hub =>
    if hub.chainEnds then some () else none

def dumpSlot (s : BlUsb) (hub : BlUsbHub) (t : BlUsbTraversal) (i : Nat) :
    Option BlUsbTraversal :=
  (hub.slot i).bind fun slot =>
    if slot = 0 then some t
    else
      (s.devices slot).bind fun device =>
        (blUsbDumpDeviceId s device).map fun _ =>
          if device.type = blUsbHubDevice then blUsbTraversalPush t device.hub else t

/-- The `while` loop. Each turn takes a hub out of the list. -/
def dumpHubs (s : BlUsb) : Nat → BlUsbTraversal → Option Unit
  | _, ⟨_, []⟩ => some ()
  | 0, ⟨_, _ :: _⟩ => none
  | fuel + 1, ⟨tail, h :: rest⟩ =>
    (s.hubs h).bind fun hub =>
      ((List.range hub.ports).foldlM (dumpSlot s hub) ⟨tail, rest⟩).bind (dumpHubs s fuel)

/-- No more than 126 hubs are ever pushed. -/
def blUsbDumpHostControllerDevices (hc : Nat) (served : Bool) (s : BlUsb) : Option Unit :=
  if served then dumpHubs s 126 (traversalOf (.root hc)) else none

/-! ## The calls, step by step -/

/-- What is called where nothing is being done. `served` says whether the array of a root hub, or
the list of a traversal, gets its block. -/
inductive Call where
  | rootRegister (hc : Nat) (served : Bool) (oldSlots : Nat → Nat)
  | poll
  | dump (hc : Nat) (served : Bool)

/-- What is called or answered next. `served` is about the list of a traversal. -/
structure Input where
  call : Call
  root : RootPort
  hub : HubPort
  served : Bool

inductive Control where
  | idle
  /-- `bl_usb_hub_root_register`, before port `i` -/
  | rootPorts (hc i : Nat)
  /-- `bl_usb_poll`, before port `i` of the root hub -/
  | pollRoot (root : Option Nat) (i : Nat)
  /-- `bl_usb_hub_poll` for it, before a hub is popped -/
  | hubs (root i : Nat) (t : BlUsbTraversal)
  /-- before port `port` of that hub -/
  | hubPorts (root i : Nat) (t : BlUsbTraversal) (h : HubPtr) (port : Nat)

structure State where
  control : Control
  usb : BlUsb

/-- What `bl_usb_hub_root_register` does before its loop. It returns where the array is not served,
before the chain is cleared; a root hub without an array has no use for its chain. -/
def rootRegister (hc : Nat) (served : Bool) (oldSlots : Nat → Nat) (s : BlUsb) : State :=
  let ports := (s.controllers hc).rootPorts
  let hub : BlUsbHub := {
    ports
    devices := if served then some (oldArray (ports * sizeofUsbDevice) oldSlots) else none
    portChain := Vector.replicate 5 0
    behind := Vector.replicate 11 0
    device := none
    next := (s.hubs (.root hc)).bind BlUsbHub.next }
  ⟨if served then .rootPorts hc 0 else .idle,
    { s with next := s.next + 1, hubs := Function.update s.hubs (.root hc) (some hub) }⟩

/-- The root hub becomes the first of the list. -/
def rootLink (hc : Nat) (s : BlUsb) : Option BlUsb :=
  (s.hubs (.root hc)).map fun hub =>
    { s with
      hubs := Function.update s.hubs (.root hc) (some { hub with next := s.rootHubs })
      rootHubs := some hc }

def step (input : Input) (st : State) : Option State :=
  let s := st.usb
  match st.control with
  | .idle =>
    match input.call with
    | .rootRegister hc served oldSlots => some (rootRegister hc served oldSlots s)
    | .poll => some ⟨.pollRoot s.rootHubs 0, s⟩
    | .dump hc served => (blUsbDumpHostControllerDevices hc served s).map fun _ => st
  | .rootPorts hc i =>
    (s.hubs (.root hc)).bind fun hub =>
      if i < hub.ports then
        (rootPort hc i input.root s).map fun s => ⟨.rootPorts hc (i + 1), s⟩
      else (rootLink hc s).map fun s => ⟨.idle, s⟩
  | .pollRoot none _ => some ⟨.idle, s⟩
  | .pollRoot (some hc) i =>
    (s.hubs (.root hc)).bind fun hub =>
      if i < hub.ports then
        -- an empty port is followed too
        ((hub.slot i).bind s.devices).bind fun device =>
          if device.type = blUsbHubDevice then
            if input.served then some ⟨.hubs hc i (traversalOf device.hub), s⟩ else none
          else some ⟨.pollRoot (some hc) (i + 1), s⟩
      else some ⟨.pollRoot hub.next 0, s⟩
  | .hubs hc i t =>
    match t.waiting with
    | [] => some ⟨.pollRoot (some hc) (i + 1), s⟩
    | h :: rest => some ⟨.hubPorts hc i { t with waiting := rest } h 1, s⟩
  | .hubPorts hc i t h port =>
    (s.hubs h).bind fun hub =>
      if port ≤ hub.ports then
        (hubPort h port input.hub s).map fun (s, pushed) =>
          ⟨.hubPorts hc i (pushed.elim t (blUsbTraversalPush t)) h (port + 1), s⟩
      else some ⟨.hubs hc i t, s⟩

/-! ## The tree of a host controller -/

/-- The slot `i` of the hub at `h` holds the device `d`. -/
structure Holds (s : BlUsb) (h : HubPtr) (hub : BlUsbHub) (i d : Nat) (device : BlUsbDevice) :
    Prop where
  hub_eq : s.hubs h = some hub
  port : i < hub.ports
  slot_eq : hub.slot i = some d
  device_eq : s.devices d = some device

/-- The hubs that are reached from a root hub. -/
inductive InTree (s : BlUsb) (hc : Nat) : HubPtr → Prop
  | root : InTree s hc (.root hc)
  | hub {h : HubPtr} {hub : BlUsbHub} {i d : Nat} {device : BlUsbDevice} (htree : InTree s hc h)
      (hholds : Holds s h hub i d device) (htype : device.type = blUsbHubDevice) :
      InTree s hc device.hub

/-- The device `d` is registered on the host controller, and linked in its tree. -/
def Linked (s : BlUsb) (hc d : Nat) (device : BlUsbDevice) : Prop :=
  device.controller = hc ∧ ∃ h hub i, InTree s hc h ∧ Holds s h hub i d device

/-- What `bl_usb_setup` starts from: nothing is registered, and `devices_count` is zero. -/
def setup (controllers : Nat → BlUsbHostController) : BlUsb where
  next := 1
  devices _ := none
  hubs _ := none
  controllers hc := { controllers hc with devicesCount := 0 }
  rootHubs := none

/-! Devices over blocks of zeros, and controllers with one port. -/

def plainDevice : Registration where
  served := true
  descriptors := ⟨[], [], none⟩
  oldPort := 0
  oldParent := .null
  oldType := 0
  keyboardClaimed := false
  hubServed := true
  hubPorts := 1
  arrayServed := true
  oldSlots _ := 0
  behind := Vector.replicate 11 0

def hubDevice : Registration := { plainDevice with descriptors := ⟨[18, 1, 0, 2, 9], [], none⟩ }

def onePort (type : BlUsbHostControllerType) (_ : Nat) : BlUsbHostController := ⟨type, 1, 0⟩

end BootLoader.UsbHub
