import BootLoader.Lib.Objects
import BootLoader.Lib.Runs
import BootLoader.Usb.Hub

/-!
# The topology of the devices

What is built over blocks with any content is read back by following every slot and every type.
-/

open ByteMemory Objects

namespace BootLoader.UsbHub

variable {s s' : BlUsb} {h : HubPtr} {hub : BlUsbHub} {i d : Nat} {device : BlUsbDevice}
  {finished finished' : HubPtr → Nat → Nat}

/-- The slot `i` is null, or a device that is linked there. -/
def SlotOk (s : BlUsb) (h : HubPtr) (i slot : Nat) : Prop :=
  slot = 0 ∨ ∃ device, s.devices slot = some device ∧ device.port = i + 1 ∧ device.parentHub = h

/-- The device's own hub, built for it. -/
def HubOf (s : BlUsb) (d : Nat) (device : BlUsbDevice) : Prop :=
  ∃ b hub, device.hub = .block b ∧ s.hubs (.block b) = some hub ∧ hub.device = some d

/-- The tree of a host controller, as it should be. -/
structure WellFormed (s : BlUsb) (hc : Nat) : Prop where
  slots : ∀ h hub, InTree s hc h → s.hubs h = some hub → ∀ i < hub.ports,
    ∃ slot, hub.slot i = some slot ∧ SlotOk s h i slot
  hubs : ∀ h hub i d device, InTree s hc h → Holds s h hub i d device →
    device.type = blUsbHubDevice → HubOf s d device

/-! ## The condition -/

/-- No check gives the device a type. -/
def Registration.Untyped (r : Registration) : Prop :=
  match deviceClass r.descriptors with
  | 0x00 => (interfaces r.descriptors).any isKeyboard = false ∧
      (interfaces r.descriptors).any isStorage = false
  | 0x09 => r.hubServed = false ∨ r.arrayServed = false
  | _ => True

def Registration.BuildsHub (r : Registration) : Prop :=
  deviceClass r.descriptors = 0x09 ∧ r.hubServed = true ∧ r.arrayServed = true

/-- What the blocks held before does no harm. The bus has no more than five hubs one behind the
other, and the chain of the fifth ends by what follows it. -/
structure Registration.Clean (parent : BlUsbHub) (r : Registration) : Prop where
  type : r.Untyped → r.oldType ≠ blUsbHubDevice
  slots : r.BuildsHub → ∀ i < r.hubPorts.toNat, r.oldSlots i = 0
  bus : r.BuildsHub → (0 : Byte) ∈ parent.portChain.toList
  chain : r.BuildsHub → (0 : Byte) ∈ parent.portChain.toList.take 4 ∨ (0 : Byte) ∈ r.behind.toList

/-- Nothing is taken for granted that is not there: a root hub gets its array, a traversal its
list, no root port is empty when it is polled, and old contents do no harm. -/
def Input.Clean (input : Input) (st : State) : Prop :=
  match st.control with
  | .idle =>
    match input.call with
    | .rootRegister hc served _ => served = true ∨ (st.usb.controllers hc).rootPorts = 0
    | .poll => True
    | .dump hc served => served = true ∧ st.usb.hubs (.root hc) ≠ none
  | .rootPorts hc _ => input.root.Registers → ∀ hub, st.usb.hubs (.root hc) = some hub →
      input.root.device.Clean hub
  | .pollRoot (some hc) i => ∀ hub, st.usb.hubs (.root hc) = some hub → i < hub.ports →
      hub.slot i ≠ some 0 ∧ ∀ d device, Holds st.usb (.root hc) hub i d device →
        device.type = blUsbHubDevice → input.served = true
  | .hubPorts _ _ _ h _ => input.hub.Registers → ∀ hub, st.usb.hubs h = some hub →
      input.hub.device.Clean hub
  | _ => True

/-! ## The invariant -/

/-- Behind its first zero, the chain is zero; and there is a zero before the block ends. -/
structure ChainOk (hub : BlUsbHub) : Prop where
  zeros : ∀ j < 4, hub.portChain.toList.getD j 0 = 0 → hub.portChain.toList.getD (j + 1) 0 = 0
  ends : hub.chainEnds = true

/-- Of the slots of the hub at `h`, the first `finished h hub.ports` are written. -/
structure Tree (s : BlUsb) (finished : HubPtr → Nat → Nat) : Prop where
  next_pos : 1 ≤ s.next
  freshDevice : ∀ d, s.next ≤ d → s.devices d = none
  freshHub : ∀ b, s.next ≤ b → s.hubs (.block b) = none
  noDevice : s.devices 0 = none
  noHub : s.hubs .null = none
  slots : ∀ {h hub}, s.hubs h = some hub → ∀ i < finished h hub.ports,
    ∃ slot, hub.slot i = some slot ∧ SlotOk s h i slot
  room : ∀ {h hub}, s.hubs h = some hub → ∀ i < hub.ports, ∃ slot, hub.slot i = some slot
  owner : ∀ {b hub}, s.hubs (.block b) = some hub →
    ∃ d device, hub.device = some d ∧ s.devices d = some device
  hubs : ∀ {d device}, s.devices d = some device → device.type = blUsbHubDevice → HubOf s d device
  chain : ∀ {h hub}, s.hubs h = some hub → ChainOk hub
  first : ∀ {hc}, s.rootHubs = some hc → s.hubs (.root hc) ≠ none
  following : ∀ {hc hub hc'}, s.hubs (.root hc) = some hub → hub.next = some hc' →
    s.hubs (.root hc') ≠ none

/-! ## Writing a slot -/

def BlUsbHub.withSlot (hub : BlUsbHub) (i device : Nat) : BlUsbHub :=
  { hub with devices := hub.devices.map fun slots => slots.set i device }

theorem slot_eq_some_iff {slot : Nat} : hub.slot i = some slot ↔
    ∃ slots, hub.devices = some slots ∧ slots[i]? = some slot := Option.bind_eq_some_iff

theorem withSlot_slot {slot : Nat} (hroom : ∃ slot, hub.slot i = some slot) (j : Nat) :
    (hub.withSlot i slot).slot j = if j = i then some slot else hub.slot j := by
  obtain ⟨old, hold⟩ := hroom
  obtain ⟨slots, hslots, hin⟩ := slot_eq_some_iff.mp hold
  have hi : i < slots.length := (List.getElem?_eq_some_iff.mp hin).1
  simp only [BlUsbHub.slot, BlUsbHub.withSlot, hslots, Option.map_some, Option.bind_some]
  by_cases hj : j = i
  · subst hj
    rw [List.getElem?_set_self hi, if_pos rfl]
  · rw [List.getElem?_set_ne (Ne.symm hj), if_neg hj]

theorem setSlot_eq {slot : Nat} (hhub : s.hubs h = some hub)
    (hroom : ∃ slot, hub.slot i = some slot) : setSlot h i slot s =
      some { s with hubs := Function.update s.hubs h (some (hub.withSlot i slot)) } := by
  obtain ⟨old, hold⟩ := hroom
  obtain ⟨slots, hslots, hin⟩ := slot_eq_some_iff.mp hold
  have hi : i < slots.length := (List.getElem?_eq_some_iff.mp hin).1
  simp [setSlot, hhub, hslots, hi, BlUsbHub.withSlot]

/-- Which slots are finished after slot `i` of `h` is written. -/
def Finishes (finished finished' : HubPtr → Nat → Nat) (h : HubPtr) (i : Nat) : Prop :=
  ∀ h' n j, j < finished' h' n → j < finished h' n ∨ h' = h ∧ j = i

theorem Tree.write (hs : Tree s finished) {slot : Nat} (hhub : s.hubs h = some hub)
    (hroom : ∃ slot, hub.slot i = some slot) (hslot : SlotOk s h i slot)
    (hfinishes : Finishes finished finished' h i) :
    Tree { s with hubs := Function.update s.hubs h (some (hub.withSlot i slot)) } finished' := by
  have hsome : s.hubs h ≠ none := by simp [hhub]
  constructor
  case next_pos => exact hs.next_pos
  case freshDevice => exact hs.freshDevice
  case noDevice => exact hs.noDevice
  case first => exact fun hfirst => update_ne_none (hs.first hfirst)
  case freshHub => exact fun b hb => update_eq_none hsome (hs.freshHub b hb)
  case noHub => exact update_eq_none hsome hs.noHub
  case slots =>
    intro h' hub' hget j hj
    rcases update_eq_some hget with ⟨rfl, rfl⟩ | ⟨hother, hget⟩
    · rw [withSlot_slot hroom]
      rcases hfinishes _ _ _ hj with hold | ⟨-, rfl⟩
      · by_cases heq : j = i
        · subst heq
          exact ⟨slot, if_pos rfl, hslot⟩
        · rw [if_neg heq]
          exact hs.slots hhub j hold
      · exact ⟨slot, if_pos rfl, hslot⟩
    · rcases hfinishes _ _ _ hj with hold | ⟨heq, -⟩
      · exact hs.slots hget j hold
      · exact absurd heq hother
  case room =>
    intro h' hub' hget j hj
    rcases update_eq_some hget with ⟨rfl, rfl⟩ | ⟨-, hget⟩
    · rw [withSlot_slot hroom]
      split_ifs
      · exact ⟨_, rfl⟩
      · exact hs.room hhub j hj
    · exact hs.room hget j hj
  case owner =>
    intro b hub' hget
    rcases update_eq_some hget with ⟨rfl, rfl⟩ | ⟨-, hget⟩
    · have howner := hs.owner hhub
      exact howner
    · exact hs.owner hget
  case hubs =>
    intro d device hdevice htype
    obtain ⟨b, own, hptr, hget, hown⟩ := hs.hubs hdevice htype
    by_cases heq : HubPtr.block b = h
    · subst heq
      obtain rfl := Option.some.inj (hhub.symm.trans hget)
      exact ⟨b, _, hptr, Function.update_self _ _ _, hown⟩
    · exact ⟨b, own, hptr, (Function.update_of_ne heq _ _).trans hget, hown⟩
  case chain =>
    intro h' hub' hget
    rcases update_eq_some hget with ⟨rfl, rfl⟩ | ⟨-, hget⟩
    · exact ⟨(hs.chain hhub).zeros, (hs.chain hhub).ends⟩
    · exact hs.chain hget
  case following =>
    intro hc hub' hc' hget hnext
    rcases update_eq_some hget with ⟨hroot, rfl⟩ | ⟨-, hget⟩
    · rw [← hroot] at hhub
      have hnext' := hs.following hhub hnext
      exact update_ne_none hnext'
    · exact update_ne_none (hs.following hget hnext)

/-! ## A new device, with its hub if it is one -/

theorem SlotOk.mono {devices : Nat → Option BlUsbDevice} {slot : Nat} (hslot : SlotOk s h i slot)
    (hdevices : ∀ d device, s.devices d = some device → devices d = some device)
    (hs' : s'.devices = devices) : SlotOk s' h i slot := by
  rcases hslot with hnull | ⟨device, hdevice, hport, hparent⟩
  · exact .inl hnull
  · exact .inr ⟨device, hs' ▸ hdevices _ _ hdevice, hport, hparent⟩

theorem Tree.addDevice (hs : Tree s finished) {next : Nat} (hnext : s.next < next)
    (htype : device.type ≠ blUsbHubDevice)
    (controllers : Nat → BlUsbHostController) :
    Tree { s with
      next, controllers
      devices := Function.update s.devices s.next (some device) } finished := by
  have hfresh : s.devices s.next = none := hs.freshDevice _ le_rfl
  constructor
  case next_pos => exact hs.next_pos.trans hnext.le
  case freshDevice =>
    intro d hd
    have hlt : s.next < d := hnext.trans_le hd
    exact (Function.update_of_ne hlt.ne' _ _).trans (hs.freshDevice d hlt.le)
  case freshHub => exact fun b hb => hs.freshHub b (hnext.le.trans hb)
  case noDevice =>
    exact (Function.update_of_ne (Nat.ne_of_lt hs.next_pos) _ _).trans hs.noDevice
  case noHub => exact hs.noHub
  case slots =>
    intro h hub hget j hj
    obtain ⟨slot, hslot, hok⟩ := hs.slots hget j hj
    exact ⟨slot, hslot, hok.mono (fun _ _ hd => update_fresh hfresh hd) rfl⟩
  case room => exact hs.room
  case owner =>
    intro b hub hget
    obtain ⟨d, owner, hd, howner⟩ := hs.owner hget
    exact ⟨d, owner, hd, update_fresh hfresh howner⟩
  case hubs =>
    intro d device' hd htype'
    rcases update_eq_some hd with ⟨-, rfl⟩ | ⟨-, hd⟩
    · exact absurd htype' htype
    · obtain ⟨b, hub, hptr, hget, hown⟩ := hs.hubs hd htype'
      exact ⟨b, hub, hptr, hget, hown⟩
  case chain => exact hs.chain
  case first => exact hs.first
  case following => exact hs.following

theorem Tree.device_lt (hs : Tree s finished) (hdevice : s.devices d = some device) :
    d < s.next := by
  by_contra hle
  rw [hs.freshDevice d (Nat.le_of_not_lt hle)] at hdevice
  cases hdevice

/-- A device that gets its hub keeps its port and its parent. -/
theorem device_of_typed (hdevice : s.devices d = some device) (type : Nat) (ptr : HubPtr)
    {d' : Nat} {device' : BlUsbDevice} (hd' : s.devices d' = some device') :
    ∃ device'', Function.update s.devices d (some { device with type, hub := ptr }) d' =
      some device'' ∧ device''.port = device'.port ∧ device''.parentHub = device'.parentHub := by
  by_cases heq : d' = d
  · subst heq
    obtain rfl := Option.some.inj (hdevice.symm.trans hd')
    exact ⟨_, Function.update_self _ _ _, rfl, rfl⟩
  · exact ⟨device', (Function.update_of_ne heq _ _).trans hd', rfl, rfl⟩

theorem Tree.addHub (hs : Tree s finished) {b next : Nat} (hb : s.next ≤ b) (hnext : b < next)
    (hdevice : s.devices d = some device) (howner : hub.device = some d)
    (hempty : ∀ i < hub.ports, hub.slot i = some 0) (hchain : ChainOk hub)
    (hfinished : ∀ n, finished (.block b) n ≤ n) :
    Tree { s with
      next
      devices := Function.update s.devices d
        (some { device with type := blUsbHubDevice, hub := .block b })
      hubs := Function.update s.hubs (.block b) (some hub) } finished := by
  have hfresh : s.hubs (.block b) = none := hs.freshHub b hb
  have hd : d < s.next := hs.device_lt hdevice
  constructor
  case next_pos => exact hs.next_pos.trans (hb.trans hnext.le)
  case freshDevice =>
    intro d' hd'
    have hle : s.next ≤ d' := hb.trans (hnext.le.trans hd')
    exact (Function.update_of_ne (hd.trans_le hle).ne' _ _).trans (hs.freshDevice d' hle)
  case freshHub =>
    intro b' hb'
    have hlt : b < b' := hnext.trans_le hb'
    refine (Function.update_of_ne ?_ _ _).trans (hs.freshHub b' (hb.trans hlt.le))
    simpa using hlt.ne'
  case noDevice => exact update_eq_none (by simp [hdevice]) hs.noDevice
  case noHub =>
    have hne : HubPtr.null ≠ .block b := by simp
    dsimp only
    rw [Function.update_of_ne hne]
    exact hs.noHub
  case slots =>
    intro h' hub' hget j hj
    rcases update_eq_some hget with ⟨rfl, rfl⟩ | ⟨-, hget⟩
    · exact ⟨0, hempty j (hj.trans_le (hfinished _)), .inl rfl⟩
    · obtain ⟨slot, hslot, hok⟩ := hs.slots hget j hj
      refine ⟨slot, hslot, hok.imp_right ?_⟩
      rintro ⟨device', hd', hport, hparent⟩
      obtain ⟨device'', hd'', hport', hparent'⟩ :=
        device_of_typed hdevice blUsbHubDevice (.block b) hd'
      exact ⟨device'', hd'', hport'.trans hport, hparent'.trans hparent⟩
  case room =>
    intro h' hub' hget j hj
    rcases update_eq_some hget with ⟨rfl, rfl⟩ | ⟨-, hget⟩
    · exact ⟨0, hempty j hj⟩
    · exact hs.room hget j hj
  case owner =>
    intro b' hub' hget
    rcases update_eq_some hget with ⟨-, rfl⟩ | ⟨-, hget⟩
    · exact ⟨d, _, howner, Function.update_self _ _ _⟩
    · obtain ⟨d', owner, hown, hd'⟩ := hs.owner hget
      obtain ⟨device'', hd'', -, -⟩ := device_of_typed hdevice blUsbHubDevice (.block b) hd'
      exact ⟨d', device'', hown, hd''⟩
  case hubs =>
    intro d' device' hd' htype'
    rcases update_eq_some hd' with ⟨rfl, rfl⟩ | ⟨-, hd'⟩
    · exact ⟨b, hub, rfl, Function.update_self _ _ _, howner⟩
    · obtain ⟨b', hub', hptr, hget, hown⟩ := hs.hubs hd' htype'
      exact ⟨b', hub', hptr, update_fresh hfresh hget, hown⟩
  case chain =>
    intro h' hub' hget
    rcases update_eq_some hget with ⟨-, rfl⟩ | ⟨-, hget⟩
    · exact hchain
    · exact hs.chain hget
  case first =>
    intro hc hfirst
    dsimp only
    exact update_ne_none (hs.first hfirst)
  case following =>
    intro hc hub' hc' hget hnext'
    dsimp only at hget ⊢
    rcases update_eq_some hget with ⟨heq, -⟩ | ⟨-, hget⟩
    · cases heq
    · exact update_ne_none (hs.following hget hnext')

/-! ## The chain of a new hub -/

theorem firstZero_lt {chain : Vector Byte 5} (h : (0 : Byte) ∈ chain.toList) :
    chain.toList.findIdx (· = 0) < 5 := by
  have hlt := @List.findIdx_lt_length_of_exists _ (fun x : Byte => decide (x = 0)) _
    ⟨0, h, by simp⟩
  simpa using hlt

theorem getD_set {l : List Byte} {k : Nat} (hk : k < l.length) (b : Byte) (j : Nat) :
    (l.set k b).getD j 0 = if j = k then b else l.getD j 0 := by
  by_cases hj : j = k
  · subst hj
    simp [hk]
  · rw [if_neg hj, List.getD_eq_getElem?_getD, List.getElem?_set_ne (Ne.symm hj),
      List.getD_eq_getElem?_getD]

theorem ChainOk.extend {parent : BlUsbHub} (hparent : ChainOk parent) {port : Byte}
    (hlt : parent.portChain.toList.findIdx (· = 0) < 5)
    (hroom : (0 : Byte) ∈ parent.portChain.toList.take 4 ∨ (0 : Byte) ∈ hub.behind.toList)
    (hchain : hub.portChain = parent.portChain.set _ port hlt) : ChainOk hub := by
  have hlist : hub.portChain.toList =
      parent.portChain.toList.set (parent.portChain.toList.findIdx (· = 0)) port := by
    rw [hchain]
    rfl
  have hlength : parent.portChain.toList.length = 5 := by simp
  have hzeros := hparent.zeros
  generalize parent.portChain.toList = l at hlist hlength hzeros hroom hlt
  have hbefore : ∀ j < l.findIdx (· = 0), l.getD j 0 ≠ 0 := by
    intro j hj
    have hnot := List.not_of_lt_findIdx hj
    rw [List.getD_eq_getElem?_getD, List.getElem?_eq_getElem (by omega), Option.getD_some]
    simpa using hnot
  have hfirst : l.getD (l.findIdx (· = 0)) 0 = 0 := by
    have hin : l.findIdx (· = 0) < l.length := by omega
    have hp := @List.findIdx_getElem _ (fun x : Byte => decide (x = 0)) l hin
    rw [List.getD_eq_getElem?_getD, List.getElem?_eq_getElem hin, Option.getD_some]
    simpa using hp
  generalize l.findIdx (· = 0) = k at hlist hlt hbefore hfirst
  have hk : k < l.length := by omega
  constructor
  · intro j hj hzero
    rw [hlist, getD_set hk] at hzero ⊢
    by_cases hjk : j + 1 = k
    · rw [if_neg (by omega)] at hzero
      exact absurd hzero (hbefore j (by omega))
    · rw [if_neg hjk]
      by_cases heq : j = k
      · subst heq
        exact hzeros j hj hfirst
      · rw [if_neg heq] at hzero
        exact hzeros j hj hzero
  · rw [BlUsbHub.chainEnds, List.contains_iff_mem, List.mem_append]
    by_cases hlast : k < 4
    · left
      rw [hlist]
      have hnext : (l.set k port).getD (k + 1) 0 = 0 := by
        rw [getD_set hk, if_neg (by omega)]
        exact hzeros k hlast hfirst
      rw [List.getD_eq_getElem?_getD, List.getElem?_eq_getElem (by simp; omega),
        Option.getD_some] at hnext
      exact hnext ▸ List.getElem_mem _
    · refine .inr (hroom.resolve_left fun hmem => ?_)
      obtain ⟨j, hj, hzero⟩ := List.getElem_of_mem hmem
      have hj4 : j < 4 := by
        rw [List.length_take] at hj
        omega
      refine hbefore j (by omega) ?_
      rw [List.getElem_take] at hzero
      rw [List.getD_eq_getElem?_getD, List.getElem?_eq_getElem (by omega), Option.getD_some, hzero]

/-! ## A device is registered and linked -/

section

variable {r : Registration} {port : Nat}

theorem Tree.link (hs : Tree s finished) {next : Nat} (hnext : s.next < next)
    (hhub : s.hubs h = some hub) (hi : i < hub.ports) (hport : device.port = i + 1)
    (hparent : device.parentHub = h) (htype : device.type ≠ blUsbHubDevice)
    (hfinishes : Finishes finished finished' h i)
    (controllers : Nat → BlUsbHostController) :
    Tree { s with
      next, controllers
      devices := Function.update s.devices s.next (some device)
      hubs := Function.update s.hubs h (some (hub.withSlot i s.next)) } finished' :=
  (hs.addDevice hnext htype controllers).write hhub (hs.room hhub i hi)
    (.inr ⟨device, Function.update_self _ _ _, hport, hparent⟩) hfinishes

theorem checkInterfaces_type (hclass : deviceClass r.descriptors = 0)
    (hdescriptors : device.descriptors = r.descriptors) (htype : device.type = r.oldType)
    (hclean : r.Untyped → r.oldType ≠ blUsbHubDevice) :
    (checkInterfaces r device).type ≠ blUsbHubDevice := by
  unfold checkInterfaces blUsbCheckKeyboard blUsbCheckStorageDevice
  rw [hdescriptors]
  cases hkeyboard : (interfaces r.descriptors).any isKeyboard <;>
    cases hstorage : (interfaces r.descriptors).any isStorage <;>
      cases hclaimed : r.keyboardClaimed <;>
        simp [blUsbHubDevice, blUsbKeyboardDevice, blUsbStorageDevice, htype, hdescriptors,
          hstorage]
  all_goals
    refine hclean ?_
    simp [Registration.Untyped, hclass, hkeyboard, hstorage]

theorem untyped_of_class (hzero : deviceClass r.descriptors ≠ 0x00)
    (hnine : deviceClass r.descriptors ≠ 0x09) : r.Untyped := by
  unfold Registration.Untyped
  split
  · contradiction
  · contradiction
  · trivial

def attached (s : BlUsb) (h : HubPtr) (hub : BlUsbHub) (i next : Nat)
    (controllers : Nat → BlUsbHostController) (device : BlUsbDevice) : BlUsb :=
  { s with
    next, controllers
    devices := Function.update s.devices s.next (some device)
    hubs := Function.update s.hubs h (some (hub.withSlot i s.next)) }

structure Attached (s s' : BlUsb) (finished' : HubPtr → Nat → Nat) : Prop where
  tree : Tree s' finished'
  device : s'.devices s.next ≠ none
  kept : ∀ h, s.hubs h ≠ none → s'.hubs h ≠ none

theorem attached_noHub (hs : Tree s finished) {next : Nat} (hnext : s.next < next)
    (hhub : s.hubs h = some hub) (hi : i < hub.ports) (hport : device.port = i + 1)
    (hparent : device.parentHub = h) (htype : device.type ≠ blUsbHubDevice)
    (hfinishes : Finishes finished finished' h i) (controllers : Nat → BlUsbHostController) :
    Attached s (attached s h hub i next controllers device) finished' where
  tree := hs.link hnext hhub hi hport hparent htype hfinishes controllers
  device := by simp [attached]
  kept _ hsome := update_ne_none hsome

theorem oldArray_zero {size : Nat} {oldSlots : Nat → Nat} (hi : i < size)
    (hzero : oldSlots i = 0) :
    (oldArray (size * sizeofUsbHub) oldSlots)[i]? = some 0 := by
  have hlt : i < size * sizeofUsbHub / sizeofPointer := by
    unfold sizeofUsbHub sizeofPointer
    omega
  simp [oldArray, hlt, hzero]

theorem blUsbCheckHub_attached (hs : Tree s finished) (hhub : s.hubs h = some hub)
    (hi : i < hub.ports) (hport : device.port = i + 1) (hparent : device.parentHub = h)
    (hclass : deviceClass r.descriptors = 0x09) (htype : device.type = r.oldType)
    (hclean : r.Clean hub) (hfinishes : Finishes finished finished' h i)
    (hblock : ∀ b n, finished' (.block b) n ≤ n) (controllers : Nat → BlUsbHostController) :
    ∃ s', blUsbCheckHub s.next device r
        (attached s h hub i (s.next + 1) controllers device) = some s' ∧
      Attached s s' finished' := by
  unfold blUsbCheckHub
  have hnot : r.hubServed = false ∨ r.arrayServed = false → device.type ≠ blUsbHubDevice := by
    intro hfails
    rw [htype]
    refine hclean.type ?_
    simpa [Registration.Untyped, hclass] using hfails
  by_cases hserved : r.hubServed = false
  · rw [if_pos hserved]
    exact ⟨_, rfl, attached_noHub hs (Nat.lt_succ_self _) hhub hi hport hparent
      (hnot (.inl hserved)) hfinishes controllers⟩
  by_cases harray : r.arrayServed = false
  · rw [if_neg hserved, if_pos harray]
    exact ⟨_, rfl, attached_noHub hs (Nat.lt_add_of_pos_right Nat.two_pos) hhub hi hport hparent
      (hnot (.inr harray)) hfinishes controllers⟩
  have hbuilds : r.BuildsHub := ⟨hclass, by simpa using hserved, by simpa using harray⟩
  have hlt := firstZero_lt (hclean.bus hbuilds)
  have hfound : (attached s h hub i (s.next + 1) controllers device).hubs device.parentHub =
      some (hub.withSlot i s.next) := by
    rw [hparent]
    exact Function.update_self _ _ _
  rw [if_neg hserved, if_neg harray, hfound, Option.bind_some]
  dsimp only
  have hlt' : (hub.withSlot i s.next).portChain.toList.findIdx (· = 0) < 5 := hlt
  rw [dif_pos hlt']
  refine ⟨_, rfl, ?_⟩
  -- the device as a device of no type, and then with its hub
  let plain : BlUsbDevice := { device with type := 0 }
  have hplain : Tree (attached s h hub i (s.next + 1) controllers plain) finished' := by
    have hport' : plain.port = i + 1 := hport
    have hparent' : plain.parentHub = h := hparent
    have htype' : plain.type ≠ blUsbHubDevice := Nat.zero_ne_one
    exact hs.link (Nat.lt_succ_self _) hhub hi hport' hparent' htype' hfinishes controllers
  have hthere : (attached s h hub i (s.next + 1) controllers plain).devices s.next = some plain :=
    Function.update_self _ _ _
  let built : BlUsbHub := {
    ports := r.hubPorts.toNat
    devices := some (oldArray (r.hubPorts.toNat * sizeofUsbHub) r.oldSlots)
    portChain := hub.portChain.set _ (BitVec.ofNat 8 device.port) hlt
    behind := r.behind
    device := some s.next
    next := none }
  have hempty : ∀ j < built.ports, built.slot j = some 0 := fun j hj =>
    oldArray_zero hj (hclean.slots hbuilds j hj)
  have hchain : ChainOk built := (hs.chain hhub).extend hlt (hclean.chain hbuilds) rfl
  have htree := hplain.addHub (Nat.le_refl (s.next + 1)) (show s.next + 1 < s.next + 1 + 2 by omega)
    hthere rfl hempty hchain (hblock _)
  simp only [attached, Function.update_idem] at htree ⊢
  refine ⟨htree, ?_, fun h' hsome => ?_⟩
  · simp
  · exact update_ne_none (update_ne_none hsome)

theorem blUsbDeviceRegisterSpecificInfo_attached (hs : Tree s finished)
    (hhub : s.hubs h = some hub) (hi : i < hub.ports) (hport : device.port = i + 1)
    (hparent : device.parentHub = h) (hdescriptors : device.descriptors = r.descriptors)
    (htype : device.type = r.oldType) (hclean : r.Clean hub)
    (hfinishes : Finishes finished finished' h i)
    (hblock : ∀ b n, finished' (.block b) n ≤ n) (controllers : Nat → BlUsbHostController) :
    ∃ s', blUsbDeviceRegisterSpecificInfo s.next r
        (attached s h hub i (s.next + 1) controllers device) = some s' ∧
      Attached s s' finished' := by
  have hthere : (attached s h hub i (s.next + 1) controllers device).devices s.next =
      some device := Function.update_self _ _ _
  unfold blUsbDeviceRegisterSpecificInfo
  rw [hthere, Option.bind_some, hdescriptors]
  split
  next hclass =>
    obtain ⟨type, hchecked⟩ := checkInterfaces_eq r device
    have hnot := checkInterfaces_type hclass hdescriptors htype hclean.type
    rw [hchecked] at hnot ⊢
    refine ⟨_, rfl, ?_⟩
    let typed : BlUsbDevice := { device with type }
    have hport' : typed.port = i + 1 := hport
    have hattached := attached_noHub hs (Nat.lt_succ_self _) hhub hi hport' hparent hnot hfinishes
      controllers
    simpa only [attached, Function.update_idem] using hattached
  next hclass =>
    exact blUsbCheckHub_attached hs hhub hi hport hparent hclass htype hclean hfinishes hblock
      controllers
  next hzero hnine =>
    refine ⟨_, rfl, attached_noHub hs (Nat.lt_succ_self _) hhub hi hport hparent ?_ hfinishes
      controllers⟩
    rw [htype]
    exact hclean.type (untyped_of_class hzero hnine)

theorem blUsbDeviceRegister_eq (s : BlUsb) (hserved : r.served = true) (hc : Nat)
    (told : Option Nat) : ∃ device controllers, blUsbDeviceRegister hc told r s =
      ({ s with
          next := s.next + 1, controllers
          devices := Function.update s.devices s.next (some device) }, some s.next) ∧
        device.descriptors = r.descriptors ∧ device.type = r.oldType :=
  ⟨_, _, if_pos hserved, rfl, rfl⟩

theorem blUsbHubLinkDevice_eq (hs : Tree s finished) (hhub : s.hubs h = some hub)
    (hi : i < hub.ports) (controllers : Nat → BlUsbHostController) (device : BlUsbDevice) :
    blUsbHubLinkDevice h s.next (i + 1)
        { s with
          next := s.next + 1, controllers
          devices := Function.update s.devices s.next (some device) } =
      some (attached s h hub i (s.next + 1) controllers
        { device with port := i + 1, parentHub := h }) := by
  unfold blUsbHubLinkDevice
  dsimp only
  rw [Function.update_self, Option.bind_some, Function.update_idem, Nat.add_sub_cancel]
  exact setSlot_eq hhub (hs.room hhub i hi)

/-- **Attaching a device keeps the tree.** -/
theorem attach (hs : Tree s finished) (hhub : s.hubs h = some hub) (hi : i < hub.ports)
    (hserved : r.served = true) (hclean : r.Clean hub) (hfinishes : Finishes finished finished' h i)
    (hblock : ∀ b n, finished' (.block b) n ≤ n) (hc : Nat) (told : Option Nat) :
    ∃ s₁ s₂ s', blUsbDeviceRegister hc told r s = (s₁, some s.next) ∧
      blUsbHubLinkDevice h s.next (i + 1) s₁ = some s₂ ∧
      blUsbDeviceRegisterSpecificInfo s.next r s₂ = some s' ∧ Attached s s' finished' := by
  obtain ⟨device, controllers, hregister, hdescriptors, htype⟩ :=
    blUsbDeviceRegister_eq s hserved hc told
  have hlink := blUsbHubLinkDevice_eq hs hhub hi controllers device
  let linked : BlUsbDevice := { device with port := i + 1, parentHub := h }
  have hport : linked.port = i + 1 := rfl
  obtain ⟨s', hspecific, hattached⟩ := blUsbDeviceRegisterSpecificInfo_attached hs hhub hi hport
    rfl hdescriptors htype hclean hfinishes hblock controllers
  exact ⟨_, _, s', hregister, hlink, hspecific, hattached⟩

end

/-! ## A port -/

def allFinished (_ : HubPtr) (ports : Nat) : Nat := ports

def rootFinished (hc i : Nat) (h : HubPtr) (ports : Nat) : Nat :=
  if h = .root hc then i else ports

theorem rootFinished_finishes (hc i : Nat) :
    Finishes (rootFinished hc i) (rootFinished hc (i + 1)) (.root hc) i := by
  intro h n j hj
  unfold rootFinished at hj ⊢
  by_cases heq : h = .root hc
  · rw [if_pos heq] at hj ⊢
    rcases Nat.lt_succ_iff_lt_or_eq.mp hj with hlt | hlast
    · exact .inl hlt
    · exact .inr ⟨heq, hlast⟩
  · rw [if_neg heq] at hj ⊢
    exact .inl hj

theorem rootPortInit_tree (hc : Nat) (p : RootPort) (hs : Tree s finished) :
    Tree (rootPortInit hc p s).1 finished ∧ (rootPortInit hc p s).1.hubs = s.hubs := by
  unfold rootPortInit
  by_cases htype : (s.controllers hc).type = .xhci
  · rw [if_pos htype]
    exact ⟨⟨hs.next_pos, hs.freshDevice, hs.freshHub, hs.noDevice, hs.noHub, hs.slots, hs.room,
      hs.owner, hs.hubs, hs.chain, hs.first, hs.following⟩, rfl⟩
  · rw [if_neg htype]
    exact ⟨hs, rfl⟩

theorem rootPort_tree {hc : Nat} {p : RootPort} (hs : Tree s (rootFinished hc i))
    (hhub : s.hubs (.root hc) = some hub) (hi : i < hub.ports)
    (hclean : p.Registers → p.device.Clean hub) :
    ∃ s', rootPort hc i p s = some s' ∧ Tree s' (rootFinished hc (i + 1)) ∧
      s'.hubs (.root hc) ≠ none := by
  have hfinishes := rootFinished_finishes hc i
  have hblock : ∀ b n, rootFinished hc (i + 1) (.block b) n ≤ n := fun b n => le_rfl
  -- an empty port
  have hempty : ∀ s₁ : BlUsb, Tree s₁ (rootFinished hc i) → s₁.hubs = s.hubs →
      ∃ s', setSlot (.root hc) i 0 s₁ = some s' ∧ Tree s' (rootFinished hc (i + 1)) ∧
        s'.hubs (.root hc) ≠ none := by
    intro s₁ hs₁ hhubs
    have hhub₁ : s₁.hubs (.root hc) = some hub := by rw [hhubs, hhub]
    refine ⟨_, setSlot_eq hhub₁ (hs₁.room hhub₁ i hi),
      hs₁.write hhub₁ (hs₁.room hhub₁ i hi) (.inl rfl) hfinishes, ?_⟩
    simp
  unfold rootPort
  by_cases hconnected : p.connected = false
  · rw [if_pos hconnected]
    exact hempty s hs rfl
  rw [if_neg hconnected]
  obtain ⟨hinit, hhubs⟩ := rootPortInit_tree hc p hs
  generalize rootPortInit hc p s = init at hinit hhubs
  obtain ⟨s₁, told⟩ := init
  dsimp only at hinit hhubs ⊢
  by_cases hspeed : p.speed = false
  · rw [if_pos hspeed]
    exact hempty s₁ hinit hhubs
  rw [if_neg hspeed]
  by_cases hserved : p.device.served = true
  · have hhub₁ : s₁.hubs (.root hc) = some hub := by rw [hhubs, hhub]
    obtain ⟨s₂, s₃, s', hregister, hlink, hspecific, hattached⟩ := attach hinit hhub₁ hi hserved
      (hclean ⟨by simpa using hconnected, by simpa using hspeed, hserved⟩) hfinishes hblock hc told
    refine ⟨s', ?_, hattached.tree, hattached.kept _ (by simp [hhub₁])⟩
    simp only [hregister, hlink, Option.bind_some, hspecific]
  · rw [blUsbDeviceRegister, if_neg hserved]
    exact hempty s₁ hinit hhubs

theorem hubPort_tree {p : HubPort} {b port : Nat} (hs : Tree s allFinished)
    (hhub : s.hubs (.block b) = some hub) (hport : 1 ≤ port ∧ port ≤ hub.ports)
    (hclean : p.Registers → p.device.Clean hub) :
    ∃ s' pushed, hubPort (.block b) port p s = some (s', pushed) ∧ Tree s' allFinished ∧
      (∀ h, s.hubs h ≠ none → s'.hubs h ≠ none) ∧
      ∀ h, pushed = some h → ∃ b, h = .block b ∧ s'.hubs h ≠ none := by
  obtain ⟨owner, device, howner, hdevice⟩ := hs.owner hhub
  obtain ⟨i, rfl⟩ : ∃ i, port = i + 1 := ⟨port - 1, by omega⟩
  have hi : i < hub.ports := hport.2
  have hfinishes : Finishes allFinished allFinished (.block b) i := fun _ _ _ hj => .inl hj
  have hnothing : ∃ s' pushed, some (s, none) = some (s', pushed) ∧ Tree s' allFinished ∧
      (∀ h, s.hubs h ≠ none → s'.hubs h ≠ none) ∧
      ∀ h, pushed = some h → ∃ b, h = .block b ∧ s'.hubs h ≠ none :=
    ⟨s, none, rfl, hs, fun _ h => h, fun _ h => by cases h⟩
  unfold hubPort
  rw [hhub, Option.bind_some, howner, Option.bind_some, hdevice, Option.bind_some]
  by_cases hchange : (p.connectChange && p.connected) = true
  · rw [if_pos hchange]
    obtain ⟨hconnect, hconnected⟩ := Bool.and_eq_true_iff.mp hchange
    by_cases hserved : p.device.served = true
    · obtain ⟨s₁, s₂, s', hregister, hlink, hspecific, hattached⟩ := attach hs hhub hi hserved
        (hclean ⟨hconnect, hconnected, hserved⟩) hfinishes (fun _ _ => le_rfl) device.controller
          none
      obtain ⟨device', hdevice'⟩ := Option.ne_none_iff_exists'.mp hattached.device
      refine ⟨s', if device'.type = blUsbHubDevice then some device'.hub else none, ?_,
        hattached.tree, hattached.kept, fun h hpushed => ?_⟩
      · simp only [hregister, hlink, Option.bind_some, hspecific, hdevice', Option.map_some]
      · by_cases htype : device'.type = blUsbHubDevice
        · rw [if_pos htype, Option.some.injEq] at hpushed
          obtain ⟨b', own, hptr, hown, -⟩ := hattached.tree.hubs hdevice' htype
          exact ⟨b', hpushed.symm.trans hptr, by simp [← hpushed, hptr, hown]⟩
        · rw [if_neg htype] at hpushed
          cases hpushed
    · rw [blUsbDeviceRegister, if_neg hserved]
      exact hnothing
  · rw [if_neg hchange]
    exact hnothing

/-! ## A root hub -/

theorem Tree.setRoot (hs : Tree s finished) {hc next : Nat} {rootHubs : Option Nat}
    (hnext : s.next ≤ next) (hslots : ∀ j < finished' (.root hc) hub.ports,
      ∃ slot, hub.slot j = some slot ∧ SlotOk s (.root hc) j slot)
    (hroom : ∀ j < hub.ports, ∃ slot, hub.slot j = some slot) (hchain : ChainOk hub)
    (hfinished : ∀ h n, h ≠ .root hc → finished' h n ≤ finished h n)
    (hfollowing : ∀ hc', hub.next = some hc' → s.hubs (.root hc') ≠ none)
    (hfirst : ∀ hc', rootHubs = some hc' → hc' = hc ∨ s.hubs (.root hc') ≠ none) :
    Tree { s with
      next, rootHubs
      hubs := Function.update s.hubs (.root hc) (some hub) } finished' := by
  have hblock : ∀ b, Function.update s.hubs (.root hc) (some hub) (.block b) = s.hubs (.block b) :=
    fun b => Function.update_of_ne (by simp) _ _
  constructor
  case next_pos => exact hs.next_pos.trans hnext
  case freshDevice => exact fun d hd => hs.freshDevice d (hnext.trans hd)
  case freshHub => exact fun b hb => (hblock b).trans (hs.freshHub b (hnext.trans hb))
  case noDevice => exact hs.noDevice
  case noHub =>
    have hne : HubPtr.null ≠ .root hc := by simp
    dsimp only
    rw [Function.update_of_ne hne]
    exact hs.noHub
  case slots =>
    intro h' hub' hget j hj
    rcases update_eq_some hget with ⟨rfl, rfl⟩ | ⟨hother, hget⟩
    · exact hslots j hj
    · exact hs.slots hget j (hj.trans_le (hfinished _ _ hother))
  case room =>
    intro h' hub' hget j hj
    rcases update_eq_some hget with ⟨-, rfl⟩ | ⟨-, hget⟩
    · exact hroom j hj
    · exact hs.room hget j hj
  case owner => exact fun hget => hs.owner ((hblock _).symm.trans hget)
  case hubs =>
    intro d device hdevice htype
    obtain ⟨b, own, hptr, hget, hown⟩ := hs.hubs hdevice htype
    exact ⟨b, own, hptr, (hblock b).trans hget, hown⟩
  case chain =>
    intro h' hub' hget
    rcases update_eq_some hget with ⟨-, rfl⟩ | ⟨-, hget⟩
    · exact hchain
    · exact hs.chain hget
  case first =>
    intro hc' hroot
    rcases hfirst hc' hroot with rfl | hsome
    · simp
    · exact update_ne_none hsome
  case following =>
    intro hc' hub' hc'' hget hnext'
    rcases update_eq_some hget with ⟨-, rfl⟩ | ⟨-, hget⟩
    · exact update_ne_none (hfollowing hc'' hnext')
    · exact update_ne_none (hs.following hget hnext')

theorem rootRegister_tree (hs : Tree s allFinished) (hc : Nat) {served : Bool}
    (oldSlots : Nat → Nat) (hclean : served = true ∨ (s.controllers hc).rootPorts = 0) :
    Tree (rootRegister hc served oldSlots s).usb (rootFinished hc 0) := by
  have hempty : rootFinished hc 0 (.root hc) (s.controllers hc).rootPorts = 0 := if_pos rfl
  refine hs.setRoot (Nat.le_succ _) (fun j hj => ?_) (fun j hj => ?_) ?_ (fun h n hne => ?_)
    (fun hc' hnext => ?_) (fun hc' hfirst => .inr (hs.first hfirst))
  · dsimp only at hj
    rw [hempty] at hj
    exact absurd hj (Nat.not_lt_zero j)
  · rcases hclean with hserved | hports
    · have hlt : j < (s.controllers hc).rootPorts * sizeofUsbDevice / sizeofPointer := by
        dsimp only at hj
        unfold sizeofUsbDevice sizeofPointer
        omega
      exact ⟨oldSlots j, by simp [BlUsbHub.slot, hserved, oldArray, hlt]⟩
    · dsimp only at hj
      rw [hports] at hj
      exact absurd hj (Nat.not_lt_zero j)
  · refine ⟨fun j hj _ => ?_, rfl⟩
    have hzero : ∀ k < 5, ((Vector.replicate 5 0 : Vector Byte 5).toList).getD k 0 = 0 := by decide
    exact hzero (j + 1) (by omega)
  · exact (if_neg hne).le
  · obtain ⟨old, hold, hnext⟩ := Option.bind_eq_some_iff.mp hnext
    exact hs.following hold hnext

theorem rootLink_tree {hc : Nat} (hs : Tree s (rootFinished hc i))
    (hhub : s.hubs (.root hc) = some hub) (hdone : hub.ports ≤ i) :
    ∃ s', rootLink hc s = some s' ∧ Tree s' allFinished := by
  have hfinished : rootFinished hc i (.root hc) hub.ports = i := if_pos rfl
  unfold rootLink
  rw [hhub, Option.map_some]
  refine ⟨_, rfl, hs.setRoot le_rfl (fun j hj => ?_) (fun j hj => hs.room hhub j hj) ?_
    (fun h n hne => ?_)
    (fun hc' hnext => hs.first hnext) (fun hc' hfirst => .inl (Option.some.inj hfirst).symm)⟩
  · have hlt : j < hub.ports := hj
    obtain ⟨slot, hslot, hok⟩ := hs.slots hhub j (by omega)
    exact ⟨slot, hslot, hok⟩
  · exact ⟨(hs.chain hhub).zeros, (hs.chain hhub).ends⟩
  · exact (if_neg hne).ge

theorem Tree.refinish (hs : Tree s finished)
    (hfinished : ∀ h hub, s.hubs h = some hub → finished' h hub.ports ≤ finished h hub.ports) :
    Tree s finished' :=
  { hs with slots := fun hget j hj => hs.slots hget j (hj.trans_le (hfinished _ _ hget)) }

/-! ## Reading the tree -/

/-- The hubs that wait are there, and enough turns are left for them. -/
structure Waiting (s : BlUsb) (t : BlUsbTraversal) (fuel : Nat) : Prop where
  tail_le : t.tail ≤ 126
  turns : t.waiting.length + (126 - t.tail) ≤ fuel
  there : ∀ h ∈ t.waiting, s.hubs h ≠ none

theorem Waiting.push {t : BlUsbTraversal} {fuel : Nat} (ht : Waiting s t fuel)
    (hhub : s.hubs h ≠ none) : Waiting s (blUsbTraversalPush t h) fuel := by
  unfold blUsbTraversalPush
  by_cases hfull : t.tail < 127 - 1
  · rw [if_pos hfull]
    have hturns := ht.turns
    refine ⟨by dsimp only; omega, ?_, fun h' hmem => ?_⟩
    · dsimp only
      rw [List.length_append, List.length_singleton]
      omega
    · rcases List.mem_append.mp hmem with hold | hnew
      · exact ht.there h' hold
      · exact List.mem_singleton.mp hnew ▸ hhub
  · rw [if_neg hfull]
    exact ht

theorem blUsbDumpDeviceId_eq (hs : Tree s allFinished) (hdevice : s.devices d = some device)
    (hparent : s.hubs device.parentHub ≠ none) : blUsbDumpDeviceId s device = some () := by
  have hends : ∀ h, s.hubs h ≠ none →
      ((s.hubs h).bind fun hub => if hub.chainEnds then some () else none) = some () := by
    intro h hsome
    obtain ⟨hub, hhub⟩ := Option.ne_none_iff_exists'.mp hsome
    rw [hhub, Option.bind_some, if_pos (hs.chain hhub).ends]
  unfold blUsbDumpDeviceId
  by_cases htype : device.type = blUsbHubDevice
  · rw [if_pos htype]
    obtain ⟨b, own, hptr, hown, -⟩ := hs.hubs hdevice htype
    exact hends _ (by simp [hptr, hown])
  · rw [if_neg htype]
    exact hends _ hparent

theorem dumpSlot_waiting (hs : Tree s allFinished) (hhub : s.hubs h = some hub)
    {t : BlUsbTraversal} {fuel : Nat} (ht : Waiting s t fuel) (hi : i < hub.ports) :
    ∃ t', dumpSlot s hub t i = some t' ∧ Waiting s t' fuel := by
  obtain ⟨slot, hslot, hok⟩ := hs.slots hhub i hi
  unfold dumpSlot
  rw [hslot, Option.bind_some]
  rcases hok with rfl | ⟨device, hdevice, -, hparent⟩
  · exact ⟨t, if_pos rfl, ht⟩
  · have hne : slot ≠ 0 := by
      rintro rfl
      rw [hs.noDevice] at hdevice
      cases hdevice
    have hthere : s.hubs device.parentHub ≠ none := by simp [hparent, hhub]
    rw [if_neg hne, hdevice, Option.bind_some, blUsbDumpDeviceId_eq hs hdevice hthere,
      Option.map_some]
    refine ⟨_, rfl, ?_⟩
    by_cases htype : device.type = blUsbHubDevice
    · rw [if_pos htype]
      obtain ⟨b, own, hptr, hown, -⟩ := hs.hubs hdevice htype
      exact ht.push (by simp [hptr, hown])
    · rw [if_neg htype]
      exact ht

theorem dumpSlots_waiting (hs : Tree s allFinished) (hhub : s.hubs h = some hub) {fuel : Nat}
    {is : List Nat} (his : ∀ i ∈ is, i < hub.ports) {t : BlUsbTraversal} (ht : Waiting s t fuel) :
    ∃ t', is.foldlM (dumpSlot s hub) t = some t' ∧ Waiting s t' fuel := by
  induction is generalizing t with
  | nil => exact ⟨t, rfl, ht⟩
  | cons i is ih =>
    obtain ⟨t₁, hfirst, ht₁⟩ := dumpSlot_waiting hs hhub ht (his i List.mem_cons_self)
    obtain ⟨t', hrest, ht'⟩ := ih (fun j hj => his j (List.mem_cons_of_mem _ hj)) ht₁
    refine ⟨t', ?_, ht'⟩
    rw [List.foldlM_cons, hfirst]
    exact hrest

theorem dumpHubs_eq (hs : Tree s allFinished) {fuel : Nat} {t : BlUsbTraversal}
    (ht : Waiting s t fuel) : dumpHubs s fuel t = some () := by
  induction fuel generalizing t with
  | zero =>
    obtain ⟨tail, waiting⟩ := t
    obtain rfl : waiting = [] := by
      have hturns := ht.turns
      exact List.eq_nil_of_length_eq_zero (by dsimp only at hturns; omega)
    rfl
  | succ fuel ih =>
    obtain ⟨tail, waiting⟩ := t
    cases waiting with
    | nil => rfl
    | cons h rest =>
      obtain ⟨hub, hhub⟩ := Option.ne_none_iff_exists'.mp (ht.there h List.mem_cons_self)
      have hturns := ht.turns
      have hrest : Waiting s ⟨tail, rest⟩ fuel := by
        refine ⟨ht.tail_le, ?_, fun h' hmem => ht.there h' (List.mem_cons_of_mem _ hmem)⟩
        dsimp only [List.length_cons] at hturns ⊢
        omega
      obtain ⟨t', hslots, ht'⟩ := dumpSlots_waiting hs hhub (fun _ => List.mem_range.mp) hrest
      rw [dumpHubs, hhub, Option.bind_some, hslots, Option.bind_some]
      exact ih ht'

theorem traversalOf_waiting (hhub : s.hubs h ≠ none) : Waiting s (traversalOf h) 126 :=
  Waiting.push ⟨Nat.zero_le _, by simp, fun _ hmem => by cases hmem⟩ hhub

/-- **The dump finds everything that it follows.** -/
theorem blUsbDumpHostControllerDevices_eq (hs : Tree s allFinished) {hc : Nat}
    (hhub : s.hubs (.root hc) ≠ none) : blUsbDumpHostControllerDevices hc true s = some () := by
  rw [blUsbDumpHostControllerDevices, if_pos rfl]
  exact dumpHubs_eq hs (traversalOf_waiting hhub)

/-! ## Runs -/

/-- The hubs that a traversal is to visit are in blocks. -/
def InBlocks (s : BlUsb) (hs : List HubPtr) : Prop := ∀ h ∈ hs, ∃ b, h = .block b ∧ s.hubs h ≠ none

/-- What each place of the code relies on. -/
def Inv (st : State) : Prop :=
  match st.control with
  | .idle => Tree st.usb allFinished
  | .rootPorts hc i => Tree st.usb (rootFinished hc i) ∧ st.usb.hubs (.root hc) ≠ none
  | .pollRoot root _ => Tree st.usb allFinished ∧
      ∀ hc, root = some hc → st.usb.hubs (.root hc) ≠ none
  | .hubs hc _ t => Tree st.usb allFinished ∧ st.usb.hubs (.root hc) ≠ none ∧
      InBlocks st.usb t.waiting
  | .hubPorts hc _ t h port => Tree st.usb allFinished ∧ st.usb.hubs (.root hc) ≠ none ∧
      InBlocks st.usb (h :: t.waiting) ∧ 1 ≤ port

theorem InBlocks.push {t : BlUsbTraversal} {b : Nat} (ht : InBlocks s t.waiting)
    (hptr : h = .block b) (hhub : s.hubs h ≠ none) :
    InBlocks s (blUsbTraversalPush t h).waiting := by
  unfold blUsbTraversalPush
  by_cases hfull : t.tail < 127 - 1
  · rw [if_pos hfull]
    intro h' hmem
    rcases List.mem_append.mp hmem with hold | hnew
    · exact ht h' hold
    · obtain rfl := List.mem_singleton.mp hnew
      exact ⟨b, hptr, hhub⟩
  · rw [if_neg hfull]
    exact ht

theorem rootRegister_inv {hc : Nat} {served : Bool} {oldSlots : Nat → Nat}
    (hs : Tree s allFinished) (hclean : served = true ∨ (s.controllers hc).rootPorts = 0) :
    Inv (rootRegister hc served oldSlots s) := by
  have htree := rootRegister_tree hs hc oldSlots hclean
  have hthere : (rootRegister hc served oldSlots s).usb.hubs (.root hc) ≠ none := by
    simp [rootRegister]
  cases hserved : served with
  | true => exact ⟨hserved ▸ htree, hserved ▸ hthere⟩
  | false =>
    -- there is no port, so that nothing is left to be written
    have hports := hclean.resolve_left (by simp [hserved])
    subst hserved
    refine Tree.refinish htree fun h hub hget => ?_
    unfold rootFinished allFinished
    by_cases heq : h = .root hc
    · subst heq
      simp only [rootRegister, Function.update_self, Option.some.injEq] at hget
      subst hget
      rw [if_pos rfl]
      exact hports.le
    · rw [if_neg heq]

theorem pollRoot_inv {input : Input} {hc i : Nat} (hs : Tree s allFinished)
    (hroot : s.hubs (.root hc) ≠ none) (hclean : input.Clean ⟨.pollRoot (some hc) i, s⟩) :
    ∃ st', step input ⟨.pollRoot (some hc) i, s⟩ = some st' ∧ Inv st' := by
  obtain ⟨hub, hhub⟩ := Option.ne_none_iff_exists'.mp hroot
  simp only [step, hhub, Option.bind_some]
  by_cases hi : i < hub.ports
  · rw [if_pos hi]
    obtain ⟨slot, hslot, hok⟩ := hs.slots hhub i hi
    obtain ⟨hfull, hserved⟩ := hclean hub hhub hi
    have hne : slot ≠ 0 := by
      rintro rfl
      exact hfull hslot
    obtain ⟨device, hdevice, -, -⟩ := hok.resolve_left hne
    rw [hslot, Option.bind_some, hdevice, Option.bind_some]
    by_cases htype : device.type = blUsbHubDevice
    · obtain ⟨b, own, hptr, hown, -⟩ := hs.hubs hdevice htype
      have hthere : s.hubs device.hub ≠ none := by simp [hptr, hown]
      rw [if_pos htype, if_pos (hserved slot device ⟨hhub, hi, hslot, hdevice⟩ htype)]
      exact ⟨_, rfl, hs, hroot, InBlocks.push (fun _ hmem => by cases hmem) hptr hthere⟩
    · rw [if_neg htype]
      refine ⟨_, rfl, hs, fun hc' heq => ?_⟩
      obtain rfl := Option.some.inj heq
      exact hroot
  · rw [if_neg hi]
    exact ⟨_, rfl, hs, fun hc' hnext => hs.following hhub hnext⟩

theorem hubPorts_inv {input : Input} {hc i port : Nat} {t : BlUsbTraversal}
    (hs : Tree s allFinished) (hroot : s.hubs (.root hc) ≠ none)
    (hblocks : InBlocks s (h :: t.waiting)) (hport : 1 ≤ port)
    (hclean : input.Clean ⟨.hubPorts hc i t h port, s⟩) :
    ∃ st', step input ⟨.hubPorts hc i t h port, s⟩ = some st' ∧ Inv st' := by
  obtain ⟨b, rfl, hthere⟩ := hblocks h List.mem_cons_self
  have hwaiting : InBlocks s t.waiting := fun h' hmem => hblocks h' (List.mem_cons_of_mem _ hmem)
  obtain ⟨hub, hhub⟩ := Option.ne_none_iff_exists'.mp hthere
  simp only [step, hhub, Option.bind_some]
  by_cases hle : port ≤ hub.ports
  · rw [if_pos hle]
    obtain ⟨s', pushed, hstep, htree, hkept, hpushed⟩ := hubPort_tree hs hhub ⟨hport, hle⟩
      fun hregisters => hclean hregisters hub hhub
    rw [hstep, Option.map_some]
    refine ⟨_, rfl, htree, hkept _ hroot, ?_, Nat.le_add_left _ _⟩
    have hkept' : InBlocks s' t.waiting := by
      intro h' hmem
      obtain ⟨b', hptr, hsome⟩ := hwaiting h' hmem
      exact ⟨b', hptr, hkept _ hsome⟩
    have hnew : InBlocks s' (pushed.elim t (blUsbTraversalPush t)).waiting := by
      cases pushed with
      | none => exact hkept'
      | some h' =>
        obtain ⟨b', hptr, hsome⟩ := hpushed h' rfl
        exact hkept'.push hptr hsome
    intro h' hmem
    rcases List.mem_cons.mp hmem with rfl | hmem
    · exact ⟨b, rfl, hkept _ hthere⟩
    · exact hnew h' hmem
  · rw [if_neg hle]
    exact ⟨_, rfl, hs, hroot, hwaiting⟩

/-- **Each step finds what it follows, and keeps what the others rely on.** -/
theorem step_inv (input : Input) (st : State) (hinv : Inv st) (hclean : input.Clean st) :
    ∃ st', step input st = some st' ∧ Inv st' := by
  obtain ⟨control, s⟩ := st
  cases control with
  | idle =>
    unfold step
    cases hcall : input.call with
    | rootRegister hc served oldSlots =>
      simp only [Input.Clean, hcall] at hclean
      exact ⟨_, rfl, rootRegister_inv hinv hclean⟩
    | poll => exact ⟨_, rfl, hinv, fun hc hroot => Tree.first hinv hroot⟩
    | dump hc served =>
      simp only [Input.Clean, hcall] at hclean
      obtain ⟨rfl, hthere⟩ := hclean
      dsimp only
      rw [blUsbDumpHostControllerDevices_eq hinv hthere]
      exact ⟨_, rfl, hinv⟩
  | rootPorts hc i =>
    obtain ⟨hs, hroot⟩ := hinv
    obtain ⟨hub, hhub⟩ := Option.ne_none_iff_exists'.mp hroot
    dsimp only at hs hhub
    simp only [step, hhub, Option.bind_some]
    by_cases hi : i < hub.ports
    · rw [if_pos hi]
      obtain ⟨s', hport, htree, hthere⟩ := rootPort_tree hs hhub hi fun hregisters =>
        hclean hregisters hub hhub
      rw [hport]
      exact ⟨_, rfl, htree, hthere⟩
    · rw [if_neg hi]
      obtain ⟨s', hlink, htree⟩ := rootLink_tree hs hhub (Nat.le_of_not_lt hi)
      rw [hlink]
      exact ⟨_, rfl, htree⟩
  | pollRoot root i =>
    obtain ⟨hs, hroot⟩ := hinv
    cases root with
    | none => exact ⟨_, rfl, hs⟩
    | some hc => exact pollRoot_inv hs (hroot hc rfl) hclean
  | hubs hc i t =>
    obtain ⟨hs, hroot, hblocks⟩ := hinv
    obtain ⟨tail, waiting⟩ := t
    cases waiting with
    | nil =>
      refine ⟨_, rfl, hs, fun hc' heq => ?_⟩
      obtain rfl := Option.some.inj heq
      exact hroot
    | cons h rest => exact ⟨_, rfl, hs, hroot, hblocks, le_rfl⟩
  | hubPorts hc i t h port =>
    obtain ⟨hs, hroot, hblocks, hport⟩ := hinv
    exact hubPorts_inv hs hroot hblocks hport hclean

theorem setup_tree (controllers : Nat → BlUsbHostController) :
    Tree (setup controllers) allFinished where
  next_pos := le_rfl
  freshDevice _ _ := rfl
  freshHub _ _ := rfl
  noDevice := rfl
  noHub := rfl
  slots hget := by cases hget
  room hget := by cases hget
  owner hget := by cases hget
  hubs hget := by cases hget
  chain hget := by cases hget
  first hroot := by cases hroot
  following hget := by cases hget

theorem InTree.cases {hc : Nat} (hs : Tree s finished) (htree : InTree s hc h) :
    h = .root hc ∨ ∃ b, h = .block b := by
  cases htree with
  | root => exact .inl rfl
  | hub _ hholds htype =>
    obtain ⟨b, -, hptr, -⟩ := hs.hubs hholds.device_eq htype
    exact .inr ⟨b, hptr⟩

theorem Tree.wellFormed {hc : Nat} (hs : Tree s finished)
    (hroot : ∀ n, finished (.root hc) n = n) (hblock : ∀ b n, finished (.block b) n = n) :
    WellFormed s hc where
  slots h hub htree hhub i hi := by
    refine hs.slots hhub i ?_
    rcases htree.cases hs with rfl | ⟨b, rfl⟩
    · rwa [hroot]
    · rwa [hblock]
  hubs _ _ _ _ _ _ hholds htype := hs.hubs hholds.device_eq htype

theorem Inv.wellFormed {st : State} {hc : Nat} (hinv : Inv st)
    (hnot : ∀ i, st.control ≠ .rootPorts hc i) : WellFormed st.usb hc := by
  obtain ⟨control, s⟩ := st
  cases control with
  | rootPorts hc' i =>
    have hne : hc ≠ hc' := by
      rintro rfl
      exact hnot i rfl
    exact Tree.wellFormed hinv.1 (fun n => if_neg (by simpa using hne)) fun b n => rfl
  | idle => exact Tree.wellFormed hinv (fun n => rfl) fun b n => rfl
  | pollRoot root i => exact Tree.wellFormed hinv.1 (fun n => rfl) fun b n => rfl
  | hubs hc' i t => exact Tree.wellFormed hinv.1 (fun n => rfl) fun b n => rfl
  | hubPorts hc' i t h port => exact Tree.wellFormed hinv.1 (fun n => rfl) fun b n => rfl

def answer (c : Call) (connected : Bool) (device : Registration) : Input :=
  ⟨c, ⟨connected, true, true, device⟩, ⟨false, false, device⟩, true⟩

def registerHub (device : Registration) : List Input :=
  [answer (.rootRegister 0 true fun _ => 0) false device, answer .poll true device,
    answer .poll false device, answer .poll false device, answer .poll false device]

theorem hubDevice_clean (hchain : (0 : Byte) ∈ hub.portChain.toList.take 4) :
    hubDevice.Clean hub where
  type _ := Nat.zero_ne_one
  slots _ _ _ := rfl
  bus _ := List.mem_of_mem_take hchain
  chain _ := .inl hchain

def oldHub : Registration := { hubDevice with oldSlots := fun _ => 7 }

end BootLoader.UsbHub
