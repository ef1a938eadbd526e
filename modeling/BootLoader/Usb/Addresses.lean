import BootLoader.Lib.Objects
import BootLoader.Lib.Runs
import BootLoader.Usb.Hub

/-!
# The addresses of the devices

The ports of root hubs and of other hubs, in any order: while the counter stays within the
addresses there are, and every device is told one, no two devices share theirs.
-/

open Objects

namespace BootLoader.UsbHub

variable {s s' s'' : BlUsb} {hc d i port : Nat} {h : HubPtr} {r : Registration}

/-! ## What leaves the addresses alone -/

def ids (s : BlUsb) (d : Nat) : Option (Nat × Nat × Option Nat) :=
  (s.devices d).map fun device => (device.address, device.controller, device.told)

structure SameIds (s s' : BlUsb) : Prop where
  next_le : s.next ≤ s'.next
  controllers : s'.controllers = s.controllers
  ids_eq : ∀ d, ids s' d = ids s d

theorem SameIds.refl (s : BlUsb) : SameIds s s := ⟨le_rfl, rfl, fun _ => rfl⟩

theorem SameIds.trans (h : SameIds s s') (h' : SameIds s' s'') : SameIds s s'' where
  next_le := h.next_le.trans h'.next_le
  controllers := h'.controllers.trans h.controllers
  ids_eq d := (h'.ids_eq d).trans (h.ids_eq d)

theorem SameIds.update {device device' : BlUsbDevice} {next : Nat} {hubs : HubPtr → Option BlUsbHub}
    (hdevice : s.devices d = some device) (hnext : s.next ≤ next)
    (hids : (device'.address, device'.controller, device'.told) =
      (device.address, device.controller, device.told)) :
    SameIds s { s with
      next, hubs
      devices := Function.update s.devices d (some device') } where
  next_le := hnext
  controllers := rfl
  ids_eq c := by
    by_cases hc : c = d
    · subst hc
      simp [ids, hdevice, hids]
    · simp [ids, hc]

theorem setSlot_sameIds {device : Nat} (hrun : setSlot h i device s = some s') : SameIds s s' := by
  unfold setSlot at hrun
  obtain ⟨hub, -, hrun⟩ := Option.bind_eq_some_iff.mp hrun
  obtain ⟨slots, -, hrun⟩ := Option.bind_eq_some_iff.mp hrun
  split_ifs at hrun
  obtain rfl := Option.some.inj hrun
  exact ⟨le_rfl, rfl, fun _ => rfl⟩

theorem blUsbHubLinkDevice_sameIds (hrun : blUsbHubLinkDevice h d port s = some s') :
    SameIds s s' := by
  obtain ⟨device, hdevice, hrun⟩ := Option.bind_eq_some_iff.mp hrun
  refine SameIds.trans ?_ (setSlot_sameIds hrun)
  exact .update hdevice le_rfl rfl

theorem blUsbCheckHub_sameIds {device : BlUsbDevice} (hdevice : s.devices d = some device)
    (hrun : blUsbCheckHub d device r s = some s') : SameIds s s' := by
  unfold blUsbCheckHub at hrun
  split_ifs at hrun
  · obtain rfl := Option.some.inj hrun
    exact .refl s
  · obtain rfl := Option.some.inj hrun
    exact ⟨Nat.le_succ _, rfl, fun _ => rfl⟩
  · obtain ⟨parent, -, hrun⟩ := Option.bind_eq_some_iff.mp hrun
    dsimp only at hrun
    split_ifs at hrun
    obtain rfl := Option.some.inj hrun
    exact .update hdevice (Nat.le_add_right _ _) rfl

theorem blUsbDeviceRegisterSpecificInfo_sameIds
    (hrun : blUsbDeviceRegisterSpecificInfo d r s = some s') : SameIds s s' := by
  obtain ⟨device, hdevice, hrun⟩ := Option.bind_eq_some_iff.mp hrun
  split at hrun
  · obtain rfl := Option.some.inj hrun
    obtain ⟨type, htype⟩ := checkInterfaces_eq r device
    rw [htype]
    exact .update hdevice le_rfl rfl
  · exact blUsbCheckHub_sameIds hdevice hrun
  · obtain rfl := Option.some.inj hrun
    exact .refl s

theorem rootRegister_sameIds (hc : Nat) (served : Bool) (oldSlots : Nat → Nat) (s : BlUsb) :
    SameIds s (rootRegister hc served oldSlots s).usb := ⟨Nat.le_succ _, rfl, fun _ => rfl⟩

theorem rootLink_sameIds (hrun : rootLink hc s = some s') : SameIds s s' := by
  obtain ⟨hub, -, rfl⟩ := Option.map_eq_some_iff.mp hrun
  exact ⟨le_rfl, rfl, fun _ => rfl⟩

/-! ## The count -/

/-- Every device was told its address, which is its own on its host controller, and no greater than
the count. -/
structure Counted (s : BlUsb) : Prop where
  fresh : ∀ d, s.next ≤ d → s.devices d = none
  range : ∀ {d device}, s.devices d = some device → 1 ≤ device.address ∧ device.address ≤ 127
  counted : ∀ {d device}, s.devices d = some device →
    device.address ≤ (s.controllers device.controller).devicesCount
  told : ∀ {d device}, s.devices d = some device → device.told = some device.address
  unique : ∀ {d d' device device'}, s.devices d = some device → s.devices d' = some device' →
    device.controller = device'.controller → device.address = device'.address → d = d'

theorem SameIds.device {device' : BlUsbDevice} (h : SameIds s s')
    (hdevice : s'.devices d = some device') : ∃ device, s.devices d = some device ∧
      device.address = device'.address ∧ device.controller = device'.controller ∧
      device.told = device'.told := by
  have hids := h.ids_eq d
  simp only [ids, hdevice, Option.map_some] at hids
  obtain ⟨device, hd, heq⟩ := Option.map_eq_some_iff.mp hids.symm
  simp only [Prod.mk.injEq] at heq
  exact ⟨device, hd, heq.1, heq.2.1, heq.2.2⟩

theorem Counted.same (hs : Counted s) (h : SameIds s s') : Counted s' where
  fresh d hd := by
    have hids := h.ids_eq d
    simp only [ids, hs.fresh d (h.next_le.trans hd), Option.map_none] at hids
    exact Option.map_eq_none_iff.mp hids
  range hd := by
    obtain ⟨device, hdevice, haddress, -, -⟩ := h.device hd
    exact haddress ▸ hs.range hdevice
  counted hd := by
    obtain ⟨device, hdevice, haddress, hcontroller, -⟩ := h.device hd
    rw [← haddress, ← hcontroller, h.controllers]
    exact hs.counted hdevice
  told hd := by
    obtain ⟨device, hdevice, haddress, -, htold⟩ := h.device hd
    rw [← haddress, ← htold]
    exact hs.told hdevice
  unique hd hd' hcontroller haddress := by
    obtain ⟨device, hdevice, ha, hc, -⟩ := h.device hd
    obtain ⟨device', hdevice', ha', hc', -⟩ := h.device hd'
    exact hs.unique hdevice hdevice' ((hc.trans hcontroller).trans hc'.symm)
      ((ha.trans haddress).trans ha'.symm)

theorem Counted.count (hs : Counted s) {controller : BlUsbHostController}
    (hle : (s.controllers hc).devicesCount ≤ controller.devicesCount) :
    Counted { s with controllers := Function.update s.controllers hc controller } where
  fresh := hs.fresh
  range := hs.range
  counted {d device} hd := by
    have hcounted := hs.counted hd
    by_cases heq : device.controller = hc
    · simp only [heq, Function.update_self]
      exact (heq ▸ hcounted).trans hle
    · simpa [heq] using hcounted
  told := hs.told
  unique := hs.unique

/-- A device with an address above all others joins. -/
theorem Counted.join (hs : Counted s) {device : BlUsbDevice}
    (hrange : 1 ≤ device.address ∧ device.address ≤ 127)
    (hcounted : device.address = (s.controllers device.controller).devicesCount)
    (htold : device.told = some device.address)
    (hnew : ∀ d device', s.devices d = some device' → device'.controller = device.controller →
      device'.address < device.address) :
    Counted { s with
      next := s.next + 1
      devices := Function.update s.devices s.next (some device) } := by
  refine ⟨fun d hd => ?_, fun hd => ?_, fun hd => ?_, fun hd => ?_, fun hd hd' hc ha => ?_⟩
  · have hne : d ≠ s.next := Nat.ne_of_gt hd
    exact (Function.update_of_ne hne _ _).trans (hs.fresh d (Nat.le_of_succ_le hd))
  · rcases update_eq_some hd with ⟨-, rfl⟩ | ⟨-, hd⟩
    · exact hrange
    · exact hs.range hd
  · rcases update_eq_some hd with ⟨-, rfl⟩ | ⟨-, hd⟩
    · exact hcounted.le
    · exact hs.counted hd
  · rcases update_eq_some hd with ⟨-, rfl⟩ | ⟨-, hd⟩
    · exact htold
    · exact hs.told hd
  · rcases update_eq_some hd with ⟨rfl, rfl⟩ | ⟨-, hold⟩ <;>
      rcases update_eq_some hd' with ⟨rfl, rfl⟩ | ⟨-, hold'⟩
    · rfl
    · exact absurd ha (hnew _ _ hold' hc.symm).ne'
    · exact absurd ha (hnew _ _ hold hc).ne
    · exact hs.unique hold hold' hc ha

/-! ## Registering -/

theorem setAddressValue_eq {address : Nat} (h : address ≤ 127) :
    setAddressValue address = address := Nat.mod_eq_of_lt (by omega)

theorem slotAddress_eq {address : Nat} (h : address ≤ 127) : slotAddress address = address :=
  Nat.mod_eq_of_lt (by omega)

theorem blUsbDeviceRegister_none {told : Option Nat}
    (hrun : blUsbDeviceRegister hc told r s = (s', none)) : s' = s := by
  unfold blUsbDeviceRegister at hrun
  by_cases hserved : r.served = true
  · rw [if_pos hserved] at hrun
    cases (Prod.mk.inj hrun).2
  · rw [if_neg hserved] at hrun
    exact (Prod.mk.inj hrun).1.symm

theorem blUsbDeviceRegister_served {told : Option Nat}
    (hrun : blUsbDeviceRegister hc told r s = (s', some d)) : r.served = true := by
  unfold blUsbDeviceRegister at hrun
  by_contra hnot
  rw [if_neg hnot] at hrun
  cases (Prod.mk.inj hrun).2

/-- Where the device is told its address in the registration itself. -/
theorem blUsbDeviceRegister_counted (hs : Counted s) {told : Option Nat}
    (htype : (s.controllers hc).type ≠ .xhci) (hcount : (s.controllers hc).devicesCount < 127)
    (hrun : blUsbDeviceRegister hc told r s = (s', some d)) : Counted s' := by
  have hserved := blUsbDeviceRegister_served hrun
  unfold blUsbDeviceRegister at hrun
  dsimp only at hrun
  rw [if_pos hserved, if_neg htype] at hrun
  obtain ⟨rfl, -⟩ := Prod.mk.inj hrun
  refine (hs.count (Nat.le_succ _)).join ⟨Nat.succ_pos _, hcount⟩ ?_ ?_ ?_
  · simp
  · have hvalue := setAddressValue_eq (show (s.controllers hc).devicesCount + 1 ≤ 127 from hcount)
    dsimp only
    rw [if_neg htype, hvalue]
  · intro d device' hdevice' hsame
    have hcounted := hs.counted hdevice'
    rw [hsame] at hcounted
    exact Nat.lt_succ_of_le hcounted

/-- Where it was told before. -/
theorem blUsbDeviceRegister_xhci_counted (hs : Counted s) {told : Option Nat}
    (htype : (s.controllers hc).type = .xhci)
    (hcount : 1 ≤ (s.controllers hc).devicesCount ∧ (s.controllers hc).devicesCount ≤ 127)
    (htold : told = some (s.controllers hc).devicesCount)
    (hnew : ∀ d device, s.devices d = some device → device.controller = hc →
      device.address < (s.controllers hc).devicesCount)
    (hrun : blUsbDeviceRegister hc told r s = (s', some d)) : Counted s' := by
  have hserved := blUsbDeviceRegister_served hrun
  unfold blUsbDeviceRegister at hrun
  dsimp only at hrun
  rw [if_pos hserved, if_pos htype] at hrun
  obtain ⟨rfl, -⟩ := Prod.mk.inj hrun
  refine (hs.count le_rfl).join hcount ?_ ?_ hnew
  · simp
  · simpa [htype] using htold

/-! ## A port -/

theorem rootPortInit_counted (p : RootPort) (hs : Counted s) :
    Counted (rootPortInit hc p s).1 := by
  unfold rootPortInit
  by_cases htype : (s.controllers hc).type = .xhci
  · rw [if_pos htype]
    exact hs.count (Nat.le_succ _)
  · rw [if_neg htype]
    exact hs

/-- The device of an xHCI port is told the count before it is registered. -/
theorem rootPortInit_register_counted {p : RootPort} (hs : Counted s)
    (htype : (s.controllers hc).type = .xhci) (hcount : (s.controllers hc).devicesCount < 127)
    (hspeed : p.speed = true) (haddressed : p.addressed = true)
    (hrun : blUsbDeviceRegister hc (rootPortInit hc p s).2 r (rootPortInit hc p s).1 =
      (s', some d)) : Counted s' := by
  have hinit : Counted (rootPortInit hc p s).1 := rootPortInit_counted p hs
  have heq := slotAddress_eq (show (s.controllers hc).devicesCount + 1 ≤ 127 from hcount)
  simp only [rootPortInit, htype, hspeed, haddressed, heq, if_true, and_self] at hrun hinit
  refine blUsbDeviceRegister_xhci_counted hinit ?_ ?_ ?_ ?_ hrun
  · simp
  · simp only [Function.update_self]
    omega
  · simp
  · intro d device hdevice hsame
    have hle := hs.counted hdevice
    rw [hsame] at hle
    simpa using Nat.lt_succ_of_le hle

theorem rootPort_counted {p : RootPort} (hs : Counted s)
    (hok : p.Registers → (s.controllers hc).devicesCount < 127 ∧
      ((s.controllers hc).type = .xhci → p.addressed = true))
    (hrun : rootPort hc i p s = some s') : Counted s' := by
  unfold rootPort at hrun
  by_cases hconnected : p.connected = false
  · rw [if_pos hconnected] at hrun
    exact hs.same (setSlot_sameIds hrun)
  rw [if_neg hconnected] at hrun
  have hinit : Counted (rootPortInit hc p s).1 := rootPortInit_counted p hs
  by_cases hspeed : p.speed = false
  · simp only [hspeed, if_true] at hrun
    exact hinit.same (setSlot_sameIds hrun)
  dsimp only at hrun
  rw [if_neg hspeed] at hrun
  cases hregister : blUsbDeviceRegister hc (rootPortInit hc p s).2 p.device (rootPortInit hc p s).1
    with
  | mk s₁ d =>
    rw [hregister] at hrun
    cases d with
    | none =>
      obtain rfl := blUsbDeviceRegister_none hregister
      exact hinit.same (setSlot_sameIds hrun)
    | some d =>
      obtain ⟨s₂, hlink, hspecific⟩ := Option.bind_eq_some_iff.mp hrun
      refine Counted.same ?_ ((blUsbHubLinkDevice_sameIds hlink).trans
        (blUsbDeviceRegisterSpecificInfo_sameIds hspecific))
      obtain ⟨hcount, haddressed⟩ := hok ⟨Bool.not_eq_false _ ▸ hconnected,
        Bool.not_eq_false _ ▸ hspeed, blUsbDeviceRegister_served hregister⟩
      by_cases htype : (s.controllers hc).type = .xhci
      · exact rootPortInit_register_counted hs htype hcount (by simpa using hspeed)
          (haddressed htype) hregister
      · have hstate : rootPortInit hc p s = (s, none) := by simp [rootPortInit, htype]
        rw [hstate] at hregister
        exact blUsbDeviceRegister_counted hs htype hcount hregister

theorem hubPort_counted {p : HubPort} {pushed : Option HubPtr} (hs : Counted s)
    (hok : p.Registers → ∀ hub d device, s.hubs h = some hub → hub.device = some d →
      s.devices d = some device → (s.controllers device.controller).type ≠ .xhci ∧
        (s.controllers device.controller).devicesCount < 127)
    (hrun : hubPort h i p s = some (s', pushed)) : Counted s' := by
  obtain ⟨hub, hhub, hfound⟩ := Option.bind_eq_some_iff.mp hrun
  obtain ⟨device, howned, hport⟩ := Option.bind_eq_some_iff.mp hfound
  obtain ⟨owner, howner, hdevice⟩ := Option.bind_eq_some_iff.mp howned
  clear hrun hfound
  split_ifs at hport with hchange
  · obtain ⟨hchange, hconnected⟩ := Bool.and_eq_true_iff.mp hchange
    cases hregister : blUsbDeviceRegister device.controller none p.device s with
    | mk s₁ d =>
      rw [hregister] at hport
      cases d with
      | none =>
        obtain rfl := blUsbDeviceRegister_none hregister
        obtain ⟨rfl, -⟩ := Prod.mk.inj (Option.some.inj hport)
        exact hs
      | some d =>
        obtain ⟨s₂, hlink, hrest⟩ := Option.bind_eq_some_iff.mp hport
        obtain ⟨s₃, hspecific, hlast⟩ := Option.bind_eq_some_iff.mp hrest
        obtain ⟨device', -, hout⟩ := Option.map_eq_some_iff.mp hlast
        obtain ⟨rfl, -⟩ := Prod.mk.inj hout
        obtain ⟨htype, hcount⟩ := hok ⟨hchange, hconnected, blUsbDeviceRegister_served hregister⟩
          hub owner device hhub howner hdevice
        exact (blUsbDeviceRegister_counted hs htype hcount hregister).same
          ((blUsbHubLinkDevice_sameIds hlink).trans
            (blUsbDeviceRegisterSpecificInfo_sameIds hspecific))
  · obtain ⟨rfl, -⟩ := Prod.mk.inj (Option.some.inj hport)
    exact hs

/-! ## Runs -/

/-- What happens to the tree, a port at a time. -/
inductive Event where
  | rootRegister (hc : Nat) (served : Bool) (oldSlots : Nat → Nat)
  | rootPort (hc i : Nat) (p : RootPort)
  | rootLink (hc : Nat)
  | hubPort (h : HubPtr) (i : Nat) (p : HubPort)

def Event.run : Event → BlUsb → Option BlUsb
  | .rootRegister hc served oldSlots, s => some (UsbHub.rootRegister hc served oldSlots s).usb
  | .rootPort hc i p, s => UsbHub.rootPort hc i p s
  | .rootLink hc, s => UsbHub.rootLink hc s
  | .hubPort h i p, s => (UsbHub.hubPort h i p s).map Prod.fst

/-- Where a device is registered there is an address left for it, and it is told: no xHCI device is
behind a hub, and one on a root port comes to the Address Device command. -/
def Event.Addressable : Event → BlUsb → Prop
  | .rootPort hc _ p, s => p.Registers → (s.controllers hc).devicesCount < 127 ∧
      ((s.controllers hc).type = .xhci → p.addressed = true)
  | .hubPort h _ p, s => p.Registers → ∀ hub d device, s.hubs h = some hub →
      hub.device = some d → s.devices d = some device →
        (s.controllers device.controller).type ≠ .xhci ∧
          (s.controllers device.controller).devicesCount < 127
  | _, _ => True

theorem Counted.event (e : Event) (s s' : BlUsb) (hs : Counted s) (hok : e.Addressable s)
    (hrun : e.run s = some s') : Counted s' := by
  cases e with
  | rootRegister hc served oldSlots =>
    obtain rfl := Option.some.inj hrun
    exact hs.same (rootRegister_sameIds hc served oldSlots s)
  | rootPort hc i p => exact rootPort_counted hs hok hrun
  | rootLink hc => exact hs.same (rootLink_sameIds hrun)
  | hubPort h i p =>
    obtain ⟨⟨s₁, pushed⟩, hport, rfl⟩ := Option.map_eq_some_iff.mp hrun
    exact hubPort_counted hs hok hport

theorem setup_counted (controllers : Nat → BlUsbHostController) : Counted (setup controllers) where
  fresh _ _ := rfl
  range hd := by cases hd
  counted hd := by cases hd
  told hd := by cases hd
  unique hd := by cases hd

/-- The devices of a host controller have addresses of their own, which they were told. -/
structure Addressed (s : BlUsb) (hc : Nat) : Prop where
  unique : ∀ d d' device device', Linked s hc d device → Linked s hc d' device' →
    device.address = device'.address → d = d'
  range : ∀ d device, Linked s hc d device → 1 ≤ device.address ∧ device.address ≤ 127
  told : ∀ d device, Linked s hc d device → device.told = some device.address

/-- **While there are addresses left, and every device is told its own, they are unique**: after
any sequence of ports, with any devices and failures. -/
theorem run_addressed (controllers : Nat → BlUsbHostController) (es : List Event)
    (hok : Runs.Along Event.run Event.Addressable es (setup controllers))
    (hrun : Runs.run Event.run es (setup controllers) = some s) : ∀ hc, Addressed s hc := by
  have hs : Counted s := Runs.run_keeps Counted.event (setup_counted controllers) hok hrun
  intro hc
  refine ⟨fun d d' device device' hd hd' haddress => ?_, fun d device hd => ?_,
    fun d device hd => ?_⟩
  · obtain ⟨hcontroller, _, _, _, -, hholds⟩ := hd
    obtain ⟨hcontroller', _, _, _, -, hholds'⟩ := hd'
    exact hs.unique hholds.device_eq hholds'.device_eq (hcontroller.trans hcontroller'.symm)
      haddress
  · obtain ⟨-, _, _, _, -, hholds⟩ := hd
    exact hs.range hholds.device_eq
  · obtain ⟨-, _, _, _, -, hholds⟩ := hd
    exact hs.told hholds.device_eq

/-- **The calls are runs of these events.** -/
theorem step_events (input : Input) (st st' : State) (hstep : step input st = some st') :
    ∃ es, Runs.run Event.run es st.usb = some st'.usb := by
  obtain ⟨control, s⟩ := st
  have hsame : ∀ control', some (State.mk control' s) = some st' →
      ∃ es, Runs.run Event.run es s = some st'.usb := by
    intro control' h
    obtain rfl := Option.some.inj h
    exact ⟨[], rfl⟩
  have hone : ∀ (e : Event) s', e.run s = some s' → Runs.run Event.run [e] s = some s' := by
    intro e s' h
    rw [Runs.run, h]
    rfl
  cases control with
  | idle =>
    simp only [step] at hstep
    cases hcall : input.call with
    | rootRegister hc served oldSlots =>
      rw [hcall] at hstep
      obtain rfl := Option.some.inj hstep
      exact ⟨_, hone (.rootRegister hc served oldSlots) _ rfl⟩
    | poll =>
      rw [hcall] at hstep
      exact hsame _ hstep
    | dump hc served =>
      rw [hcall] at hstep
      obtain ⟨-, -, rfl⟩ := Option.map_eq_some_iff.mp hstep
      exact ⟨[], rfl⟩
  | rootPorts hc i =>
    obtain ⟨hub, -, hport⟩ := Option.bind_eq_some_iff.mp hstep
    split_ifs at hport
    · obtain ⟨s', hs', rfl⟩ := Option.map_eq_some_iff.mp hport
      exact ⟨_, hone (.rootPort hc i input.root) s' hs'⟩
    · obtain ⟨s', hs', rfl⟩ := Option.map_eq_some_iff.mp hport
      exact ⟨_, hone (.rootLink hc) s' hs'⟩
  | pollRoot root i =>
    cases root with
    | none => exact hsame _ hstep
    | some hc =>
      obtain ⟨hub, -, hport⟩ := Option.bind_eq_some_iff.mp hstep
      by_cases hi : i < hub.ports
      · rw [if_pos hi] at hport
        obtain ⟨device, -, hdevice⟩ := Option.bind_eq_some_iff.mp hport
        split_ifs at hdevice
        · exact hsame _ hdevice
        · exact hsame _ hdevice
      · rw [if_neg hi] at hport
        exact hsame _ hport
  | hubs hc i t =>
    obtain ⟨tail, waiting⟩ := t
    cases waiting <;> exact hsame _ hstep
  | hubPorts hc i t h port =>
    obtain ⟨hub, -, hport⟩ := Option.bind_eq_some_iff.mp hstep
    split_ifs at hport
    · obtain ⟨⟨s', pushed⟩, hs', rfl⟩ := Option.map_eq_some_iff.mp hport
      refine ⟨_, hone (.hubPort h port input.hub) s' ?_⟩
      rw [Event.run, hs']
      rfl
    · exact hsame _ hport

/-! ## A hub on the only root port, and a device on the only port of the hub -/

def hubThenDevice : List Event :=
  [.rootRegister 0 true fun _ => 0, .rootPort 0 0 ⟨true, true, true, hubDevice⟩,
    .hubPort (.block 3) 1 ⟨true, true, plainDevice⟩]

theorem hubThenDevice_run (type : BlUsbHostControllerType) : ∃ s hub device,
    Runs.run Event.run hubThenDevice (setup (onePort type)) = some s ∧
      Linked s 0 2 hub ∧ Linked s 0 5 device ∧
      (hub.address, device.address) = (1, if type = .xhci then 1 else 2) := by
  cases type <;> exact ⟨_, _, _, rfl, ⟨rfl, _, _, 0, .root, rfl, Nat.one_pos, rfl, rfl⟩,
    ⟨rfl, _, _, 0, .hub .root ⟨rfl, Nat.one_pos, rfl, rfl⟩ rfl, rfl, Nat.one_pos, rfl, rfl⟩, rfl⟩

theorem hubThenDevice_addressed : ∃ s,
    Runs.run Event.run hubThenDevice (setup (onePort .uhci)) = some s ∧
      ∀ hc, Addressed s hc := by
  obtain ⟨s, -, -, hrun, -⟩ := hubThenDevice_run .uhci
  refine ⟨s, hrun, run_addressed (onePort .uhci) hubThenDevice ⟨trivial, fun s₁ h₁ => ?_⟩ hrun⟩
  obtain rfl := Option.some.inj h₁
  refine ⟨fun _ => ⟨by decide, by decide⟩, fun s₂ h₂ => ⟨fun _ hub d device hhub hd hdevice => ?_,
    fun _ _ => trivial⟩⟩
  obtain ⟨s₂', hrun₂, hhub', hdevice', hcontroller⟩ : ∃ s₂',
      Event.run (.rootPort 0 0 ⟨true, true, true, hubDevice⟩)
        (rootRegister 0 true (fun _ => 0) (setup (onePort .uhci))).usb = some s₂' ∧
         (s₂'.hubs (.block 3)).map BlUsbHub.device = some (some 2) ∧
        (s₂'.devices 2).map BlUsbDevice.controller = some 0 ∧ s₂'.controllers 0 = ⟨.uhci, 1, 1⟩ :=
    ⟨_, rfl, rfl, rfl, rfl⟩
  obtain rfl := Option.some.inj (h₂.symm.trans hrun₂)
  rw [hhub, Option.map_some, hd, Option.some.injEq, Option.some.injEq] at hhub'
  rw [hhub'] at hdevice
  rw [hdevice, Option.map_some, Option.some.injEq] at hdevice'
  rw [hdevice', hcontroller]
  exact ⟨by decide, by decide⟩

/-- The device behind the hub of an xHCI controller has the address of the hub. -/
theorem hubThenDevice_not_addressed : ¬ ∀ controllers es s,
    Runs.run Event.run es (setup controllers) = some s → ∀ hc, Addressed s hc := by
  intro h
  obtain ⟨s, hub, device, hrun, hlinked, hlinked', haddress⟩ := hubThenDevice_run .xhci
  obtain ⟨hhub, hdevice⟩ := Prod.mk.inj haddress
  have hsame := (h _ _ s hrun 0).unique 2 5 hub device hlinked hlinked' (hhub.trans hdevice.symm)
  contradiction

end BootLoader.UsbHub
