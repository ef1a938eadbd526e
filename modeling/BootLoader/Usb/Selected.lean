import BootLoader.Usb.Hid

/-!
# The interface that was matched

What is stored of it is its number; what is read later is the element of this index.
-/

open ByteMemory Records

namespace BootLoader.UsbInterface

open Usb UsbHub

/-- What is accessed is the element at `i` of the array. -/
def OnlyAt (device : BlUsbDevice) (i : Nat) (accessed : List Nat) : Prop :=
  ∀ j ∈ accessed, j = i ∧ j < interfacesCount device.config

/-- From `bl_usb_get_hid_info` on, and in the driver once the keyboard is claimed. -/
def KeyboardUses (env : Env) (n m : Nat) (device : BlUsbDevice) (i : Nat) : Prop :=
  ∀ fuel claimed, OnlyAt device i (blUsbCheckKeyboard env n m fuel claimed device).1 ∧
    ∀ found, (blUsbCheckKeyboard env n m fuel claimed device).2 = some (.success, found) →
      ∀ supported, OnlyAt device i (blUsbKeyboardInitialize supported found).accessed

/-- A bulk endpoint of the interface at `i`, in one direction. -/
def IsBulk (device : BlUsbDevice) (i : Nat) (inward : Bool) (endp : BlUsbEndpoint) : Prop :=
  ∃ j < endpointsCount (device.interfaces i), endp.descriptor = some (i, j) ∧
    isIn (endpoint (device.interfaces i) j) = inward ∧
    attributes (endpoint (device.interfaces i) j) = 2

/-- The device after `k` calls. -/
def validated (device : BlUsbDevice) (k : Nat) : BlUsbDevice :=
  (fun d => (blUsbScsiValidateDevice d).device)^[k] device

/-- In every call of the driver once the disk is claimed. -/
def StorageUses (claimed : Bool) (device : BlUsbDevice) (i : Nat) : Prop :=
  ∀ found, blUsbCheckStorageDevice claimed device = (.success, found) → ∀ k,
    OnlyAt device i (blUsbScsiValidateDevice (validated found k)).accessed ∧
    ((blUsbScsiValidateDevice (validated found k)).status = .success →
      IsBulk device i true (validated found (k + 1)).storage.inEndp ∧
      IsBulk device i false (validated found (k + 1)).storage.outEndp)

variable {env : Env} {data : Mem} {n m i off selected : Nat} {number : Byte}
  {device found : BlUsbDevice} {b : Blob}

theorem firstInterface_spec {p : BlUsbInterface → Bool} (h : firstInterface p device = some i) :
    i < interfacesCount device.config ∧ p (device.interfaces i) = true := by
  unfold firstInterface at h
  have hlt := List.mem_range.mp (List.mem_of_find?_eq_some h)
  have hp := List.find?_some h
  exact ⟨hlt, hp⟩

theorem onlyAt_singleton :
    OnlyAt device i [selected] ↔ selected = i ∧ selected < interfacesCount device.config := by
  unfold OnlyAt
  simp

/-! ## Keyboards -/

theorem findInterface_accessed (fuel : Nat) :
    ∀ j ∈ (findInterface data selected number fuel off).1, j = selected := by
  induction fuel generalizing off with
  | zero => simp [findInterface]
  | succ fuel ih =>
    unfold findInterface
    split_ifs
    · simp
    · simpa using ih
    · exact ih

theorem mem_findInterface (hkind : recordKind data off = blUsbDescriptorTypeInterface)
    (fuel : Nat) : selected ∈ (findInterface data selected number (fuel + 1) off).1 := by
  unfold findInterface
  rw [if_pos hkind]
  split_ifs <;> simp

theorem blUsbGetHidInfo_accessed (fuel : Nat) :
    ∀ j ∈ (blUsbGetHidInfo env n m fuel device).1, j = device.keyboard.interface := by
  unfold blUsbGetHidInfo
  dsimp only
  split
  · simp
  · exact findInterface_accessed fuel

/-- The search for the HID descriptor leaves the number of the interface and the array as they
are. -/
theorem blUsbGetHidInfo_device {fuel : Nat} {info : HidInfo}
    (h : (blUsbGetHidInfo env n m fuel device).2 = some info) :
    ∃ hid, info.device = { device with keyboard := { device.keyboard with hid } } := by
  unfold blUsbGetHidInfo at h
  dsimp only at h
  split at h
  · cases h
    exact ⟨device.keyboard.hid, rfl⟩
  · obtain ⟨interface, -, hrest⟩ := Option.bind_eq_some_iff.mp h
    obtain ⟨q, -, rfl⟩ := Option.map_eq_some_iff.mp hrest
    exact ⟨_, rfl⟩

theorem blUsbCheckKeyboard_selected (h : firstInterface isKeyboard device = some i)
    (fuel : Nat) (claimed : Bool) :
    blUsbCheckKeyboard env n m fuel claimed device =
      let got := blUsbGetHidInfo env n m fuel (selectKeyboard i device)
      (got.1, got.2.map fun info =>
        (if info.status ≠ .success then info.status
          else if claimed then .success else .memoryAllocationFailed, info.device)) := by
  unfold blUsbCheckKeyboard
  rw [h]

theorem keyboardInitialize_accessed (supported : Bool) :
    ∀ j ∈ (blUsbKeyboardInitialize supported device).accessed,
      j = device.keyboard.interface := by
  unfold blUsbKeyboardInitialize
  dsimp only
  split_ifs <;> simp

theorem keyboardUses_of_number (h : firstInterface isKeyboard device = some i)
    (hnumber : (interfaceNumber (device.interfaces i)).toNat = i) :
    KeyboardUses env n m device i := by
  obtain ⟨hlt, -⟩ := firstInterface_spec h
  have honly : ∀ accessed : List Nat,
      (∀ j ∈ accessed, j = (selectKeyboard i device).keyboard.interface) →
        OnlyAt device i accessed := by
    intro accessed hall j hj
    have hj := (hall j hj).trans hnumber
    exact ⟨hj, hj ▸ hlt⟩
  intro fuel claimed
  rw [blUsbCheckKeyboard_selected h]
  refine ⟨honly _ (blUsbGetHidInfo_accessed fuel), fun found hfound supported => ?_⟩
  obtain ⟨info, hinfo, hpair⟩ := Option.map_eq_some_iff.mp hfound
  obtain ⟨hid, hdevice⟩ := blUsbGetHidInfo_device hinfo
  have heq : found = info.device := (congrArg Prod.snd hpair).symm
  rw [heq, hdevice]
  exact honly _ (keyboardInitialize_accessed supported)

theorem mem_blUsbGetHidInfo {run : InterfaceRun} (h : Reports env n device b)
    (htotal : totalLength b.descriptor.bytes = b.bytes.length) (hrun : b.interfaces[0]? = some run)
    (hserved : env.heapAlloc m (totalLength device.config) ≠ none) :
    device.keyboard.interface ∈ (blUsbGetHidInfo env n m (1 + b.before.length) device).1 := by
  obtain ⟨data, hdata, hcall⟩ := blUsbGetHidInfo_served h htotal hserved
  obtain ⟨hdescriptor, -⟩ := hasBytes_append.mp (first_run hdata hrun)
  rw [hcall, findInterface_start hdata]
  exact mem_findInterface ((recordKind_of_hasBytes hdescriptor).trans run.descriptor_kind) 0

theorem keyboardUses_iff {run : InterfaceRun} (h : Reports env n device b)
    (htotal : totalLength b.descriptor.bytes = b.bytes.length) (hrun : b.interfaces[0]? = some run)
    (hfirst : firstInterface isKeyboard device = some i) :
    KeyboardUses env n m device i ↔
      (interfaceNumber (device.interfaces i)).toNat = i ∨
        env.heapAlloc m (totalLength device.config) = none := by
  constructor
  · intro huses
    by_cases hserved : env.heapAlloc m (totalLength device.config) = none
    · exact .inr hserved
    have hreports : Reports env n (selectKeyboard i device) b :=
      ⟨h.config, h.interfaces, h.delivers⟩
    have honly := (huses (1 + b.before.length) true).1
    rw [blUsbCheckKeyboard_selected hfirst] at honly
    exact .inl (honly _ (mem_blUsbGetHidInfo hreports htotal hrun hserved)).1
  · rintro (hnumber | hrefused)
    · exact keyboardUses_of_number hfirst hnumber
    · intro fuel claimed
      have hnone : blUsbGetHidInfo env n m fuel (selectKeyboard i device) =
          ([], some ⟨_, .memoryAllocationFailed, [], []⟩) :=
        blUsbGetHidInfo_refused fuel hrefused
      rw [blUsbCheckKeyboard_selected hfirst, hnone]
      refine ⟨by simp [OnlyAt], fun found hfound => ?_⟩
      cases hfound

/-! ## Disks -/

/-- What holds of a device whose disk has the interface at `i`. -/
structure Prepared (device : BlUsbDevice) (i : Nat) (storage : BlUsbStorage) : Prop where
  interface : storage.interface = i
  inEndp : storage.inEndp.descriptor ≠ none → IsBulk device i true storage.inEndp
  outEndp : storage.outEndp.descriptor ≠ none → IsBulk device i false storage.outEndp

theorem Prepared.storageEndpoint {storage : BlUsbStorage} {j : Nat}
    (h : Prepared device i storage) (hj : j < endpointsCount (device.interfaces i)) :
    Prepared device i (storageEndpoint i (device.interfaces i) storage j) := by
  unfold UsbInterface.storageEndpoint
  dsimp only
  split_ifs with hin hout hout
  · exact ⟨h.interface, fun _ => ⟨j, hj, rfl, hin.2⟩, fun _ => ⟨j, hj, rfl, hout.2⟩⟩
  · exact ⟨h.interface, fun _ => ⟨j, hj, rfl, hin.2⟩, h.outEndp⟩
  · exact ⟨h.interface, h.inEndp, fun _ => ⟨j, hj, rfl, hout.2⟩⟩
  · exact h

theorem Prepared.storageEndpoints {storage : BlUsbStorage} (h : Prepared device i storage) :
    Prepared device i ((List.range (endpointsCount (device.interfaces i))).foldl
      (UsbInterface.storageEndpoint i (device.interfaces i)) storage) := by
  refine List.foldlRecOn _ _ h fun storage hstorage j hj => ?_
  exact hstorage.storageEndpoint (List.mem_range.mp hj)

theorem blUsbScsiValidateDevice_accessed (device : BlUsbDevice) :
    (blUsbScsiValidateDevice device).accessed = [device.storage.interface] := by
  unfold blUsbScsiValidateDevice
  dsimp only
  split_ifs <;> rfl

/-- One call keeps what was prepared, and with success there are two endpoints. -/
theorem blUsbScsiValidateDevice_spec (hsame : found.interfaces = device.interfaces)
    (h : Prepared device i found.storage) :
    (blUsbScsiValidateDevice found).device.interfaces = device.interfaces ∧
      Prepared device i (blUsbScsiValidateDevice found).device.storage ∧
      ((blUsbScsiValidateDevice found).status = .success →
        (blUsbScsiValidateDevice found).device.storage.inEndp.descriptor ≠ none ∧
        (blUsbScsiValidateDevice found).device.storage.outEndp.descriptor ≠ none) := by
  have hall := h.storageEndpoints
  unfold blUsbScsiValidateDevice
  rw [h.interface, hsame]
  dsimp only
  split_ifs with hclass hprotocol hnone
  · exact ⟨hsame, h, fun hstatus => by cases hstatus⟩
  · exact ⟨hsame, h, fun hstatus => by cases hstatus⟩
  · exact ⟨rfl, hall, fun hstatus => by cases hstatus⟩
  · exact ⟨rfl, hall, fun _ => not_or.mp hnone⟩

theorem validated_prepared (hsame : found.interfaces = device.interfaces)
    (h : Prepared device i found.storage) (k : Nat) :
    (validated found k).interfaces = device.interfaces ∧
      Prepared device i (validated found k).storage := by
  induction k with
  | zero => exact ⟨hsame, h⟩
  | succ k ih =>
    unfold validated at ih ⊢
    rw [Function.iterate_succ_apply']
    obtain ⟨hkept, hprepared, -⟩ := blUsbScsiValidateDevice_spec ih.1 ih.2
    exact ⟨hkept, hprepared⟩

theorem blUsbCheckStorageDevice_selected (h : firstInterface isStorage device = some i)
    (claimed : Bool) :
    blUsbCheckStorageDevice claimed device =
      (if claimed then .success else .memoryAllocationFailed, selectStorage i device) := by
  unfold blUsbCheckStorageDevice
  rw [h]

theorem storageUses_iff (hfresh : device.storage = ⟨0, ⟨0, none⟩, ⟨0, none⟩⟩)
    (hfirst : firstInterface isStorage device = some i) (claimed : Bool) :
    StorageUses claimed device i ↔
      (interfaceNumber (device.interfaces i)).toNat = i ∨ claimed = false := by
  obtain ⟨hlt, -⟩ := firstInterface_spec hfirst
  unfold StorageUses
  rw [blUsbCheckStorageDevice_selected hfirst]
  constructor
  · intro huses
    cases claimed with
    | false => exact .inr rfl
    | true =>
      obtain ⟨honly, -⟩ := huses _ rfl 0
      rw [blUsbScsiValidateDevice_accessed, onlyAt_singleton] at honly
      exact .inl honly.1
  · rintro (hnumber | rfl) found hfound k
    · have hsel : found = selectStorage i device := (congrArg Prod.snd hfound).symm
      have hprepared : Prepared device i found.storage := by
        rw [hsel]
        unfold selectStorage
        rw [hfresh]
        exact ⟨hnumber, fun h => absurd rfl h, fun h => absurd rfl h⟩
      have hsame : found.interfaces = device.interfaces := by rw [hsel]; rfl
      obtain ⟨hkept, hbefore⟩ := validated_prepared hsame hprepared k
      obtain ⟨-, hafter, hchosen⟩ := blUsbScsiValidateDevice_spec hkept hbefore
      refine ⟨?_, fun hstatus => ?_⟩
      · rw [blUsbScsiValidateDevice_accessed, onlyAt_singleton, hbefore.interface]
        exact ⟨rfl, hlt⟩
      · obtain ⟨hin, hout⟩ := hchosen hstatus
        unfold validated
        rw [Function.iterate_succ_apply']
        exact ⟨hafter.inEndp hin, hafter.outEndp hout⟩
    · cases hfound

/-- **When the drivers use the interface that was matched.** Its number has to be its place. -/
theorem selectedInterface_used_iff (env : Env) (n m : Nat) (claimed : Bool) (device : BlUsbDevice)
    (hfresh : device.storage = ⟨0, ⟨0, none⟩, ⟨0, none⟩⟩) :
    (∀ b run i, Reports env n device b → totalLength b.descriptor.bytes = b.bytes.length →
      b.interfaces[0]? = some run → firstInterface isKeyboard device = some i →
        (KeyboardUses env n m device i ↔
          (interfaceNumber (device.interfaces i)).toNat = i ∨
            env.heapAlloc m (totalLength device.config) = none)) ∧
    ∀ i, firstInterface isStorage device = some i →
      (StorageUses claimed device i ↔
        (interfaceNumber (device.interfaces i)).toNat = i ∨ claimed = false) :=
  ⟨fun _ _ _ h htotal hrun hfirst => keyboardUses_iff h htotal hrun hfirst,
    fun _ hfirst => storageUses_iff hfresh hfirst claimed⟩

/-! ## A disk whose interface has the number 1 -/

def diskRun : InterfaceRun where
  descriptor := ⟨0x04, [1, 0, 2, 8, 6, 0x50, 0], by decide⟩
  others := [⟨0x05, [0x81, 2, 0x40, 0, 0], by decide⟩, ⟨0x05, [0x02, 2, 0x40, 0, 0], by decide⟩]
  descriptor_kind := rfl
  others_kind := by decide

def compositeBlob : Blob :=
  .ofRuns ⟨0x02, [57, 0, 2, 1, 0, 0xa0, 50], by decide⟩ [hidRun 0 1, diskRun]

def diskBlob : Blob := .ofRuns ⟨0x02, [32, 0, 1, 1, 0, 0xa0, 50], by decide⟩ [diskRun]

theorem compositeBlob_used :
    KeyboardUses (delivering compositeBlob) 4 4 (deviceOf compositeBlob 0) 0 ∧
      StorageUses true (deviceOf compositeBlob 0) 1 := by
  obtain ⟨hkeyboard, hstorage⟩ :=
    selectedInterface_used_iff (delivering compositeBlob) 4 4 true (deviceOf compositeBlob 0) rfl
  have hreports := deviceOf_reports compositeBlob 0 4
  exact ⟨(hkeyboard compositeBlob (hidRun 0 1) 0 hreports (by decide) rfl (by decide)).mpr
    (.inl (by decide)), (hstorage 1 (by decide)).mpr (.inl (by decide))⟩

theorem diskBlob_not_used : ¬ ∀ (claimed : Bool) (device : BlUsbDevice) (i : Nat),
    device.storage = ⟨0, ⟨0, none⟩, ⟨0, none⟩⟩ → firstInterface isStorage device = some i →
      StorageUses claimed device i := by
  intro h
  have huses := h true (deviceOf diskBlob 0) 0 rfl (by decide)
  have hnumber := (storageUses_iff rfl (by decide) true).mp huses
  revert hnumber
  decide

end BootLoader.UsbInterface
