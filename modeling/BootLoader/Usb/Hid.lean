import BootLoader.Lib.Fuel
import BootLoader.Usb.Interfaces
import BootLoader.Usb.Parse

/-!
# The HID descriptor of a keyboard

The search for the keyboard's interface does not get past an interface of another number.
-/

open ByteMemory Records Filter

namespace BootLoader.UsbInterface

open Usb

/-- An interface descriptor and what stands up to the next one. -/
structure InterfaceRun where
  descriptor : Record
  others : List Record
  descriptor_kind : descriptor.kind = blUsbDescriptorTypeInterface
  others_kind : ∀ r ∈ others, r.kind ≠ blUsbDescriptorTypeInterface

structure Blob where
  descriptor : Record
  before : List Record
  interfaces : List InterfaceRun
  before_kind : ∀ r ∈ before, r.kind ≠ blUsbDescriptorTypeInterface

def InterfaceRun.bytes (i : InterfaceRun) : List Byte :=
  i.descriptor.bytes ++ i.others.flatMap Record.bytes

def Blob.bytes (b : Blob) : List Byte :=
  b.descriptor.bytes ++ b.before.flatMap Record.bytes ++ b.interfaces.flatMap InterfaceRun.bytes

/-- The interfaces are numbered from 0 on. -/
structure Blob.WellFormed (b : Blob) : Prop where
  total_length : totalLength b.descriptor.bytes = b.bytes.length
  numbered : ∀ i run, b.interfaces[i]? = some run →
    i < 256 ∧ run.descriptor.bytes[2]? = some (BitVec.ofNat 8 i)

def InterfaceRun.hid (i : InterfaceRun) : Option Record :=
  i.others.find? fun r => r.kind = blUsbDescriptorTypeHid

/-- The device was read from these bytes, and delivers them again. -/
structure Reports (env : Env) (n : Nat) (device : BlUsbDevice) (b : Blob) : Prop where
  config : device.config = b.descriptor.bytes.take sizeofConfigurationDescriptor
  interfaces : ∀ i run, b.interfaces[i]? = some run →
    (device.interfaces i).descriptor = run.descriptor.bytes.take sizeofInterfaceDescriptor
  delivers : HasBytes (blUsbGetDescriptor env n 0 blUsbDescriptorTypeConfig 0 0 b.bytes.length) 0
    b.bytes

/-- The call ends with what it has allocated freed, and with a copy of `hid` if there was room. -/
def HidCopied (env : Env) (n m : Nat) (device : BlUsbDevice) (hid : Record) : Prop :=
  ∀ᶠ fuel in atTop, ∃ info, (blUsbGetHidInfo env n m fuel device).2 = some info ∧
    info.freed = info.allocated ∧
    (env.heapAlloc m (totalLength device.config) = none →
      info.status = .memoryAllocationFailed ∧ info.device = device) ∧
    (env.heapAlloc m (totalLength device.config) ≠ none →
      info.status = .success ∧ ∃ copied : List Byte,
        info.device = { device with keyboard := { device.keyboard with hid := copied } } ∧
        copied.length = sizeofHidDescriptor ∧
        copied.take hid.bytes.length = hid.bytes.take sizeofHidDescriptor)

variable {env : Env} {data : Mem} {a n m off selected : Nat} {number : Byte}
  {device : BlUsbDevice} {b : Blob}

/-! ## The two loops -/

theorem findInterface_here (hkind : recordKind data off = blUsbDescriptorTypeInterface)
    (hnumber : data (off + 2) = number) (fuel : Nat) :
    findInterface data selected number (fuel + 1) off = ([selected], some off) := by
  unfold findInterface
  rw [if_pos hkind, if_pos hnumber]

theorem findInterface_stuck (hkind : recordKind data off = blUsbDescriptorTypeInterface)
    (hnumber : data (off + 2) ≠ number) (fuel : Nat) :
    findInterface data selected number fuel off = (List.replicate fuel selected, none) := by
  induction fuel with
  | zero => rfl
  | succ fuel ih =>
    unfold findInterface
    rw [if_pos hkind, if_neg hnumber, ih]
    rfl

theorem findInterface_skip {rs : List Record} (h : HasBytes data a (rs.flatMap Record.bytes))
    (hkind : ∀ r ∈ rs, r.kind ≠ blUsbDescriptorTypeInterface) (fuel : Nat) :
    findInterface data selected number (fuel + rs.length) a =
      findInterface data selected number fuel (a + (rs.flatMap Record.bytes).length) := by
  induction rs generalizing a with
  | nil => rfl
  | cons r rs ih =>
    rw [List.flatMap_cons, hasBytes_append] at h
    obtain ⟨hr, hrs⟩ := h
    have hother : recordKind data a ≠ blUsbDescriptorTypeInterface := by
      rw [recordKind_of_hasBytes hr]
      exact hkind r (by simp)
    rw [List.length_cons, ← Nat.add_assoc, findInterface, if_neg hother,
      recordLength_of_hasBytes hr, ih hrs fun r' hr' => hkind r' (by simp [hr']),
      List.flatMap_cons, List.length_append, Nat.add_assoc]

theorem findHid_first {rs : List Record} {hid : Record}
    (h : HasBytes data a (rs.flatMap Record.bytes))
    (hfirst : (rs.find? fun r => r.kind = blUsbDescriptorTypeHid) = some hid) :
    ∃ q, HasBytes data q hid.bytes ∧ ∀ᶠ fuel in atTop, findHid data fuel a = some q := by
  induction rs generalizing a with
  | nil => cases hfirst
  | cons r rs ih =>
    rw [List.flatMap_cons, hasBytes_append] at h
    obtain ⟨hr, hrs⟩ := h
    have hkind := recordKind_of_hasBytes hr
    by_cases hhid : r.kind = blUsbDescriptorTypeHid
    · rw [List.find?_cons_of_pos (by simpa using hhid)] at hfirst
      cases hfirst
      refine ⟨a, hr, Fuel.eventually_of_succ fun fuel => ?_⟩
      unfold findHid
      rw [if_pos (hkind.trans hhid)]
    · rw [List.find?_cons_of_neg (by simpa using hhid)] at hfirst
      obtain ⟨q, hq, hfound⟩ := ih hrs hfirst
      refine ⟨q, hq, Fuel.eventually_round hfound fun fuel hfuel => ?_⟩
      unfold findHid
      rwa [if_neg (by rwa [hkind]), recordLength_of_hasBytes hr]

/-! ## The interface of a number -/

theorem interfaceNumber_eq {i : Nat} {run : InterfaceRun} (h : Reports env n device b)
    (hwf : b.WellFormed) (hrun : b.interfaces[i]? = some run) :
    interfaceNumber (device.interfaces i) = BitVec.ofNat 8 i := by
  unfold interfaceNumber
  rw [h.interfaces i run hrun, List.getD_eq_getElem?_getD, List.getElem?_take_of_lt (by decide),
    (hwf.numbered i run hrun).2]
  rfl

def Blob.start (b : Blob) : Nat :=
  b.descriptor.bytes.length + (b.before.flatMap Record.bytes).length

/-- The first loop comes to the first interface, whatever interface is looked for. -/
theorem findInterface_start (h : HasBytes data 0 b.bytes) (fuel : Nat) :
    findInterface data selected number (fuel + b.before.length) b.descriptor.bytes.length =
      findInterface data selected number fuel b.start := by
  rw [Blob.bytes, hasBytes_append, hasBytes_append, Nat.zero_add] at h
  exact findInterface_skip h.1.2 b.before_kind fuel

theorem first_run {run : InterfaceRun} (h : HasBytes data 0 b.bytes)
    (hrun : b.interfaces[0]? = some run) : HasBytes data b.start run.bytes := by
  obtain ⟨rest, hcons⟩ : ∃ rest, b.interfaces = run :: rest := by
    cases hruns : b.interfaces with
    | nil => simp [hruns] at hrun
    | cons r rest =>
      rw [hruns, List.getElem?_cons_zero] at hrun
      exact ⟨rest, congrArg (· :: rest) (Option.some.inj hrun)⟩
  rw [Blob.bytes, hcons, List.flatMap_cons, hasBytes_append, List.length_append, Nat.zero_add] at h
  exact (hasBytes_append.mp h.2).1

theorem bytesAt_take {bs : List Byte} (h : HasBytes data a bs) (k : Nat) :
    (bytesAt data a k).take bs.length = bs.take k := by
  rcases le_total k bs.length with hk | hk
  · rw [bytesAt_eq h hk, List.take_of_length_le (by rw [List.length_take]; omega)]
  · rw [List.take_of_length_le hk, ← List.take_length (l := bs), ← bytesAt_eq h le_rfl]
    simp [bytesAt, ← List.map_take, List.take_range, hk]

/-! ## The whole call -/

theorem blUsbGetHidInfo_refused (fuel : Nat)
    (h : env.heapAlloc m (totalLength device.config) = none) :
    blUsbGetHidInfo env n m fuel device =
      ([], some ⟨device, .memoryAllocationFailed, [], []⟩) := by
  unfold blUsbGetHidInfo
  simp only [h]

theorem hidCopied_of_refused (hid : Record)
    (h : env.heapAlloc m (totalLength device.config) = none) :
    HidCopied env n m device hid := by
  refine .of_forall fun fuel => ?_
  rw [blUsbGetHidInfo_refused fuel h]
  exact ⟨_, rfl, rfl, fun _ => ⟨rfl, rfl⟩, fun hserved => absurd h hserved⟩

/-- What the device was asked for is the whole blob. -/
theorem config_of_reports (h : Reports env n device b)
    (htotal : totalLength b.descriptor.bytes = b.bytes.length) :
    totalLength device.config = b.bytes.length ∧
      configLength device.config = b.descriptor.bytes.length := by
  obtain ⟨hlen, htake, -⟩ := config_take b.descriptor.bytes
  rw [h.config, sizeofConfigurationDescriptor, htake, hlen, configLength_bytes]
  exact ⟨htotal, rfl⟩

theorem blUsbGetHidInfo_served (h : Reports env n device b)
    (htotal : totalLength b.descriptor.bytes = b.bytes.length)
    (hserved : env.heapAlloc m (totalLength device.config) ≠ none) :
    ∃ data, HasBytes data 0 b.bytes ∧ ∀ fuel, blUsbGetHidInfo env n m fuel device =
      let found := findInterface data device.keyboard.interface
        (interfaceNumber (device.interfaces device.keyboard.interface)) fuel
        b.descriptor.bytes.length
      (found.1, found.2.bind fun interface =>
        (findHid data fuel (interface + recordLength data interface)).map fun hid =>
          let keyboard := { device.keyboard with hid := bytesAt data hid sizeofHidDescriptor }
          ⟨{ device with keyboard }, .success, [b.bytes.length], [b.bytes.length]⟩) := by
  obtain ⟨hsize, hlength⟩ := config_of_reports h htotal
  obtain ⟨block, hblock⟩ := Option.ne_none_iff_exists'.mp hserved
  refine ⟨_, h.delivers, fun fuel => ?_⟩
  unfold blUsbGetHidInfo
  simp only [hblock]
  rw [hsize, hlength]

theorem hidCopied_first {run : InterfaceRun} {hid : Record} (h : Reports env n device b)
    (hwf : b.WellFormed) (hrun : b.interfaces[0]? = some run) (hhid : run.hid = some hid)
    (hkeyboard : device.keyboard.interface = 0)
    (hserved : env.heapAlloc m (totalLength device.config) ≠ none) :
    HidCopied env n m device hid := by
  obtain ⟨data, hdata, hcall⟩ := blUsbGetHidInfo_served h hwf.total_length hserved
  obtain ⟨hdescriptor, hothers⟩ := hasBytes_append.mp (first_run hdata hrun)
  obtain ⟨q, hq, hfound⟩ := findHid_first hothers hhid
  have hnumber : data (b.start + 2) = interfaceNumber (device.interfaces 0) := by
    rw [interfaceNumber_eq h hwf hrun]
    exact hasBytes_getElem? hdescriptor (hwf.numbered 0 run hrun).2
  have hkind : recordKind data b.start = blUsbDescriptorTypeInterface :=
    (recordKind_of_hasBytes hdescriptor).trans run.descriptor_kind
  rw [← recordLength_of_hasBytes hdescriptor] at hfound
  filter_upwards [hfound, eventually_gt_atTop b.before.length] with fuel hfuel hlong
  obtain ⟨k, rfl⟩ : ∃ k, fuel = k + 1 + b.before.length := ⟨fuel - 1 - b.before.length, by omega⟩
  rw [hcall, findInterface_start hdata, hkeyboard, findInterface_here hkind hnumber]
  dsimp only
  rw [Option.bind_some, hfuel]
  refine ⟨_, rfl, rfl, fun hrefused => absurd hrefused hserved, fun _ => ⟨rfl, _, rfl, ?_, ?_⟩⟩
  · simp [bytesAt]
  · exact bytesAt_take hq sizeofHidDescriptor

/-- The keyboard's interface is a later one: no amount of fuel is enough. -/
theorem blUsbGetHidInfo_later {run : InterfaceRun} {k : Nat} (h : Reports env n device b)
    (hwf : b.WellFormed) (hrun : b.interfaces[k]? = some run) (hk : k ≠ 0)
    (hkeyboard : device.keyboard.interface = k)
    (hserved : env.heapAlloc m (totalLength device.config) ≠ none) (fuel : Nat) :
    (blUsbGetHidInfo env n m (fuel + b.before.length) device).2 = none := by
  obtain ⟨data, hdata, hcall⟩ := blUsbGetHidInfo_served h hwf.total_length hserved
  obtain ⟨hlt, -⟩ := hwf.numbered k run hrun
  obtain ⟨hin, -⟩ := List.getElem?_eq_some_iff.mp hrun
  have hfirst : b.interfaces[0]? = some b.interfaces[0] := List.getElem?_eq_getElem (by omega)
  obtain ⟨hdescriptor, -⟩ := hasBytes_append.mp (first_run hdata hfirst)
  have hkind : recordKind data b.start = blUsbDescriptorTypeInterface :=
    (recordKind_of_hasBytes hdescriptor).trans b.interfaces[0].descriptor_kind
  have hnumber : data (b.start + 2) ≠ interfaceNumber (device.interfaces k) := by
    rw [interfaceNumber_eq h hwf hrun,
      hasBytes_getElem? hdescriptor (hwf.numbered 0 _ hfirst).2]
    intro heq
    have hval := congrArg BitVec.toNat heq
    rw [BitVec.toNat_ofNat, BitVec.toNat_ofNat] at hval
    omega
  rw [hcall, findInterface_start hdata, hkeyboard, findInterface_stuck hkind hnumber]
  rfl

theorem not_hidCopied_later {run : InterfaceRun} {k : Nat} (h : Reports env n device b)
    (hwf : b.WellFormed) (hrun : b.interfaces[k]? = some run) (hk : k ≠ 0)
    (hkeyboard : device.keyboard.interface = k)
    (hserved : env.heapAlloc m (totalLength device.config) ≠ none) (hid : Record) :
    ¬ HidCopied env n m device hid := by
  intro hcopied
  obtain ⟨fuel, ⟨info, hinfo, -⟩, hlong⟩ :=
    (hcopied.and (eventually_ge_atTop b.before.length)).exists
  obtain ⟨rest, rfl⟩ := Nat.exists_eq_add_of_le' hlong
  rw [blUsbGetHidInfo_later h hwf hrun hk hkeyboard hserved rest] at hinfo
  cases hinfo

/-- **When the HID descriptor of a keyboard is copied.** The search ends at the first interface, or
stays there for ever. -/
theorem blUsbGetHidInfo_copied_iff {run : InterfaceRun} {hid : Record} {k : Nat}
    (h : Reports env n device b) (hwf : b.WellFormed) (hrun : b.interfaces[k]? = some run)
    (hhid : run.hid = some hid) (hkeyboard : device.keyboard.interface = k) (m : Nat) :
    HidCopied env n m device hid ↔
      k = 0 ∨ env.heapAlloc m (totalLength device.config) = none := by
  by_cases hserved : env.heapAlloc m (totalLength device.config) = none
  · exact iff_of_true (hidCopied_of_refused hid hserved) (.inr hserved)
  rw [or_iff_left hserved]
  constructor
  · intro hcopied
    by_contra hk
    exact not_hidCopied_later h hwf hrun hk hkeyboard hserved hid hcopied
  · rintro rfl
    exact hidCopied_first h hwf hrun hhid hkeyboard hserved

/-! ## A mouse and a keyboard -/

/-- With the protocol 1 of a keyboard, or 2 of a mouse. -/
def hidRun (number protocol : Byte) : InterfaceRun where
  descriptor := ⟨0x04, [number, 0, 1, 3, 1, protocol, 0], by simp⟩
  others := [⟨0x21, [0x10, 1, 0, 1, 0x22, 0x41, 0], by decide⟩,
    ⟨0x05, [0x81, 3, 8, 0, 24], by decide⟩]
  descriptor_kind := rfl
  others_kind := by decide

def Blob.ofRuns (descriptor : Record) (interfaces : List InterfaceRun) : Blob where
  descriptor := descriptor
  before := []
  interfaces := interfaces
  before_kind := List.forall_mem_nil _

def keyboardBlob : Blob := .ofRuns ⟨0x02, [34, 0, 1, 1, 0, 0xa0, 49], by decide⟩ [hidRun 0 1]

def mouseBlob : Blob :=
  .ofRuns ⟨0x02, [59, 0, 2, 1, 0, 0xa0, 49], by decide⟩ [hidRun 0 2, hidRun 1 1]

theorem keyboardBlob_wellFormed : keyboardBlob.WellFormed where
  total_length := by decide
  numbered i run h := by
    match i, h with
    | 0, rfl => exact ⟨by decide, rfl⟩

theorem mouseBlob_wellFormed : mouseBlob.WellFormed where
  total_length := by decide
  numbered i run h := by
    match i, h with
    | 0, rfl => exact ⟨by decide, rfl⟩
    | 1, rfl => exact ⟨by decide, rfl⟩

def delivering (b : Blob) : Env where
  controlTransfer _ _ := ofBytes b.bytes
  heapAlloc _ sz := some ⟨sz, le_rfl⟩

/-- What is kept of the descriptors. -/
def InterfaceRun.interface (i : InterfaceRun) : BlUsbInterface where
  descriptor := i.descriptor.bytes.take sizeofInterfaceDescriptor
  endpoints := some ((i.others.filter fun r => r.kind = blUsbDescriptorTypeEndpoint).map
    fun r => r.bytes.take sizeofEndpointDescriptor)

/-- The device with these bytes, whose keyboard has the interface `k`. -/
def deviceOf (b : Blob) (k : Nat) : BlUsbDevice where
  config := b.descriptor.bytes.take sizeofConfigurationDescriptor
  interfaces i := b.interfaces[i]?.elim ⟨[], none⟩ InterfaceRun.interface
  type := UsbHub.blUsbKeyboardDevice
  keyboard := ⟨k, [], ⟨0, none⟩⟩
  storage := ⟨0, ⟨0, none⟩, ⟨0, none⟩⟩

theorem deviceOf_reports (b : Blob) (k n : Nat) : Reports (delivering b) n (deviceOf b k) b where
  config := rfl
  interfaces i run h := by simp [deviceOf, InterfaceRun.interface, h]
  delivers := hasBytes_ofBytes b.bytes

theorem keyboardBlob_copied : HidCopied (delivering keyboardBlob) 4 4 (deviceOf keyboardBlob 0)
    ⟨0x21, [0x10, 1, 0, 1, 0x22, 0x41, 0], by decide⟩ :=
  (blUsbGetHidInfo_copied_iff (deviceOf_reports keyboardBlob 0 4) keyboardBlob_wellFormed rfl rfl
    rfl 4).mpr (.inl rfl)

theorem mouseBlob_not_copied : ¬ ∀ (env : Env) (n m : Nat) (device : BlUsbDevice) (b : Blob)
    (run : InterfaceRun) (hid : Record), Reports env n device b → b.WellFormed →
      b.interfaces[device.keyboard.interface]? = some run → run.hid = some hid →
      HidCopied env n m device hid := by
  intro h
  have hreports := deviceOf_reports mouseBlob 1 4
  have hcopied := h _ 4 4 _ mouseBlob (hidRun 1 1)
    ⟨0x21, [0x10, 1, 0, 1, 0x22, 0x41, 0], by decide⟩ hreports mouseBlob_wellFormed rfl rfl
  exact not_hidCopied_later hreports mouseBlob_wellFormed rfl one_ne_zero rfl
    (Option.some_ne_none _) _ hcopied

end BootLoader.UsbInterface
