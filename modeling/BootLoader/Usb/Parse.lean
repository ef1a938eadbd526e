import BootLoader.Usb.Bounds

/-!
# What is read of a well-formed configuration

Descriptors of kinds that are not looked for may stand between any two.
-/

open ByteMemory Records Filter

namespace BootLoader.Usb

/-- A descriptor that is neither an interface nor an endpoint. -/
def Foreign (r : Record) : Prop :=
  r.kind ≠ blUsbDescriptorTypeInterface ∧ r.kind ≠ blUsbDescriptorTypeEndpoint

instance (r : Record) : Decidable (Foreign r) := inferInstanceAs (Decidable (_ ∧ _))

/-- An endpoint descriptor and what stands before it. -/
structure EndpointPart where
  before : List Record
  descriptor : Record
  before_foreign : ∀ r ∈ before, Foreign r
  descriptor_kind : descriptor.kind = blUsbDescriptorTypeEndpoint
  descriptor_length : sizeofEndpointDescriptor ≤ descriptor.bytes.length

/-- An interface descriptor with its endpoints, and what stands before it. -/
structure InterfacePart where
  before : List Record
  descriptor : Record
  endpoints : List EndpointPart
  before_foreign : ∀ r ∈ before, Foreign r
  descriptor_kind : descriptor.kind = blUsbDescriptorTypeInterface
  descriptor_length : descriptor.bytes.length = sizeofInterfaceDescriptor
  no_alternate : descriptor.bytes[3]? = some 0
  num_endpoints : descriptor.bytes[4]?.map BitVec.toNat = some endpoints.length

/-- A configuration with what stands behind its last endpoint. -/
structure Configuration where
  descriptor : Record
  interfaces : List InterfacePart
  tail : List Record
  tail_foreign : ∀ r ∈ tail, Foreign r
  descriptor_kind : descriptor.kind = BitVec.ofNat 8 blUsbDescriptorTypeConfig
  descriptor_length : sizeofConfigurationDescriptor ≤ descriptor.bytes.length

def EndpointPart.bytes (e : EndpointPart) : List Byte :=
  e.before.flatMap Record.bytes ++ e.descriptor.bytes

def InterfacePart.bytes (i : InterfacePart) : List Byte :=
  i.before.flatMap Record.bytes ++ i.descriptor.bytes ++ i.endpoints.flatMap EndpointPart.bytes

def Configuration.bytes (c : Configuration) : List Byte :=
  c.descriptor.bytes ++ c.interfaces.flatMap InterfacePart.bytes ++ c.tail.flatMap Record.bytes

/-- The counts in the configuration descriptor are right. -/
structure Configuration.WellFormed (c : Configuration) : Prop where
  total_length : totalLength c.descriptor.bytes = c.bytes.length
  interfaces_count : interfacesCount c.descriptor.bytes = c.interfaces.length

/-- What `device->interfaces[i]` should be. -/
def InterfacePart.parsed (i : InterfacePart) : BlUsbInterface where
  descriptor := i.descriptor.bytes
  endpoints := some (i.endpoints.map fun e => e.descriptor.bytes.take sizeofEndpointDescriptor)

variable {env : Env} {data : Nat → Byte} {a total : Nat}

/-! ## Bytes in memory -/

theorem bytesAt_eq {bs : List Byte} {n : Nat} (h : HasBytes data a bs) (hn : n ≤ bs.length) :
    bytesAt data a n = bs.take n := by
  induction n generalizing a bs with
  | zero => rfl
  | succ n ih =>
    cases bs with
    | nil => simp at hn
    | cons b bs =>
      have hrest := ih h.2 (by simpa using hn)
      unfold bytesAt at hrest ⊢
      rw [List.range_succ_eq_map, List.map_cons, List.map_map, List.take_succ_cons, ← hrest]
      exact congr (congrArg List.cons h.1)
        (List.map_congr_left fun i _ => congrArg data (by simp only [Nat.succ_eq_add_one]; omega))

theorem hasBytes_getElem? {bs : List Byte} {b : Byte} {i : Nat} (h : HasBytes data a bs)
    (hi : bs[i]? = some b) : data (a + i) = b := by
  induction bs generalizing a i with
  | nil => simp at hi
  | cons c bs ih =>
    cases i with
    | zero =>
      rw [List.getElem?_cons_zero] at hi
      exact h.1.trans (Option.some.inj hi)
    | succ i =>
      rw [List.getElem?_cons_succ] at hi
      rw [← ih h.2 hi]
      congr 1
      omega

/-! ## Endpoints -/

theorem collect_endpoints {es : List EndpointPart}
    (h : HasBytes data a (es.flatMap EndpointPart.bytes))
    (hin : a + (es.flatMap EndpointPart.bytes).length ≤ total) :
    ∃ ps, CollectEndpoints data total a ps (a + (es.flatMap EndpointPart.bytes).length) ∧
      (ps.map fun p => bytesAt data p sizeofEndpointDescriptor) =
        es.map fun e => e.descriptor.bytes.take sizeofEndpointDescriptor := by
  induction es generalizing a with
  | nil => exact ⟨[], Collect.done a, rfl⟩
  | cons e es ih =>
    rw [List.flatMap_cons, hasBytes_append, EndpointPart.bytes, hasBytes_append] at h
    obtain ⟨⟨hbefore, hdescriptor⟩, hes⟩ := h
    rw [List.flatMap_cons, EndpointPart.bytes, List.length_append, List.length_append] at hin
    rw [List.flatMap_cons, EndpointPart.bytes, List.length_append, List.length_append]
    rw [List.length_append] at hes
    obtain ⟨ps, hps, hparsed⟩ := ih hes (by omega)
    have hlength := e.descriptor_length
    refine ⟨(a + (e.before.flatMap Record.bytes).length) :: ps, ?_, ?_⟩
    · refine Collect.skip_records hbefore (fun r hr => (e.before_foreign r hr).2) (by omega) ?_
      refine Collect.take_record hdescriptor e.descriptor_kind (by omega) ?_
      rw [← Nat.add_assoc] at hps
      convert hps using 1
      omega
    · rw [List.map_cons, List.map_cons, hparsed, bytesAt_eq hdescriptor hlength]

/-! ## Interfaces -/

/-- The interfaces of a well-formed configuration are read one by one, with the endpoints that
stand behind each. -/
theorem readInterfaces_parsed (size index : Nat) (hserved : ∀ n sz, env.heapAlloc n sz ≠ none)
    {is : List InterfacePart} (h : HasBytes data a (is.flatMap InterfacePart.bytes))
    (hin : a + (is.flatMap InterfacePart.bytes).length ≤ total) :
    ∀ᶠ fuel in atTop, ∃ trace,
      readInterfaces env data total size fuel is.length index a =
        some (trace, is.map InterfacePart.parsed, true) := by
  induction is generalizing a index with
  | nil => exact .of_forall fun fuel => ⟨[], rfl⟩
  | cons i is ih =>
    rw [List.flatMap_cons, hasBytes_append, InterfacePart.bytes, hasBytes_append,
      hasBytes_append] at h
    obtain ⟨⟨⟨hbefore, hdescriptor⟩, hendpoints⟩, his⟩ := h
    simp only [List.length_append] at hendpoints his
    simp only [List.flatMap_cons, InterfacePart.bytes, List.length_append] at hin
    set q := a + (i.before.flatMap Record.bytes).length with hq
    have hlength := i.descriptor_length
    have hsize : sizeofInterfaceDescriptor = 9 := rfl
    -- The descriptor itself.
    have hfind : CollectInterface data total a q (q + i.descriptor.bytes.length) := by
      refine Collect.skip_records hbefore (fun r hr => (i.before_foreign r hr).1) (by omega) ?_
      exact Collect.take_record hdescriptor i.descriptor_kind (by omega) (Collect.done _)
    have hnum : numEndpoints data q = i.endpoints.length := by
      obtain ⟨b, hb, hcount⟩ := Option.map_eq_some_iff.mp i.num_endpoints
      rw [← hcount, numEndpoints, hasBytes_getElem? hdescriptor hb]
    have hskip := recordLength_of_hasBytes hdescriptor
    -- Its endpoints.
    rw [← Nat.add_assoc, ← hq] at hendpoints
    have hinside : q + i.descriptor.bytes.length +
        (i.endpoints.flatMap EndpointPart.bytes).length ≤ total := by
      omega
    obtain ⟨ps, hps, hparsed⟩ := collect_endpoints hendpoints hinside
    obtain ⟨block, hblock⟩ := Option.ne_none_iff_exists'.mp
      (hserved (index + 2) (numEndpoints data q * sizeofEndpointDescriptor))
    have hcount : 0 + ps.length = numEndpoints data q := by
      have hlen := congrArg List.length hparsed
      rw [List.length_map, List.length_map] at hlen
      rw [hnum, hlen, Nat.zero_add]
    have hread := readEndpoints_of_collect block.1 q hps hcount (by omega)
      (by rw [Nat.mul_comm]; exact block.2)
    -- The interfaces behind them.
    have hrest := ih (index + 1) his (by omega)
    filter_upwards [findInterface_of_collect hfind, hread, hrest] with fuel hfound hread hrest
    obtain ⟨trace, hrun, -⟩ := hfound
    obtain ⟨trace', hrun', -⟩ := hread
    obtain ⟨trace'', hrun''⟩ := hrest
    have hend : q + i.descriptor.bytes.length + (i.endpoints.flatMap EndpointPart.bytes).length =
        a + ((i.before.flatMap Record.bytes).length + i.descriptor.bytes.length +
          (i.endpoints.flatMap EndpointPart.bytes).length) := by
      omega
    rw [hend] at hrun'
    simp only [List.length_cons, readInterfaces, hrun, Option.bind_some, hblock, hskip, hrun',
      hrun'', Option.map_some]
    refine ⟨_, congrArg some (Prod.ext rfl (Prod.ext ?_ rfl))⟩
    simp only [List.map_cons, InterfacePart.parsed, hparsed,
      bytesAt_eq hdescriptor (show sizeofInterfaceDescriptor ≤ _ by omega)]
    rw [List.take_of_length_le (by omega)]

/-! ## The whole function -/

/-- The device has one configuration, and every request for it delivers its first bytes. -/
structure Delivers (env : Env) (c : Configuration) : Prop where
  one : configurationsCount (deviceDescriptor env) = 1
  configuration : ∀ n length, length ≤ c.bytes.length →
    HasBytes (blUsbGetDescriptor env n 0 blUsbDescriptorTypeConfig 0 0 length) 0
      (c.bytes.take length)

theorem Configuration.length_bytes (c : Configuration) :
    sizeofConfigurationDescriptor ≤ c.bytes.length := by
  have hlength := c.descriptor_length
  simp only [Configuration.bytes, List.length_append]
  omega

theorem Delivers.configuration_eq {c : Configuration} (h : Delivers env c) :
    Usb.configuration env = c.descriptor.bytes.take sizeofConfigurationDescriptor := by
  have hlength := c.descriptor_length
  have hbytes := h.configuration 2 sizeofConfigurationDescriptor c.length_bytes
  unfold Usb.configuration
  rw [bytesAt_eq hbytes (by rw [List.length_take]; have := c.length_bytes; omega), List.take_take,
    Nat.min_self, Configuration.bytes, List.append_assoc, List.take_append_of_le_length hlength]

theorem config_take (bs : List Byte) :
    configLength (bs.take 9) = configLength bs ∧ totalLength (bs.take 9) = totalLength bs ∧
      interfacesCount (bs.take 9) = interfacesCount bs := by
  simp [configLength, totalLength, interfacesCount, List.getD_eq_getElem?_getD]

theorem configLength_bytes (r : Record) : configLength r.bytes = r.bytes.length := by
  unfold configLength Record.bytes
  rw [List.getD_cons_zero, BitVec.toNat_ofNat, Nat.mod_eq_of_lt r.fits]
  rfl

/-- **Every interface and endpoint of a well-formed configuration is read into its place.** -/
theorem blUsbIdentifyDevice_parsed (env : Env) (c : Configuration) (device : BlUsbDevice)
    (hc : c.WellFormed) (hdelivers : Delivers env c)
    (hserved : ∀ n sz, env.heapAlloc n sz ≠ none) :
    ∃ enough, ∀ fuel ≥ enough, ∃ r, blUsbIdentifyDevice env fuel device = some r ∧
      r.device.interfaces = some (c.interfaces.map InterfacePart.parsed) := by
  obtain ⟨hlen, htotal, hcount⟩ := config_take c.descriptor.bytes
  rw [hc.total_length] at htotal
  rw [hc.interfaces_count] at hcount
  rw [configLength_bytes] at hlen
  have hconfig := hdelivers.configuration_eq
  rw [sizeofConfigurationDescriptor] at hconfig
  rw [← hconfig] at hlen htotal hcount
  obtain ⟨b, hdata⟩ := Option.ne_none_iff_exists'.mp
    (hserved 0 (totalLength (Usb.configuration env)))
  obtain ⟨block, hblock⟩ := Option.ne_none_iff_exists'.mp
    (hserved 1 (interfacesCount (Usb.configuration env) * sizeofInterfaceDescriptor))
  have hbytes : HasBytes (configurationData env) 0 c.bytes := by
    have hall := hdelivers.configuration 3 c.bytes.length le_rfl
    rwa [List.take_length, ← htotal] at hall
  rw [Configuration.bytes, hasBytes_append, hasBytes_append, Nat.zero_add] at hbytes
  obtain ⟨⟨-, hinterfaces⟩, -⟩ := hbytes
  have hin : c.descriptor.bytes.length + (c.interfaces.flatMap InterfacePart.bytes).length ≤
      totalLength (Usb.configuration env) := by
    rw [htotal, Configuration.bytes, List.length_append, List.length_append]
    omega
  obtain ⟨enough, hrun⟩ :=
    eventually_atTop.mp (readInterfaces_parsed block.1 0 hserved hinterfaces hin)
  refine ⟨enough, fun fuel hfuel => ?_⟩
  obtain ⟨trace, hloop⟩ := hrun fuel hfuel
  have hwhole := blUsbIdentifyDevice_eq fuel device hdelivers.one hdata hblock
  rw [← hcount, ← hlen] at hloop
  rw [hloop, Option.map_some] at hwhole
  exact ⟨_, hwhole, rfl⟩

/-- A keyboard whose interface descriptor is followed by a HID descriptor. -/
def keyboardPart : InterfacePart where
  before := []
  descriptor := ⟨0x04, [0, 0, 1, 3, 1, 1, 0], by decide⟩
  endpoints :=
    [{  before := [⟨0x21, [0x11, 1, 0, 1, 0x22, 0x3f, 0], by decide⟩]
        descriptor := ⟨0x05, [0x81, 3, 8, 0, 10], by decide⟩
        before_foreign := by decide
        descriptor_kind := rfl
        descriptor_length := by decide }]
  before_foreign := by decide
  descriptor_kind := rfl
  descriptor_length := rfl
  no_alternate := rfl
  num_endpoints := rfl

def hidConfiguration : Configuration where
  descriptor := ⟨0x02, [34, 0, 1, 1, 0, 0xa0, 50], by decide⟩
  interfaces := [keyboardPart]
  tail := []
  tail_foreign := by decide
  descriptor_kind := rfl
  descriptor_length := by decide

def hidKeyboard : Env where
  controlTransfer _ setup i :=
    if setup.value = blUsbDescriptorTypeDevice <<< 8 then keyboardDevice.getD i 0
    else hidConfiguration.bytes.getD i 0
  heapAlloc _ sz := some ⟨2 * sz, by omega⟩

theorem hidKeyboard_delivers : Delivers hidKeyboard hidConfiguration where
  one := by decide
  configuration n length _ := by
    have hall : HasBytes (fun i => hidConfiguration.bytes.getD i 0) 0 hidConfiguration.bytes := by
      simp [HasBytes, hidConfiguration, keyboardPart, Configuration.bytes, InterfacePart.bytes,
        EndpointPart.bytes, Record.bytes]
    rw [← List.take_append_drop length hidConfiguration.bytes, hasBytes_append] at hall
    rw [List.take_append_drop] at hall
    exact hall.1

theorem hidKeyboard_parsed :
    ∃ enough, ∀ fuel ≥ enough, ∃ r,
      blUsbIdentifyDevice hidKeyboard fuel ⟨[], [], none⟩ = some r ∧
      r.device.interfaces =
        some [⟨[9, 4, 0, 0, 1, 3, 1, 1, 0], some [[7, 5, 0x81, 3, 8, 0, 10]]⟩] :=
  blUsbIdentifyDevice_parsed hidKeyboard hidConfiguration ⟨[], [], none⟩ ⟨by decide, by decide⟩
    hidKeyboard_delivers (by simp [hidKeyboard])

end BootLoader.Usb
