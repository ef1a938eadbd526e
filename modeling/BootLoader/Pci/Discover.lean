import BootLoader.Pci.Code

/-!
# Which functions are found

The enumeration asks for vendor ids and header types only, so a hook that leaves those alone finds
the functions that were there at the start.
-/

open ByteMemory Runs

namespace BootLoader.Pci

open Video

variable {σ : Type*} {m m' : Machine σ} {hook : Hook σ} {i j : BlPciIndex} {bus dev func : Nat}

/-! ## What should be found -/

def Machine.register (m : Machine σ) (i : BlPciIndex) (reg : BitVec 8) : Byte :=
  m.config (BitVec.ofNat 8 i.bus) (BitVec.ofNat 5 i.dev) (BitVec.ofNat 3 i.func) reg

def Machine.vendorId (m : Machine σ) (i : BlPciIndex) : BitVec 16 :=
  m.register i 1 ++ m.register i 0

def Present (m : Machine σ) (i : BlPciIndex) : Prop := m.vendorId i ≠ 0xffff

/-- Function 0 is there, and does not say that there are more. -/
def SingleFunction (m : Machine σ) (bus dev : Nat) : Prop :=
  Present m ⟨bus, dev, 0⟩ ∧ m.register ⟨bus, dev, 0⟩ blPciConfigRegHeaderType &&& 0x80 = 0

instance (m : Machine σ) (i : BlPciIndex) : Decidable (Present m i) :=
  inferInstanceAs (Decidable (_ ≠ _))

/-- By bus, then by device, then by function. -/
def Precedes (i j : BlPciIndex) : Prop :=
  i.bus < j.bus ∨ i.bus = j.bus ∧ (i.dev < j.dev ∨ i.dev = j.dev ∧ i.func < j.func)

/-- The two machines agree on all vendor ids and header types. -/
def SameIdentity (m m' : Machine σ) : Prop :=
  ∀ bus dev func, ∀ reg ∈ [0, 1, blPciConfigRegHeaderType],
    m'.config bus dev func reg = m.config bus dev func reg

/-! ## Reading a register -/

theorem makeConfigAddress_fields (bus reg : BitVec 8) (dev : BitVec 5) (func : BitVec 3) :
    (blPciMakeConfigAddress bus (dev.setWidth 8) (func.setWidth 8) reg).getLsbD 31 = true ∧
      (blPciMakeConfigAddress bus (dev.setWidth 8) (func.setWidth 8) reg).extractLsb' 16 8 = bus ∧
      (blPciMakeConfigAddress bus (dev.setWidth 8) (func.setWidth 8) reg).extractLsb' 11 5 = dev ∧
      (blPciMakeConfigAddress bus (dev.setWidth 8) (func.setWidth 8) reg).extractLsb' 8 3 = func ∧
      (blPciMakeConfigAddress bus (dev.setWidth 8) (func.setWidth 8) reg).extractLsb' 2 6 =
        reg.extractLsb' 2 6 := by
  have henable : ∀ k < 31, (0x80000000 : BitVec 32).getLsbD k = false := by decide
  unfold blPciMakeConfigAddress
  refine ⟨by simp, ?_, ?_, ?_, ?_⟩
  all_goals
    apply BitVec.eq_of_getLsbD_eq
    intro k hk
    simp [hk]
    grind

theorem inConfigData_eq (m : Machine σ) (reg : BitVec 8) (port : BitVec 2) (hdev : i.dev < 32)
    (hfunc : i.func < 8) :
    (m.outConfigAddress (blPciMakeConfigAddress (BitVec.ofNat 8 i.bus) (BitVec.ofNat 8 i.dev)
      (BitVec.ofNat 8 i.func) reg)).inConfigData port =
      m.register i (reg.extractLsb' 2 6 ++ port) := by
  have hdevField : BitVec.ofNat 8 i.dev = (BitVec.ofNat 5 i.dev).setWidth 8 := by
    apply BitVec.eq_of_toNat_eq
    simp only [BitVec.toNat_setWidth, BitVec.toNat_ofNat]
    omega
  have hfuncField : BitVec.ofNat 8 i.func = (BitVec.ofNat 3 i.func).setWidth 8 := by
    apply BitVec.eq_of_toNat_eq
    simp only [BitVec.toNat_setWidth, BitVec.toNat_ofNat]
    omega
  obtain ⟨henable, hbus, hd, hf, hr⟩ := makeConfigAddress_fields (BitVec.ofNat 8 i.bus) reg
    (BitVec.ofNat 5 i.dev) (BitVec.ofNat 3 i.func)
  rw [hdevField, hfuncField]
  unfold Machine.inConfigData Machine.outConfigAddress Machine.register
  dsimp only
  rw [henable, if_pos rfl, hbus, hd, hf, hr]

theorem readWord_vendorId (m : Machine σ) (hdev : i.dev < 32) (hfunc : i.func < 8) :
    (readWord m i blPciConfigRegVendorId).1 = m.vendorId i := by
  unfold readWord blPciReadConfigWord Machine.vendorId
  dsimp only
  rw [inConfigData_eq m _ _ hdev hfunc, inConfigData_eq m _ _ hdev hfunc]
  rfl

theorem readByte_headerType (m : Machine σ) (hdev : i.dev < 32) (hfunc : i.func < 8) :
    (readByte m i blPciConfigRegHeaderType).1 = m.register i blPciConfigRegHeaderType := by
  unfold readByte blPciReadConfigByte
  dsimp only
  rw [inConfigData_eq m _ _ hdev hfunc]
  rfl

/-! ## Machines that agree -/

theorem SameIdentity.register_eq (h : SameIdentity m m') {reg : BitVec 8}
    (hreg : reg ∈ [0, 1, blPciConfigRegHeaderType]) (i : BlPciIndex) :
    m'.register i reg = m.register i reg :=
  h _ _ _ reg hreg

theorem SameIdentity.vendorId_eq (h : SameIdentity m m') (i : BlPciIndex) :
    m'.vendorId i = m.vendorId i := by
  unfold Machine.vendorId
  rw [h.register_eq (by simp), h.register_eq (by simp)]

theorem SameIdentity.headerType_eq (h : SameIdentity m m') (i : BlPciIndex) :
    m'.register i blPciConfigRegHeaderType = m.register i blPciConfigRegHeaderType :=
  h.register_eq (by simp) i

theorem SameIdentity.trans {m'' : Machine σ} (h : SameIdentity m m') (h' : SameIdentity m' m'') :
    SameIdentity m m'' :=
  fun bus dev func reg hreg => (h' bus dev func reg hreg).trans (h bus dev func reg hreg)

/-- The hook leaves every vendor id and header type alone. -/
def KeepsIdentity (hook : Hook σ) : Prop := ∀ i m, SameIdentity m (hook i m)

/-! ## The rounds, with what was there at the start -/

def functionRound (m : Machine σ) (bus dev func : Nat) : List BlPciIndex × Bool :=
  if Present m ⟨bus, dev, func⟩ then
    ([⟨bus, dev, func⟩],
      func ≠ 0 ∨ m.register ⟨bus, dev, func⟩ blPciConfigRegHeaderType &&& 0x80 ≠ 0)
  else ([], true)

def deviceRound (m : Machine σ) (bus dev : Nat) : List BlPciIndex × Bool :=
  ((logRounds (functionRound m bus dev) blPciNfunctions 0).1, true)

def busRound (m : Machine σ) (bus : Nat) : List BlPciIndex × Bool :=
  ((logRounds (deviceRound m bus) blPciNdevices 0).1, true)

theorem discoverFunction_spec (hkeeps : KeepsIdentity hook) (h : SameIdentity m m')
    (hdev : dev < 32) (hfunc : func < 8) :
    (discoverFunction (some hook) false bus dev func m').1 = (functionRound m bus dev func).1 ∧
      (discoverFunction (some hook) false bus dev func m').2.2 =
        (functionRound m bus dev func).2 ∧
      SameIdentity m (discoverFunction (some hook) false bus dev func m').2.1 := by
  have hread : ∀ address, SameIdentity m (m'.outConfigAddress address) := fun _ => h
  have hvendor := readWord_vendorId (i := ⟨bus, dev, func⟩) m' hdev hfunc
  rw [h.vendorId_eq] at hvendor
  unfold discoverFunction functionRound
  simp only [hvendor]
  by_cases hpresent : Present m ⟨bus, dev, func⟩
  · have hafter : SameIdentity m (hook ⟨bus, dev, func⟩
        (readWord m' ⟨bus, dev, func⟩ blPciConfigRegVendorId).2) :=
      h.trans (hkeeps _ _)
    have hheader := readByte_headerType (i := ⟨bus, dev, func⟩)
      (hook ⟨bus, dev, func⟩ (readWord m' ⟨bus, dev, func⟩ blPciConfigRegVendorId).2) hdev hfunc
    rw [hafter.headerType_eq] at hheader
    rw [if_pos hpresent, if_neg (show ¬m.vendorId ⟨bus, dev, func⟩ = 0xffff from hpresent)]
    simp only [Bool.false_eq_true, if_false, hheader]
    split_ifs with hzero
    · exact ⟨rfl, by simp [hzero], hafter⟩
    · exact ⟨rfl, by simp [hzero], hafter⟩
  · rw [if_neg hpresent, if_pos (not_not.mp hpresent)]
    exact ⟨rfl, rfl, h⟩

theorem discoverDevice_spec (hkeeps : KeepsIdentity hook) (h : SameIdentity m m')
    (hdev : dev < 32) :
    (discoverDevice (some hook) false bus dev m').1 = (deviceRound m bus dev).1 ∧
      (discoverDevice (some hook) false bus dev m').2.2 = (deviceRound m bus dev).2 ∧
      SameIdentity m (discoverDevice (some hook) false bus dev m').2.1 := by
  have htracks : (stateRounds (discoverFunction (some hook) false bus dev) blPciNfunctions 0 m').1 =
        (logRounds (functionRound m bus dev) blPciNfunctions 0).1 ∧
      SameIdentity m
        (stateRounds (discoverFunction (some hook) false bus dev) blPciNfunctions 0 m').2.1 :=
    stateRounds_tracks (fun _ _ hk hs => discoverFunction_spec hkeeps hs hdev
      (by unfold blPciNfunctions at hk; omega)) h
  unfold discoverDevice deviceRound
  exact ⟨htracks.1, rfl, htracks.2⟩

theorem discoverBus_spec (hkeeps : KeepsIdentity hook) (h : SameIdentity m m') :
    (discoverBus (some hook) false bus m').1 = (busRound m bus).1 ∧
      (discoverBus (some hook) false bus m').2.2 = (busRound m bus).2 ∧
      SameIdentity m (discoverBus (some hook) false bus m').2.1 := by
  have htracks : (stateRounds (discoverDevice (some hook) false bus) blPciNdevices 0 m').1 =
        (logRounds (deviceRound m bus) blPciNdevices 0).1 ∧
      SameIdentity m (stateRounds (discoverDevice (some hook) false bus) blPciNdevices 0 m').2.1 :=
    stateRounds_tracks (fun _ _ hk hs => discoverDevice_spec hkeeps hs
      (by unfold blPciNdevices at hk; omega)) h
  unfold discoverBus busRound
  exact ⟨htracks.1, rfl, htracks.2⟩

theorem blPciIterateDevices_of_rounds {calls : List BlPciIndex} {more : Bool}
    (h : stateRounds (discoverBus (some hook) false) blPciNbuses 0 m = (calls, m', more)) :
    blPciIterateDevices (some hook) m = (calls, m') := by
  -- Unfolded before it is applied: the kernel would run the rounds to compare the two.
  have hbody : @blPciDiscoverDevices σ = @blPciDiscoverDevices σ := rfl
  conv_rhs at hbody => delta blPciDiscoverDevices
  rw [blPciIterateDevices, hbody]
  beta_reduce
  rw [h]

theorem blPciIterateDevices_eq (hkeeps : KeepsIdentity hook) (m : Machine σ) :
    (blPciIterateDevices (some hook) m).1 = (logRounds (busRound m) blPciNbuses 0).1 := by
  have htracks : (stateRounds (discoverBus (some hook) false) blPciNbuses 0 m).1 =
        (logRounds (busRound m) blPciNbuses 0).1 ∧
      SameIdentity m (stateRounds (discoverBus (some hook) false) blPciNbuses 0 m).2.1 :=
    stateRounds_tracks (fun _ _ _ hs => discoverBus_spec hkeeps hs) fun _ _ _ _ _ => rfl
  obtain ⟨⟨calls, after, more⟩, hrounds⟩ :
      ∃ r, stateRounds (discoverBus (some hook) false) blPciNbuses 0 m = r := ⟨_, rfl⟩
  rw [hrounds] at htracks
  rw [blPciIterateDevices_of_rounds hrounds]
  exact htracks.1

/-! ## Which calls there are -/

theorem functionRound_more_iff :
    (functionRound m bus dev func).2 = true ↔ func ≠ 0 ∨ ¬SingleFunction m bus dev := by
  unfold functionRound SingleFunction
  rcases Nat.eq_zero_or_pos func with rfl | hpos
  · split_ifs with hpresent <;> simp [hpresent]
  · split_ifs <;> simp [Nat.ne_of_gt hpos]

theorem mem_functionRound :
    i ∈ (functionRound m bus dev func).1 ↔ i = ⟨bus, dev, func⟩ ∧ Present m i := by
  unfold functionRound
  split_ifs with hpresent
  · rw [List.mem_singleton]
    constructor
    · rintro rfl
      exact ⟨rfl, hpresent⟩
    · exact And.left
  · simp only [List.not_mem_nil, false_iff, not_and]
    rintro rfl
    exact hpresent

/-- The function is there, and it is not a further one of a device that says it has only one. -/
def Found (m : Machine σ) (i : BlPciIndex) : Prop :=
  Present m i ∧ ¬(i.func ≠ 0 ∧ SingleFunction m i.bus i.dev)

theorem mem_deviceRound :
    i ∈ (deviceRound m bus dev).1 ↔ i.bus = bus ∧ i.dev = dev ∧ i.func < 8 ∧ Found m i := by
  unfold deviceRound Found
  rw [mem_logRounds]
  simp only [functionRound_more_iff, mem_functionRound]
  constructor
  · rintro ⟨func, hfunc, hbefore, rfl, hpresent⟩
    refine ⟨rfl, rfl, hfunc, hpresent, fun ⟨hne, hsingle⟩ => ?_⟩
    exact (hbefore 0 (Nat.pos_of_ne_zero hne)).elim (fun h => h rfl) fun h => h hsingle
  · rintro ⟨rfl, rfl, hfunc, hpresent, hnot⟩
    refine ⟨i.func, hfunc, fun k hk => ?_, rfl, hpresent⟩
    exact .inr fun hsingle => hnot ⟨by omega, hsingle⟩

theorem mem_busRound :
    i ∈ (busRound m bus).1 ↔ i.bus = bus ∧ i.dev < 32 ∧ i.func < 8 ∧ Found m i := by
  unfold busRound
  rw [mem_logRounds]
  constructor
  · rintro ⟨dev, hdev, -, hmem⟩
    obtain ⟨hbus, rfl, hrest⟩ := mem_deviceRound.mp hmem
    exact ⟨hbus, hdev, hrest⟩
  · rintro ⟨hbus, hdev, hrest⟩
    exact ⟨i.dev, hdev, fun _ _ => rfl, mem_deviceRound.mpr ⟨hbus, rfl, hrest⟩⟩

/-! ## In which order -/

theorem functionRound_pairwise (m : Machine σ) (bus dev func : Nat) :
    (functionRound m bus dev func).1.Pairwise Precedes := by
  unfold functionRound
  split_ifs
  · exact List.pairwise_singleton _ _
  · exact List.Pairwise.nil

theorem deviceRound_pairwise (m : Machine σ) (bus dev : Nat) :
    (deviceRound m bus dev).1.Pairwise Precedes := by
  apply logRounds_pairwise (functionRound_pairwise m bus dev)
  intro j k hjk a ha b hb
  obtain ⟨rfl, -⟩ := mem_functionRound.mp ha
  obtain ⟨rfl, -⟩ := mem_functionRound.mp hb
  exact .inr ⟨rfl, .inr ⟨rfl, hjk⟩⟩

theorem busRound_pairwise (m : Machine σ) (bus : Nat) : (busRound m bus).1.Pairwise Precedes := by
  apply logRounds_pairwise (deviceRound_pairwise m bus)
  intro j k hjk a ha b hb
  obtain ⟨habus, hadev, -⟩ := mem_deviceRound.mp ha
  obtain ⟨hbbus, hbdev, -⟩ := mem_deviceRound.mp hb
  exact .inr ⟨habus.trans hbbus.symm, .inl (by omega)⟩

/-- **Every function that is there is found once, and in order**, the further functions of a device
with only one left out. -/
theorem blPciIterateDevices_calls (hook : Hook σ) (m : Machine σ) (hkeeps : KeepsIdentity hook) :
    (blPciIterateDevices (some hook) m).1.Pairwise Precedes ∧
      ∀ i, i ∈ (blPciIterateDevices (some hook) m).1 ↔
        i.bus < 256 ∧ i.dev < 32 ∧ i.func < 8 ∧ m.vendorId i ≠ 0xffff ∧
          ¬(i.func ≠ 0 ∧ SingleFunction m i.bus i.dev) := by
  rw [blPciIterateDevices_eq hkeeps]
  constructor
  · apply logRounds_pairwise (busRound_pairwise m)
    intro j k hjk a ha b hb
    have habus := (mem_busRound.mp ha).1
    have hbbus := (mem_busRound.mp hb).1
    exact .inl (by omega)
  · intro i
    rw [mem_logRounds]
    constructor
    · rintro ⟨bus, hbus, -, hmem⟩
      obtain ⟨rfl, hrest⟩ := mem_busRound.mp hmem
      exact ⟨hbus, hrest⟩
    · rintro ⟨hbus, hrest⟩
      exact ⟨i.bus, hbus, fun _ _ => rfl, mem_busRound.mpr ⟨rfl, hrest⟩⟩

/-- Device 0 shows its only function eight times, device 2 has nothing but a function 3. -/
def sampleMachine : Machine Unit where
  configAddress := 0
  config bus dev func reg :=
    if bus = 0 ∧ (dev = 0 ∨ dev = 2 ∧ func = 3) then
      if reg = 0 then 0x86 else if reg = 1 then 0x80 else 0
    else 0xff
  printed := []
  rest := ()

/-- A hook that writes the command registers. -/
def enableAll : Hook Unit := fun _ m =>
  { m with config := fun bus dev func reg => if reg = 4 then 7 else m.config bus dev func reg }

theorem enableAll_keepsIdentity : KeepsIdentity enableAll := by
  intro i m bus dev func reg hreg
  have hne : reg ≠ 4 := by
    rintro rfl
    exact absurd hreg (by decide)
  exact if_neg hne

theorem sampleMachine_calls :
    ⟨0, 2, 3⟩ ∈ (blPciIterateDevices (some enableAll) sampleMachine).1 ∧
      ⟨0, 0, 1⟩ ∉ (blPciIterateDevices (some enableAll) sampleMachine).1 := by
  have hcalls :=
    (blPciIterateDevices_calls enableAll sampleMachine enableAll_keepsIdentity).2
  constructor
  · refine (hcalls ⟨0, 2, 3⟩).mpr ⟨by decide, by decide, by decide, by decide, fun h => ?_⟩
    exact absurd h.2.1 (by decide)
  · intro hmem
    exact ((hcalls ⟨0, 0, 1⟩).mp hmem).2.2.2.2 ⟨by decide, by unfold Present; decide, by decide⟩

end BootLoader.Pci
