import BootLoader.Usb.Walk

/-!
# Which devices are identified safely

`bl_usb_identify_device` looks neither at lengths of zero nor at the end of the configuration, and
asks for nine bytes for each interface, of which it writes sixteen.
-/

open ByteMemory Records Filter

namespace BootLoader.Usb

variable {env : Env} {data : Nat → Byte} {total size fuel i off left : Nat}

/-- It returns, and every access is inside its block. -/
def Safe (env : Env) (device : BlUsbDevice) : Prop :=
  ∃ fuel r, blUsbIdentifyDevice env fuel device = some r ∧ ∀ a ∈ r.trace, a.InBounds

/-- `left` interfaces from the one of index `i` on: each is found inside the configuration, the
interfaces block has room for it, and its endpoints are found behind it, unless there is no memory
for them. -/
inductive InterfacesFit (env : Env) (data : Nat → Byte) (total size : Nat) :
    Nat → Nat → Nat → Prop
  | done (i off : Nat) : InterfacesFit env data total size 0 i off
  | refused {left i off q o : Nat} (hfind : CollectInterface data total off q o)
      (hroom : sizeofInterface * (i + 1) ≤ size)
      (hnull : env.heapAlloc (i + 2) (numEndpoints data q * sizeofEndpointDescriptor) = none) :
      InterfacesFit env data total size (left + 1) i off
  | read {left i off q o o' : Nat} {ps : List Nat} (hfind : CollectInterface data total off q o)
      (hroom : sizeofInterface * (i + 1) ≤ size)
      (hserved : env.heapAlloc (i + 2) (numEndpoints data q * sizeofEndpointDescriptor) ≠ none)
      (hendpoints : CollectEndpoints data total o ps o') (hcount : ps.length = numEndpoints data q)
      (hrest : InterfacesFit env data total size left (i + 1) o') :
      InterfacesFit env data total size (left + 1) i off

/-! ## The loop over the interfaces -/

theorem readInterfaces_of_fit (h : InterfacesFit env data total size left i off) :
    ∀ᶠ fuel in atTop, ∃ r, readInterfaces env data total size fuel left i off = some r ∧
      ∀ a ∈ r.1, a.InBounds := by
  induction h with
  | done i off => exact .of_forall fun fuel => ⟨([], [], true), rfl, by simp⟩
  | @refused left i off q o hfind hroom hnull =>
    filter_upwards [findInterface_of_collect hfind] with fuel hfound
    obtain ⟨trace, hrun, hbounds⟩ := hfound
    have hin := hfind.single.2.1
    simp only [readInterfaces, hrun, Option.bind_some, hnull]
    refine ⟨_, rfl, ?_⟩
    simp only [sizeofInterface, sizeofInterfaceDescriptor] at hroom hin
    simp only [List.forall_mem_append, List.forall_mem_cons, Access.InBounds, sizeofInterface,
      sizeofInterfaceDescriptor, offsetofEndpoints]
    exact ⟨hbounds, by omega, by omega, by omega, by omega, by simp⟩
  | @read left i off q o o' ps hfind hroom hserved hendpoints hcount _ ih =>
    obtain ⟨block, hblock⟩ := Option.ne_none_iff_exists'.mp hserved
    obtain ⟨-, hin, rfl⟩ := hfind.single
    simp only [sizeofInterface, sizeofInterfaceDescriptor] at hroom hin
    have hread := readEndpoints_of_collect block.1 q hendpoints
      (show 0 + ps.length = _ by omega) (by omega) (by have := block.2; rw [Nat.mul_comm]; omega)
    filter_upwards [findInterface_of_collect hfind, hread, ih] with fuel hfound hread hrest
    obtain ⟨trace, hrun, hbounds⟩ := hfound
    obtain ⟨trace', hrun', hbounds'⟩ := hread
    obtain ⟨⟨trace'', interfaces, finished⟩, hrun'', hbounds''⟩ := hrest
    simp only [readInterfaces, hrun, Option.bind_some, hblock, hrun', hrun'', Option.map_some]
    refine ⟨_, rfl, ?_⟩
    simp only [List.forall_mem_append, List.forall_mem_cons, Access.InBounds, sizeofInterface,
      sizeofInterfaceDescriptor, offsetofEndpoints]
    exact ⟨⟨⟨⟨hbounds, by omega, by omega, by omega, by omega, by simp⟩, by omega, by simp⟩,
      hbounds'⟩, hbounds''⟩

theorem fit_of_readInterfaces {r : List Access × List BlUsbInterface × Bool}
    (h : readInterfaces env data total size fuel left i off = some r)
    (hbounds : ∀ a ∈ r.1, a.InBounds) : InterfacesFit env data total size left i off := by
  induction left generalizing i off r with
  | zero => exact InterfacesFit.done i off
  | succ left ih =>
    rw [readInterfaces] at h
    obtain ⟨⟨trace, q⟩, hfind, h⟩ := Option.bind_eq_some_iff.mp h
    simp only at h
    cases hblock : env.heapAlloc (i + 2) (numEndpoints data q * sizeofEndpointDescriptor) with
    | none =>
      simp only [hblock] at h
      obtain rfl := Option.some.inj h
      simp only [List.forall_mem_append, List.forall_mem_cons, Access.InBounds, sizeofInterface,
        offsetofEndpoints] at hbounds
      have hcollect := collect_of_findInterface hfind hbounds.1 hbounds.2.1
      exact InterfacesFit.refused hcollect (by unfold sizeofInterface; omega) hblock
    | some block =>
      simp only [hblock] at h
      obtain ⟨⟨trace', endpoints, o⟩, hread, h⟩ := Option.bind_eq_some_iff.mp h
      obtain ⟨⟨trace'', interfaces, finished⟩, hrest, h⟩ := Option.map_eq_some_iff.mp h
      subst h
      simp only [List.forall_mem_append, List.forall_mem_cons, Access.InBounds, sizeofInterface,
        offsetofEndpoints] at hbounds
      obtain ⟨⟨⟨⟨hfound, hcopy, -, -, hpointer, -⟩, -⟩, hendpoints⟩, hlater⟩ := hbounds
      have hcollect := collect_of_findInterface hfind hfound hcopy
      obtain ⟨ps, hps, hcount⟩ := collect_of_readEndpoints hread (Nat.zero_le _) hendpoints
      exact InterfacesFit.read hcollect (by unfold sizeofInterface; omega) (by simp [hblock]) hps
        (by omega) (ih hrest hlater)

/-! ## The whole function -/

/-- What a device and the heap must answer: there is nothing to look at, or no memory to do so, or
the interfaces and endpoints are all there and have room. -/
def ConfigurationFits (env : Env) : Prop :=
  configurationsCount (deviceDescriptor env) ≠ 1 ∨
  env.heapAlloc 0 (totalLength (configuration env)) = none ∨
  match env.heapAlloc 1 (interfacesCount (configuration env) * sizeofInterfaceDescriptor) with
  | none => True
  | some block =>
    InterfacesFit env (configurationData env) (totalLength (configuration env)) block
      (interfacesCount (configuration env)) 0 (configLength (configuration env))

/-- Before the loops there is nothing to go wrong. -/
theorem blUsbIdentifyDevice_early (fuel : Nat) (device : BlUsbDevice)
    (h : configurationsCount (deviceDescriptor env) ≠ 1 ∨
      env.heapAlloc 0 (totalLength (configuration env)) = none ∨
      env.heapAlloc 1 (interfacesCount (configuration env) * sizeofInterfaceDescriptor) = none) :
    ∃ device', blUsbIdentifyDevice env fuel device = some ⟨device', [], false⟩ := by
  unfold blUsbIdentifyDevice
  by_cases hone : configurationsCount (deviceDescriptor env) = 1
  · have hnull := h.resolve_left (not_not.mpr hone)
    simp only [hone, ne_eq, not_true_eq_false, if_false]
    cases hdata : env.heapAlloc 0 (totalLength (configuration env)) with
    | none => exact ⟨_, rfl⟩
    | some b =>
      simp only [hnull.resolve_left (by simp [hdata])]
      exact ⟨_, rfl⟩
  · simp only [ne_eq, hone, not_false_eq_true, if_true]
    exact ⟨_, rfl⟩

/-- **A device is identified safely exactly if its configuration fits.** -/
theorem safe_iff_configurationFits (env : Env) (device : BlUsbDevice) :
    Safe env device ↔ ConfigurationFits env := by
  unfold Safe ConfigurationFits
  by_cases hone : configurationsCount (deviceDescriptor env) = 1
  · cases hdata : env.heapAlloc 0 (totalLength (configuration env)) with
    | none =>
      obtain ⟨device', hrun⟩ := blUsbIdentifyDevice_early 0 device (Or.inr (Or.inl hdata))
      exact iff_of_true ⟨0, _, hrun, by simp⟩ (Or.inr (Or.inl rfl))
    | some b =>
      cases hblock : env.heapAlloc 1
          (interfacesCount (configuration env) * sizeofInterfaceDescriptor) with
      | none =>
        obtain ⟨device', hrun⟩ := blUsbIdentifyDevice_early 0 device (Or.inr (Or.inr hblock))
        exact iff_of_true ⟨0, _, hrun, by simp⟩ (Or.inr (Or.inr trivial))
      | some block =>
        simp only [hone, ne_eq, not_true_eq_false, false_or, reduceCtorEq]
        constructor
        · rintro ⟨fuel, r, hrun, hbounds⟩
          rw [blUsbIdentifyDevice_eq fuel device hone hdata hblock] at hrun
          obtain ⟨r', hloop, rfl⟩ := Option.map_eq_some_iff.mp hrun
          exact fit_of_readInterfaces hloop hbounds
        · intro hfit
          obtain ⟨fuel, r, hloop, hbounds⟩ := (readInterfaces_of_fit hfit).exists
          have hrun := blUsbIdentifyDevice_eq fuel device hone hdata hblock
          rw [hloop, Option.map_some] at hrun
          exact ⟨fuel, _, hrun, hbounds⟩
  · obtain ⟨device', hrun⟩ := blUsbIdentifyDevice_early 0 device (Or.inl hone)
    exact iff_of_true ⟨0, _, hrun, by simp⟩ (Or.inl hone)

/-! ## Blocks of the size asked for -/

theorem InterfacesFit.room (h : InterfacesFit env data total size left i off)
    (hserved : ∀ n sz, env.heapAlloc n sz ≠ none) :
    left = 0 ∨ sizeofInterface * (i + left) ≤ size := by
  induction h with
  | done => exact Or.inl rfl
  | refused _ _ hnull => exact absurd hnull (hserved _ _)
  | @read left i _ _ _ _ _ _ hroom _ _ _ _ ih =>
    right
    rcases ih with rfl | hlater
    · simpa using hroom
    · rwa [show i + (left + 1) = i + 1 + left by omega]

/-- With blocks of just the size asked for, no device with an interface is identified safely. -/
theorem not_fits_of_exact_block (hserved : ∀ n sz, env.heapAlloc n sz ≠ none) {count : Nat}
    (hcount : count ≠ 0) :
    ¬ InterfacesFit env data total (count * sizeofInterfaceDescriptor) count 0 off := by
  intro h
  have hroom := h.room hserved
  simp only [sizeofInterface, sizeofInterfaceDescriptor] at hroom
  omega

/-- A keyboard: one interface with one endpoint, nothing else in its 25 bytes. -/
def keyboardConfiguration : List Byte :=
  [9, 2, 25, 0, 1, 1, 0, 0xa0, 50, 9, 4, 0, 0, 1, 3, 1, 1, 0, 7, 5, 0x81, 3, 8, 0, 10]

def keyboardDevice : List Byte := [18, 1, 0, 2, 0, 0, 0, 8, 0x6d, 4, 1, 0xc3, 0, 0x64, 1, 2, 0, 1]

def keyboard : Env where
  controlTransfer _ setup i :=
    if setup.value = blUsbDescriptorTypeDevice <<< 8 then keyboardDevice.getD i 0
    else keyboardConfiguration.getD i 0
  heapAlloc _ sz := some ⟨sz, le_rfl⟩

theorem keyboard_not_safe : ¬ Safe keyboard ⟨[], [], none⟩ := by
  rintro ⟨fuel, r, hrun, hbounds⟩
  rw [blUsbIdentifyDevice_eq fuel _ (by decide) rfl rfl] at hrun
  obtain ⟨r', hloop, rfl⟩ := Option.map_eq_some_iff.mp hrun
  exact not_fits_of_exact_block (by simp [keyboard]) (by decide)
    (fit_of_readInterfaces hloop hbounds)

end BootLoader.Usb
