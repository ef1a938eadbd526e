import BootLoader.Lib.Fuel
import BootLoader.Usb.Code

/-!
# The walk over a configuration

When the loops of `bl_usb_identify_device` end, and what they look at.
-/

open ByteMemory Records Filter

namespace BootLoader.Usb

variable {env : Env} {data : Nat → Byte} {total size fuel j off q o interface : Nat}
  {trace : List Access} {ps : List Nat}

abbrev CollectInterface (data : Nat → Byte) (total off q o : Nat) : Prop :=
  Collect data blUsbDescriptorTypeInterface sizeofInterfaceDescriptor total off [q] o

abbrev CollectEndpoints (data : Nat → Byte) (total off : Nat) (ps : List Nat) (o : Nat) : Prop :=
  Collect data blUsbDescriptorTypeEndpoint sizeofEndpointDescriptor total off ps o

/-! ## Loops that end -/

theorem findInterface_of_collect (h : CollectInterface data total off q o) :
    ∀ᶠ fuel in atTop, ∃ trace, findInterface data total fuel off = some (trace, q) ∧
      ∀ a ∈ trace, a.InBounds := by
  unfold CollectInterface at h
  generalize hps : [q] = ps at h
  induction h with
  | done => simp at hps
  | take hkind hin _ _ =>
    obtain ⟨rfl, rfl⟩ := List.cons.inj hps
    refine Fuel.eventually_of_succ fun fuel => ?_
    simp only [sizeofInterfaceDescriptor] at hin
    simp only [findInterface, hkind, ne_eq, not_true_eq_false, if_false]
    exact ⟨_, rfl, by simp [Access.InBounds]; omega⟩
  | skip hkind hin hlen _ ih =>
    refine Fuel.eventually_round (ih hps) fun fuel hrest => ?_
    obtain ⟨trace, hfind, hbounds⟩ := hrest
    simp only [findInterface, ne_eq, hkind, not_false_eq_true, if_true, hfind, Option.map_some]
    refine ⟨_, rfl, ?_⟩
    rw [List.forall_mem_cons, List.forall_mem_cons]
    exact ⟨by simp only [Access.InBounds]; omega, by simp only [Access.InBounds]; omega, hbounds⟩

theorem readEndpoints_of_collect (size interface : Nat) (h : CollectEndpoints data total off ps o)
    (hcount : j + ps.length = numEndpoints data interface) (hin : interface + 5 ≤ total)
    (hsize : sizeofEndpointDescriptor * numEndpoints data interface ≤ size) :
    ∀ᶠ fuel in atTop, ∃ trace, readEndpoints data total size interface fuel j off =
        some (trace, ps.map fun p => bytesAt data p sizeofEndpointDescriptor, o) ∧
      ∀ a ∈ trace, a.InBounds := by
  unfold CollectEndpoints at h
  induction h generalizing j with
  | done off =>
    refine Fuel.eventually_of_succ fun fuel => ?_
    rw [List.length_nil, Nat.add_zero] at hcount
    simp only [readEndpoints, hcount, lt_irrefl, if_false, List.map_nil]
    exact ⟨_, rfl, by simp [Access.InBounds]; omega⟩
  | take hkind htake _ ih =>
    rw [List.length_cons] at hcount
    refine Fuel.eventually_round (ih (show j + 1 + _ = _ by omega)) fun fuel hrest => ?_
    obtain ⟨trace, hread, hbounds⟩ := hrest
    simp only [readEndpoints, show j < numEndpoints data interface by omega, if_true, hkind, hread,
      Option.map_some, List.map_cons]
    refine ⟨_, rfl, ?_⟩
    simp only [sizeofEndpointDescriptor] at htake hsize
    simp only [List.forall_mem_cons, Access.InBounds, sizeofEndpointDescriptor]
    exact ⟨by omega, by omega, by omega, by omega, by omega, hbounds⟩
  | skip hkind hskip hlen _ ih =>
    refine Fuel.eventually_round (ih hcount) fun fuel hrest => ?_
    obtain ⟨trace, hread, hbounds⟩ := hrest
    rw [List.length_cons] at hcount
    simp only [readEndpoints, show j < numEndpoints data interface by omega, if_true, hkind,
      if_false, hread, Option.map_some]
    refine ⟨_, rfl, ?_⟩
    simp only [List.forall_mem_cons, Access.InBounds]
    exact ⟨by omega, by omega, by omega, hbounds⟩

/-! ## Loops that ended -/

/-- A record of length 0 that is not looked for is looked at for ever. -/
theorem findInterface_stuck (hkind : recordKind data off ≠ blUsbDescriptorTypeInterface)
    (hlen : recordLength data off = 0) : findInterface data total fuel off = none := by
  induction fuel with
  | zero => rfl
  | succ fuel ih =>
    rw [findInterface, if_pos hkind, hlen, show off + 0 = off from rfl, ih]
    rfl

theorem readEndpoints_stuck (hj : j < numEndpoints data interface)
    (hkind : recordKind data off ≠ blUsbDescriptorTypeEndpoint) (hlen : recordLength data off = 0) :
    readEndpoints data total size interface fuel j off = none := by
  induction fuel with
  | zero => rfl
  | succ fuel ih =>
    rw [readEndpoints, if_pos hj, if_neg hkind, hlen, show off + 0 = off from rfl, ih]
    rfl

theorem collect_of_findInterface (h : findInterface data total fuel off = some (trace, q))
    (hbounds : ∀ a ∈ trace, a.InBounds) (hq : q + sizeofInterfaceDescriptor ≤ total) :
    CollectInterface data total off q (q + recordLength data q) := by
  induction fuel generalizing off trace with
  | zero => simp [findInterface] at h
  | succ fuel ih =>
    rw [findInterface] at h
    split_ifs at h with hkind
    · obtain ⟨⟨rest, interface⟩, hrest, heq⟩ := Option.map_eq_some_iff.mp h
      obtain ⟨rfl, rfl⟩ := Prod.mk.inj heq
      simp only [List.forall_mem_cons, Access.InBounds] at hbounds
      refine Collect.skip hkind (by omega) ?_ (ih hrest hbounds.2.2)
      intro hlen
      rw [hlen, show off + 0 = off from rfl, findInterface_stuck hkind hlen] at hrest
      simp at hrest
    · obtain ⟨rfl, rfl⟩ := Prod.mk.inj (Option.some.inj h)
      exact Collect.take (not_not.mp hkind) hq (Collect.done _)

theorem collect_of_readEndpoints {endpoints : List (List Byte)}
    (h : readEndpoints data total size interface fuel j off = some (trace, endpoints, o))
    (hj : j ≤ numEndpoints data interface) (hbounds : ∀ a ∈ trace, a.InBounds) :
    ∃ ps, CollectEndpoints data total off ps o ∧
      j + ps.length = numEndpoints data interface := by
  induction fuel generalizing j off trace endpoints with
  | zero => simp [readEndpoints] at h
  | succ fuel ih =>
    rw [readEndpoints] at h
    split_ifs at h with hlt hkind
    · obtain ⟨⟨rest, endpoints', o'⟩, hrest, heq⟩ := Option.map_eq_some_iff.mp h
      obtain ⟨htrace, hresult⟩ := Prod.mk.inj heq
      obtain ⟨-, rfl⟩ := Prod.mk.inj hresult
      subst htrace
      simp only [List.forall_mem_cons, Access.InBounds] at hbounds
      obtain ⟨ps, hps, hcount⟩ := ih hrest hlt hbounds.2.2.2.2.2
      exact ⟨off :: ps, Collect.take hkind hbounds.2.2.1 hps, by rw [List.length_cons]; omega⟩
    · obtain ⟨⟨rest, endpoints', o'⟩, hrest, heq⟩ := Option.map_eq_some_iff.mp h
      obtain ⟨htrace, hresult⟩ := Prod.mk.inj heq
      obtain ⟨-, rfl⟩ := Prod.mk.inj hresult
      subst htrace
      simp only [List.forall_mem_cons, Access.InBounds] at hbounds
      obtain ⟨ps, hps, hcount⟩ := ih hrest hj hbounds.2.2.2
      -- An endpoint is still wanted, so the walk behind this record takes one.
      rcases ps with _ | ⟨p, ps⟩
      · rw [List.length_nil] at hcount
        omega
      · refine ⟨p :: ps, Collect.skip hkind (by omega) ?_ hps, hcount⟩
        intro hlen
        rw [hlen, show off + 0 = off from rfl, readEndpoints_stuck hlt hkind hlen] at hrest
        simp at hrest
    · obtain ⟨-, hresult⟩ := Prod.mk.inj (Option.some.inj h)
      obtain ⟨-, rfl⟩ := Prod.mk.inj hresult
      exact ⟨[], Collect.done _, by rw [List.length_nil]; omega⟩

/-! ## The whole function -/

/-- With memory for the configuration and the interfaces, the loops decide. -/
theorem blUsbIdentifyDevice_eq (fuel : Nat) (device : BlUsbDevice)
    {b : { n // totalLength (configuration env) ≤ n }}
    {block : { n // interfacesCount (configuration env) * sizeofInterfaceDescriptor ≤ n }}
    (hone : configurationsCount (deviceDescriptor env) = 1)
    (hdata : env.heapAlloc 0 (totalLength (configuration env)) = some b)
    (hblock : env.heapAlloc 1 (interfacesCount (configuration env) * sizeofInterfaceDescriptor) =
      some block) :
    blUsbIdentifyDevice env fuel device =
      (readInterfaces env (configurationData env) (totalLength (configuration env)) block fuel
        (interfacesCount (configuration env)) 0 (configLength (configuration env))).map fun r =>
        ⟨⟨deviceDescriptor env, configuration env, some r.2.1⟩, r.1, r.2.2⟩ := by
  unfold blUsbIdentifyDevice
  simp only [hone, hdata, hblock, ne_eq, not_true_eq_false, if_false]

end BootLoader.Usb
