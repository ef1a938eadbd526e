import BootLoader.Lib.BreadthFirst
import BootLoader.Usb.Hub
import Mathlib.Data.List.Nodup
import Mathlib.Order.Filter.AtTopBot.Basic

/-!
# The dump of a host controller

What `bl_usb_dump_host_controller_devices` visits and prints, and how it uses the list of hubs
(`core/bus/usb/usb-traversal.c`).
-/

open BreadthFirst Filter

namespace BootLoader.UsbDump

open UsbHub

inductive DumpEvent where
  | visited (h : HubPtr)
  | printed (d : Nat)
  deriving DecidableEq

/-- `indexed` are the places of `hubs` that were read or written, and `log` is what the dump has
done. -/
structure Traversal where
  head : Nat
  tail : Nat
  hubs : Nat → HubPtr
  indexed : List Nat
  log : List DumpEvent

def Traversal.note (t : Traversal) (e : DumpEvent) : Traversal := { t with log := t.log ++ [e] }

def blUsbTraversalInit : Traversal := ⟨0, 0, fun _ => .null, List.range 127, []⟩

def blUsbTraversalIsEmpty (t : Traversal) : Bool := t.head = t.tail

def blUsbTraversalPush (t : Traversal) (h : HubPtr) : Traversal :=
  if t.tail < 127 - 1 then
    { t with
      tail := t.tail + 1
      hubs := Function.update t.hubs t.tail h
      indexed := t.indexed ++ [t.tail] }
  else t

def blUsbTraversalPop (t : Traversal) : HubPtr × Traversal :=
  if t.head < t.tail then
    (t.hubs t.head, { t with head := t.head + 1, indexed := t.indexed ++ [t.head] })
  else (.null, t)

def dumpSlot (s : BlUsb) (hub : BlUsbHub) (t : Traversal) (i : Nat) : Option Traversal :=
  (hub.slot i).bind fun slot =>
    if slot = 0 then some t
    else
      (s.devices slot).bind fun device =>
        (blUsbDumpDeviceId s device).map fun _ =>
          let t := t.note (.printed slot)
          if device.type = blUsbHubDevice then blUsbTraversalPush t device.hub else t

def dumpHubs (s : BlUsb) : Nat → Traversal → Option Traversal
  | 0, t => if blUsbTraversalIsEmpty t then some t else none
  | fuel + 1, t =>
    if blUsbTraversalIsEmpty t then some t
    else
      let popped := blUsbTraversalPop t
      (s.hubs popped.1).bind fun hub =>
        ((List.range hub.ports).foldlM (dumpSlot s hub) (popped.2.note (.visited popped.1))).bind
          (dumpHubs s fuel)

/-- `served` says whether the list gets its block; the null pointer is not looked for. -/
def blUsbDumpHostControllerDevices (s : BlUsb) (fuel hc : Nat) (served : Bool) :
    Option Traversal :=
  if served then dumpHubs s fuel (blUsbTraversalPush blUsbTraversalInit (.root hc)) else none

/-! ## The tree -/

/-- The devices on the slots of a hub. -/
def slotDevices (s : BlUsb) (h : HubPtr) : List Nat :=
  match s.hubs h with
  | none => []
  | some hub => (List.range hub.ports).flatMap fun i => ((hub.slot i).filter (· ≠ 0)).toList

/-- `device->specific.hub.hub` of a hub. -/
def ownHub (s : BlUsb) (d : Nat) : Option HubPtr :=
  (s.devices d).bind fun device =>
    if device.type = blUsbHubDevice then some device.hub else none

def childHubs (s : BlUsb) (h : HubPtr) : List HubPtr := (slotDevices s h).filterMap (ownHub s)

/-- `hubs` are those of the tree, level by level. Each is referenced once, and each device. -/
structure HubTree (s : BlUsb) (hc : Nat) (hubs : List HubPtr) : Prop where
  levels : ∃ depth, level (childHubs s) depth [.root hc] = [] ∧
    order (childHubs s) depth [.root hc] = hubs
  slots : ∀ h ∈ hubs, ∃ hub, s.hubs h = some hub ∧ ∀ i < hub.ports,
    ∃ slot, hub.slot i = some slot ∧ (slot = 0 ∨ s.devices slot ≠ none)
  null : s.devices 0 = none
  hubs_once : hubs.Nodup
  devices_once : (hubs.flatMap (slotDevices s)).Nodup

/-- The port chain that is printed for the device ends. -/
def Prints (s : BlUsb) (d : Nat) : Prop := (s.devices d).bind (blUsbDumpDeviceId s) = some ()

def hubEvents (s : BlUsb) (h : HubPtr) : List DumpEvent :=
  .visited h :: (slotDevices s h).map .printed

/-- The dump ends, inside its list. Up to 126 hubs it visits level by level, and prints what is on
them: all once. -/
def DumpedRight (s : BlUsb) (hc : Nat) (served : Bool) (hubs : List HubPtr) : Prop :=
  ∃ t, (∀ᶠ fuel in atTop, blUsbDumpHostControllerDevices s fuel hc served = some t) ∧
    (∀ i ∈ t.indexed, i < 127) ∧
    (hubs.length ≤ 126 → t.log = hubs.flatMap (hubEvents s) ∧ t.log.Nodup ∧
      (∀ h, InTree s hc h → .visited h ∈ t.log) ∧
      ∀ h hub i d device, InTree s hc h → Holds s h hub i d device → .printed d ∈ t.log)

variable {s : BlUsb} {hub : BlUsbHub} {h : HubPtr} {hc : Nat} {t t' : Traversal} {w : List HubPtr}

/-! ## The list of hubs -/

structure Bounded (t : Traversal) : Prop where
  head_le : t.head ≤ t.tail
  tail_le : t.tail ≤ 126
  indexed_lt : ∀ i ∈ t.indexed, i < 127

/-- The hubs `w` are waiting. -/
structure Tracks (t : Traversal) (w : List HubPtr) : Prop where
  tail_eq : t.tail = t.head + w.length
  tail_le : t.tail ≤ 126
  hubs_eq : ∀ k h, w[k]? = some h → t.hubs (t.head + k) = h

theorem Bounded.indexed_append (ht : Bounded t) (hi : i < 127) : ∀ k ∈ t.indexed ++ [i], k < 127 :=
  List.forall_mem_append.mpr ⟨ht.indexed_lt, List.forall_mem_singleton.mpr hi⟩

theorem Bounded.push (ht : Bounded t) (h : HubPtr) : Bounded (blUsbTraversalPush t h) := by
  have hhead := ht.head_le
  unfold blUsbTraversalPush
  split_ifs with hroom
  · exact ⟨by dsimp only; omega, by dsimp only; omega, ht.indexed_append (by omega)⟩
  · exact ht

theorem Bounded.pop (ht : Bounded t) : Bounded (blUsbTraversalPop t).2 := by
  have htail := ht.tail_le
  unfold blUsbTraversalPop
  split_ifs with hsome
  · exact ⟨by dsimp only; omega, htail, ht.indexed_append (by omega)⟩
  · exact ht

theorem Bounded.note (ht : Bounded t) (e : DumpEvent) : Bounded (t.note e) :=
  ⟨ht.head_le, ht.tail_le, ht.indexed_lt⟩

theorem Tracks.note (ht : Tracks t w) (e : DumpEvent) : Tracks (t.note e) w :=
  ⟨ht.tail_eq, ht.tail_le, ht.hubs_eq⟩

theorem Tracks.push (ht : Tracks t w) (h : HubPtr) :
    Tracks (blUsbTraversalPush t h) (w ++ [h].take (126 - t.tail)) ∧
      126 - (blUsbTraversalPush t h).tail = 126 - t.tail - 1 := by
  have htail := ht.tail_eq
  unfold blUsbTraversalPush
  split_ifs with hroom
  · rw [List.take_of_length_le (by rw [List.length_singleton]; omega)]
    refine ⟨⟨?_, by dsimp only; omega, fun k h' hk => ?_⟩, by dsimp only; omega⟩
    · dsimp only
      rw [List.length_append, List.length_singleton]
      omega
    · dsimp only
      rcases Nat.lt_or_ge k w.length with hlt | hge
      · rw [List.getElem?_append_left hlt] at hk
        rw [Function.update_of_ne (by omega)]
        exact ht.hubs_eq k h' hk
      · rw [List.getElem?_append_right hge, List.getElem?_singleton] at hk
        obtain ⟨hzero, rfl⟩ : k - w.length = 0 ∧ h = h' := by simpa using hk
        rw [show t.head + k = t.tail by omega, Function.update_self]
  · rw [show 126 - t.tail = 0 by omega, List.take_zero, List.append_nil]
    exact ⟨ht, rfl⟩

theorem Tracks.pop (ht : Tracks t (h :: w)) :
    (blUsbTraversalPop t).1 = h ∧ Tracks (blUsbTraversalPop t).2 w ∧
      (blUsbTraversalPop t).2.tail = t.tail := by
  have htail := ht.tail_eq
  rw [List.length_cons] at htail
  unfold blUsbTraversalPop
  rw [if_pos (by omega)]
  refine ⟨ht.hubs_eq 0 h rfl, ⟨by dsimp only; omega, ht.tail_le, fun k h' hk => ?_⟩, rfl⟩
  have hnext := ht.hubs_eq (k + 1) h' hk
  dsimp only
  rwa [show t.head + 1 + k = t.head + (k + 1) by omega]

theorem Tracks.isEmpty (ht : Tracks t w) : blUsbTraversalIsEmpty t = true ↔ w = [] := by
  have htail := ht.tail_eq
  unfold blUsbTraversalIsEmpty
  rw [decide_eq_true_iff, ← List.length_eq_zero_iff]
  omega

/-! ## One hub -/

def dumped (s : BlUsb) (t : Traversal) (d : Nat) : Traversal :=
  (ownHub s d).elim (t.note (.printed d)) (blUsbTraversalPush (t.note (.printed d)))

def visit (s : BlUsb) (t : Traversal) (h : HubPtr) : Traversal :=
  (slotDevices s h).foldl (dumped s) ((blUsbTraversalPop t).2.note (.visited h))

theorem Bounded.dumped (ht : Bounded t) (s : BlUsb) (d : Nat) : Bounded (dumped s t d) := by
  unfold UsbDump.dumped
  cases ownHub s d with
  | none => exact ht.note _
  | some h => exact (ht.note _).push h

theorem Bounded.visit (ht : Bounded t) (s : BlUsb) (h : HubPtr) : Bounded (visit s t h) :=
  List.foldlRecOn _ _ (ht.pop.note _) fun _ hbefore d _ => hbefore.dumped s d

@[simp] theorem log_push (t : Traversal) (h : HubPtr) : (blUsbTraversalPush t h).log = t.log := by
  unfold blUsbTraversalPush
  split_ifs <;> rfl

@[simp] theorem log_pop (t : Traversal) : (blUsbTraversalPop t).2.log = t.log := by
  unfold blUsbTraversalPop
  split_ifs <;> rfl

@[simp] theorem log_note (t : Traversal) (e : DumpEvent) : (t.note e).log = t.log ++ [e] := rfl

theorem log_dumped (s : BlUsb) (t : Traversal) (d : Nat) :
    (dumped s t d).log = t.log ++ [.printed d] := by
  unfold dumped
  cases ownHub s d <;> simp

theorem log_visit (s : BlUsb) (t : Traversal) (h : HubPtr) :
    (visit s t h).log = t.log ++ hubEvents s h := by
  have hdevices : ∀ (ds : List Nat) (t : Traversal),
      (ds.foldl (dumped s) t).log = t.log ++ ds.map .printed := by
    intro ds
    induction ds with
    | nil => simp
    | cons d ds ih =>
      intro t
      rw [List.foldl_cons, ih, log_dumped, List.map_cons, List.append_assoc, List.singleton_append]
  unfold visit hubEvents
  rw [hdevices, log_note, log_pop, List.append_assoc, List.singleton_append]

theorem Tracks.dumped (ht : Tracks t w) (s : BlUsb) (d : Nat) :
    Tracks (dumped s t d) (w ++ (ownHub s d).toList.take (126 - t.tail)) ∧
      126 - (dumped s t d).tail = 126 - t.tail - (ownHub s d).toList.length := by
  have hnote := ht.note (.printed d)
  unfold UsbDump.dumped
  cases ownHub s d with
  | none =>
    simp only [Option.elim_none, Option.toList_none, List.take_nil, List.append_nil]
    exact ⟨hnote, rfl⟩
  | some h => exact hnote.push h

theorem Tracks.devices (ht : Tracks t w) (s : BlUsb) (ds : List Nat) :
    Tracks (ds.foldl (UsbDump.dumped s) t)
        (w ++ (ds.filterMap (ownHub s)).take (126 - t.tail)) ∧
      126 - (ds.foldl (UsbDump.dumped s) t).tail =
        126 - t.tail - (ds.filterMap (ownHub s)).length := by
  induction ds generalizing t w with
  | nil => simpa using ht
  | cons d ds ih =>
    obtain ⟨hfirst, hroom⟩ := ht.dumped s d
    obtain ⟨hrest, hroom'⟩ := ih hfirst
    have hcons : (d :: ds).filterMap (ownHub s) =
        (ownHub s d).toList ++ ds.filterMap (ownHub s) := by
      rw [List.filterMap_cons]
      cases ownHub s d <;> rfl
    rw [List.foldl_cons, hcons, List.take_append, ← List.append_assoc, List.length_append,
      ← Nat.sub_sub, ← hroom]
    exact ⟨hrest, hroom'⟩

theorem Tracks.visit (ht : Tracks t (h :: w)) (s : BlUsb) :
    Tracks (visit s t h) (w ++ (childHubs s h).take (126 - t.tail)) ∧
      126 - (UsbDump.visit s t h).tail = 126 - t.tail - (childHubs s h).length := by
  obtain ⟨-, hpop, htail⟩ := ht.pop
  have hdevices := (hpop.note (.visited h)).devices s (slotDevices s h)
  rw [show ((blUsbTraversalPop t).2.note (.visited h)).tail = t.tail from htail] at hdevices
  exact hdevices

theorem dumpSlot_some_iff {i slot : Nat} (hslot : hub.slot i = some slot) :
    dumpSlot s hub t i = some t' ↔
      (∀ d ∈ ((hub.slot i).filter (· ≠ 0)).toList, Prints s d) ∧
        t' = ((hub.slot i).filter (· ≠ 0)).toList.foldl (dumped s) t := by
  unfold dumpSlot
  rw [hslot, Option.bind_some]
  by_cases hzero : slot = 0
  · simp [hzero, Option.filter_some, eq_comm]
  · rw [if_neg hzero, Option.filter_some, if_pos (by simpa using hzero)]
    simp only [Option.toList_some, List.mem_singleton, forall_eq, List.foldl_cons, List.foldl_nil,
      Prints, UsbDump.dumped, ownHub]
    cases s.devices slot with
    | none => simp
    | some device =>
      simp only [Option.bind_some]
      cases blUsbDumpDeviceId s device with
      | none => simp
      | some _ =>
        by_cases htype : device.type = blUsbHubDevice
        · simp [htype, eq_comm]
        · simp [htype, eq_comm]

theorem dumpSlots_some_iff {is : List Nat} (hslots : ∀ i ∈ is, hub.slot i ≠ none) :
    is.foldlM (dumpSlot s hub) t = some t' ↔
      (∀ d ∈ is.flatMap fun i => ((hub.slot i).filter (· ≠ 0)).toList, Prints s d) ∧
        t' = (is.flatMap fun i => ((hub.slot i).filter (· ≠ 0)).toList).foldl (dumped s) t := by
  induction is generalizing t with
  | nil => simp [eq_comm]
  | cons i is ih =>
    obtain ⟨slot, hslot⟩ := Option.ne_none_iff_exists'.mp (hslots i List.mem_cons_self)
    have hrest : ∀ j ∈ is, hub.slot j ≠ none := fun j hj => hslots j (List.mem_cons_of_mem _ hj)
    rw [List.foldlM_cons, List.flatMap_cons, List.foldl_append, List.forall_mem_append]
    constructor
    · intro hrun
      obtain ⟨t₁, hfirst, hthen⟩ := Option.bind_eq_some_iff.mp hrun
      obtain ⟨hprints, rfl⟩ := (dumpSlot_some_iff hslot).mp hfirst
      obtain ⟨hprints', heq⟩ := (ih hrest).mp hthen
      exact ⟨⟨hprints, hprints'⟩, heq⟩
    · rintro ⟨⟨hprints, hprints'⟩, heq⟩
      exact Option.bind_eq_some_iff.mpr ⟨_, (dumpSlot_some_iff hslot).mpr ⟨hprints, rfl⟩,
        (ih hrest).mpr ⟨hprints', heq⟩⟩

/-! ## The walk -/

theorem dumpHubs_cons (ht : Tracks t (h :: w)) (hhub : s.hubs h = some hub)
    (hslots : ∀ i < hub.ports, hub.slot i ≠ none) (fuel : Nat) :
    dumpHubs s (fuel + 1) t = some t' ↔
      (∀ d ∈ slotDevices s h, Prints s d) ∧ dumpHubs s fuel (visit s t h) = some t' := by
  obtain ⟨hpop, -, -⟩ := ht.pop
  have hsome : blUsbTraversalIsEmpty t ≠ true := by
    intro hempty
    cases ht.isEmpty.mp hempty
  have hdevices : slotDevices s h =
      (List.range hub.ports).flatMap fun i => ((hub.slot i).filter (· ≠ 0)).toList := by
    unfold slotDevices
    rw [hhub]
  have hslots' : ∀ i ∈ List.range hub.ports, hub.slot i ≠ none :=
    fun i hi => hslots i (List.mem_range.mp hi)
  rw [dumpHubs, visit]
  dsimp only
  rw [if_neg hsome, hpop, hhub, Option.bind_some, hdevices]
  constructor
  · intro hrun
    obtain ⟨t₁, hfirst, hthen⟩ := Option.bind_eq_some_iff.mp hrun
    obtain ⟨hprints, rfl⟩ := (dumpSlots_some_iff hslots').mp hfirst
    exact ⟨hprints, hthen⟩
  · rintro ⟨hprints, hthen⟩
    exact Option.bind_eq_some_iff.mpr
      ⟨_, (dumpSlots_some_iff hslots').mpr ⟨hprints, rfl⟩, hthen⟩

/-- The loop goes through the hubs that a queue with the same room delivers. -/
theorem dumpHubs_some_iff {fuel : Nat} (ht : Tracks t w) (hfuel : w.length + (126 - t.tail) ≤ fuel)
    (hslots : ∀ h ∈ walk (childHubs s) fuel w (126 - t.tail), ∃ hub, s.hubs h = some hub ∧
      ∀ i < hub.ports, hub.slot i ≠ none) :
    dumpHubs s fuel t = some t' ↔
      (∀ h ∈ walk (childHubs s) fuel w (126 - t.tail), ∀ d ∈ slotDevices s h, Prints s d) ∧
        t' = (walk (childHubs s) fuel w (126 - t.tail)).foldl (visit s) t := by
  induction fuel generalizing t w with
  | zero =>
    have hnil : w = [] := List.eq_nil_of_length_eq_zero (by omega)
    rw [dumpHubs, if_pos (ht.isEmpty.mpr hnil), walk]
    simp [eq_comm]
  | succ fuel ih =>
    cases w with
    | nil =>
      rw [dumpHubs, if_pos (ht.isEmpty.mpr rfl), walk]
      simp [eq_comm]
    | cons h w =>
      obtain ⟨hvisit, hroom⟩ := ht.visit s
      rw [walk, ← hroom] at hslots ⊢
      obtain ⟨hub, hhub, hthere⟩ := hslots h List.mem_cons_self
      rw [dumpHubs_cons ht hhub hthere, List.forall_mem_cons, List.foldl_cons, and_assoc]
      refine and_congr_right fun _ => ih hvisit ?_ fun h' hmem => hslots h' ?_
      · rw [List.length_cons] at hfuel
        rw [List.length_append, List.length_take, hroom]
        omega
      · exact List.mem_cons_of_mem _ hmem

/-! ## The tree and the dump -/

theorem mem_slotDevices {i d : Nat} {device : BlUsbDevice} (hholds : Holds s h hub i d device)
    (hnull : s.devices 0 = none) : d ∈ slotDevices s h := by
  have hne : d ≠ 0 := by
    rintro rfl
    cases hnull.symm.trans hholds.device_eq
  unfold slotDevices
  rw [hholds.hub_eq]
  refine List.mem_flatMap.mpr ⟨i, List.mem_range.mpr hholds.port, ?_⟩
  rw [hholds.slot_eq]
  simp [Option.filter_some, hne]

theorem mem_childHubs {i d : Nat} {device : BlUsbDevice} (hholds : Holds s h hub i d device)
    (hnull : s.devices 0 = none) (htype : device.type = blUsbHubDevice) :
    device.hub ∈ childHubs s h := by
  refine List.mem_filterMap.mpr ⟨d, mem_slotDevices hholds hnull, ?_⟩
  unfold ownHub
  rw [hholds.device_eq, Option.bind_some, if_pos htype]

variable {hubs : List HubPtr}

theorem HubTree.mem_of_inTree (htree : HubTree s hc hubs) (hin : InTree s hc h) : h ∈ hubs := by
  obtain ⟨depth, hend, rfl⟩ := htree.levels
  induction hin with
  | root => exact mem_order_of_root hend List.mem_cons_self
  | hub _ hholds htype ih => exact mem_order_of_mem hend ih (mem_childHubs hholds htree.null htype)

theorem HubTree.nodup_events (htree : HubTree s hc hubs) :
    (hubs.flatMap (hubEvents s)).Nodup := by
  obtain ⟨heach, hdisjoint⟩ := List.nodup_flatMap.mp htree.devices_once
  have hinj : Function.Injective DumpEvent.printed := fun _ _ heq => by injection heq
  refine List.nodup_flatMap.mpr ⟨fun h hh => ?_, ?_⟩
  · unfold hubEvents
    exact List.nodup_cons.mpr ⟨by simp, (heach h hh).map hinj⟩
  · refine (htree.hubs_once.and hdisjoint).imp ?_
    rintro h h' ⟨hne, hdis⟩ e he he'
    unfold hubEvents at he he'
    rcases List.mem_cons.mp he with rfl | hmem
    · simp [hne] at he'
    · obtain ⟨d, hd, rfl⟩ := List.mem_map.mp hmem
      have hd' : d ∈ slotDevices s h' := by simpa using he'
      exact hdis hd hd'

theorem HubTree.walk_eq (htree : HubTree s hc hubs) {fuel : Nat} (hfuel : 126 ≤ fuel) :
    walk (childHubs s) fuel [.root hc] 125 = hubs.take 126 := by
  obtain ⟨depth, hend, rfl⟩ := htree.levels
  exact BreadthFirst.walk_eq hend hfuel

theorem tracks_init (hc : Nat) :
    Tracks (blUsbTraversalPush blUsbTraversalInit (.root hc)) [.root hc] :=
  (Tracks.push (t := blUsbTraversalInit) (w := []) ⟨rfl, by decide, by simp⟩ (.root hc)).1

theorem bounded_init (hc : Nat) :
    Bounded (blUsbTraversalPush blUsbTraversalInit (.root hc)) := by
  refine Bounded.push ⟨le_rfl, by decide, fun i hi => ?_⟩ _
  exact List.mem_range.mp hi

theorem HubTree.dump_some_iff (htree : HubTree s hc hubs) {fuel : Nat} (hfuel : 126 ≤ fuel) :
    blUsbDumpHostControllerDevices s fuel hc true = some t ↔
      (∀ h ∈ hubs.take 126, ∀ d ∈ slotDevices s h, Prints s d) ∧
        t = (hubs.take 126).foldl (visit s) (blUsbTraversalPush blUsbTraversalInit (.root hc)) := by
  rw [← htree.walk_eq hfuel]
  refine dumpHubs_some_iff (tracks_init hc) hfuel fun h hh => ?_
  have hmem : h ∈ hubs.take 126 := by
    rw [← htree.walk_eq hfuel]
    exact hh
  obtain ⟨hub, hhub, hslots⟩ := htree.slots h (List.mem_of_mem_take hmem)
  refine ⟨hub, hhub, fun i hi => ?_⟩
  obtain ⟨slot, hslot, -⟩ := hslots i hi
  simp [hslot]

theorem visits_spec (hs : List HubPtr) (ht : Bounded t) :
    Bounded (hs.foldl (visit s) t) ∧
      (hs.foldl (visit s) t).log = t.log ++ hs.flatMap (hubEvents s) := by
  induction hs generalizing t with
  | nil => simpa using ht
  | cons h hs ih =>
    obtain ⟨hbounded, hlog⟩ := ih (ht.visit s h)
    rw [log_visit, List.append_assoc, ← List.flatMap_cons] at hlog
    exact ⟨hbounded, hlog⟩

theorem not_dumpedRight_unserved (s : BlUsb) (hc : Nat) (hubs : List HubPtr) :
    ¬ DumpedRight s hc false hubs := by
  rintro ⟨t, hrun, -⟩
  obtain ⟨fuel, hfuel⟩ := hrun.exists
  cases hfuel

/-- **When the dump goes through the tree.** -/
theorem blUsbDumpHostControllerDevices_right_iff (s : BlUsb) (hc : Nat) (served : Bool)
    (hubs : List HubPtr) (htree : HubTree s hc hubs) :
    DumpedRight s hc served hubs ↔
      served = true ∧ ∀ h ∈ hubs.take 126, ∀ d ∈ slotDevices s h, Prints s d := by
  cases served with
  | false => exact iff_of_false (not_dumpedRight_unserved s hc hubs) fun h => by cases h.1
  | true =>
    rw [eq_self, true_and]
    constructor
    · rintro ⟨t, hrun, -⟩
      obtain ⟨fuel, hfuel, hle⟩ := (hrun.and (eventually_ge_atTop 126)).exists
      exact ((htree.dump_some_iff hle).mp hfuel).1
    · intro hprints
      obtain ⟨hbounded, hlog⟩ := visits_spec (s := s) (hubs.take 126) (bounded_init hc)
      refine ⟨_, ?_, hbounded.indexed_lt, fun hfew => ?_⟩
      · filter_upwards [eventually_ge_atTop 126] with fuel hle
        exact (htree.dump_some_iff hle).mpr ⟨hprints, rfl⟩
      · rw [List.take_of_length_le hfew, log_push] at hlog
        rw [List.take_of_length_le hfew]
        have hevents : (hubs.foldl (visit s)
            (blUsbTraversalPush blUsbTraversalInit (.root hc))).log =
              hubs.flatMap (hubEvents s) := hlog
        rw [hevents]
        refine ⟨rfl, htree.nodup_events, fun h hh => ?_, fun h hub i d device hh hholds => ?_⟩
        · refine List.mem_flatMap.mpr ⟨h, htree.mem_of_inTree hh, ?_⟩
          exact List.mem_cons_self
        · refine List.mem_flatMap.mpr ⟨h, htree.mem_of_inTree hh, ?_⟩
          exact List.mem_cons_of_mem _ (List.mem_map_of_mem (mem_slotDevices hholds htree.null))

/-! ## A hub on a root hub, and a device on it -/

def deviceOn (type : Nat) (parentHub own : HubPtr) : BlUsbDevice where
  address := 1
  port := 1
  parentHub := parentHub
  descriptors := ⟨[], [], none⟩
  controller := 0
  type := type
  hub := own
  told := none

def hubWith (slots : List Nat) : BlUsbHub where
  ports := slots.length
  devices := some slots
  portChain := Vector.replicate 5 0
  behind := Vector.replicate 11 0
  device := none
  next := none

def twoHubs : BlUsb where
  next := 6
  devices
    | 1 => some (deviceOn blUsbHubDevice (.root 0) (.block 5))
    | 2 => some (deviceOn blUsbStorageDevice (.block 5) .null)
    | _ => none
  hubs
    | .root 0 => some (hubWith [0, 1])
    | .block 5 => some (hubWith [2])
    | _ => none
  controllers _ := ⟨.uhci, 2, 2⟩
  rootHubs := some 0

theorem twoHubs_tree : HubTree twoHubs 0 [.root 0, .block 5] where
  levels := ⟨2, by decide, by decide⟩
  slots h hh := by
    simp only [List.mem_cons, List.not_mem_nil, or_false] at hh
    rcases hh with rfl | rfl
    · exact ⟨hubWith [0, 1], rfl, by decide⟩
    · exact ⟨hubWith [2], rfl, by decide⟩
  null := rfl
  hubs_once := by decide
  devices_once := by decide

theorem twoHubs_right : DumpedRight twoHubs 0 true [.root 0, .block 5] :=
  (blUsbDumpHostControllerDevices_right_iff twoHubs 0 true [.root 0, .block 5] twoHubs_tree).mpr
    ⟨rfl, by unfold Prints; decide⟩

theorem twoHubs_not_right : ¬ ∀ s hc served hubs, HubTree s hc hubs →
    DumpedRight s hc served hubs := by
  intro h
  exact not_dumpedRight_unserved _ _ _ (h twoHubs 0 false _ twoHubs_tree)

end BootLoader.UsbDump
