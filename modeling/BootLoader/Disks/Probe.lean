import BootLoader.Disks.Code
import BootLoader.Lib.LinkedList
import BootLoader.Partition.Probe

/-!
# What the probe trusts

The list of partitions is never emptied, and the controller of a USB disk never set, so both hold
what the block held when it was handed out.
-/

open ByteMemory LinkedList

namespace BootLoader.Disks

open Driver Storage

variable {env : Env} {p : Probing} {s s' s₀ : Registry} {ds cs : List Nat}

def Registry.HasDisks (s : Registry) (ds : List Nat) : Prop :=
  Chain (fun d => (s.disk d).next) s.blStorageDevices ds

def Registry.HasControllers (s : Registry) (cs : List Nat) : Prop :=
  Chain (fun c => (s.controller c).next) s.controllerList cs

/-! ## Registration -/

/-- After drivers have registered `ds` and `cs` in memory that was `s₀`. -/
structure Registered (s₀ s : Registry) (ds cs : List Nat) : Prop where
  disks : s.HasDisks ds
  controllers : s.HasControllers cs
  disk_lt : ∀ d ∈ ds, d < s.world.next
  controller_lt : ∀ c ∈ cs, c < s.world.next
  partitions : ∀ d ∈ ds, (s.disk d).partitions = (s₀.disk d).partitions
  usb : ∀ d ∈ ds, (s.disk d).type = .usbDrive → (s.disk d).controller = (s₀.disk d).controller
  hard : ∀ d ∈ ds, (s.disk d).type = .hardDrive → ∃ c ∈ cs, (s.disk d).controller = some c
  untouched : ∀ d, s.world.next ≤ d → s.disk d = s₀.disk d

theorem alloc_cases (env : Env) (w : World) :
    (∃ w', w.alloc env = (w', none) ∧ w'.next = w.next) ∨
      ∃ w', w.alloc env = (w', some w.next) ∧ w'.next = w.next + 1 := by
  unfold World.alloc
  split_ifs
  · exact .inr ⟨_, rfl, rfl⟩
  · exact .inl ⟨_, rfl, rfl⟩

theorem Registered.refused (h : Registered s₀ s ds cs) {w : World} (hnext : w.next = s.world.next) :
    Registered s₀ { s with world := w } ds cs :=
  { h with
    disk_lt := hnext ▸ h.disk_lt
    controller_lt := hnext ▸ h.controller_lt
    untouched := hnext ▸ h.untouched }

theorem blDiskControllerRegister_new (s : Registry) (c : Nat) (value : BlDiskController) :
    blDiskControllerRegister (s.setController c value) c =
      { s with
        controller := Function.update s.controller c { value with next := s.controllerList }
        controllerList := some c } := by
  simp [blDiskControllerRegister, Registry.setController]

theorem blStorageDeviceRegister_new (s : Registry) (d : Nat) (value : BlStorageDevice) :
    blStorageDeviceRegister (s.setDisk d value) d =
      { s with
        disk := Function.update s.disk d { value with next := s.blStorageDevices }
        blStorageDevices := some d } := by
  simp [blStorageDeviceRegister, Registry.setDisk]

theorem forall_mem_cons_lt {as : List Nat} {n m : Nat} (h : ∀ a ∈ as, a < n) (hm : m = n + 1) :
    ∀ a ∈ n :: as, a < m := by
  intro a ha
  rcases List.mem_cons.mp ha with rfl | ha
  · omega
  · exact (h a ha).trans (by omega)

/-- A controller in a new block. -/
theorem Registered.addController (h : Registered s₀ s ds cs) (funcs : BlDiskControllerFunctions)
    {w : World} (hnext : w.next = s.world.next + 1) :
    Registered s₀ { s with
      world := w
      controller := Function.update s.controller s.world.next ⟨funcs, s.controllerList⟩
      controllerList := some s.world.next } ds (s.world.next :: cs) where
  disks := h.disks
  controllers := by
    refine h.controllers.push (by simp) fun c hc => ?_
    simp [(h.controller_lt c hc).ne]
  disk_lt d hd := (h.disk_lt d hd).trans (by simp [hnext])
  controller_lt := forall_mem_cons_lt h.controller_lt hnext
  partitions := h.partitions
  usb := h.usb
  hard d hd htype := by
    obtain ⟨c, hc, heq⟩ := h.hard d hd htype
    exact ⟨c, List.mem_cons_of_mem _ hc, heq⟩
  untouched d hd := h.untouched d (by simp only [hnext] at hd; omega)

/-- A disk in a new block, of which a driver leaves the partitions as they are. -/
theorem Registered.addDisk (h : Registered s₀ s ds cs) {w : World}
    (hnext : w.next = s.world.next + 1) {value : BlStorageDevice}
    (hlist : value.next = s.blStorageDevices)
    (hpartitions : value.partitions = (s.disk s.world.next).partitions)
    (husb : value.type = .usbDrive → value.controller = (s.disk s.world.next).controller)
    (hhard : value.type = .hardDrive → ∃ c ∈ cs, value.controller = some c) :
    Registered s₀ { s with
      world := w
      disk := Function.update s.disk s.world.next value
      blStorageDevices := some s.world.next } (s.world.next :: ds) cs := by
  have hold : ∀ d ∈ ds, Function.update s.disk s.world.next value d = s.disk d :=
    fun d hd => Function.update_of_ne (h.disk_lt d hd).ne _ _
  have hnew := h.untouched s.world.next le_rfl
  constructor
  · exact h.disks.push (by simp [hlist]) fun d hd => by simp [hold d hd]
  · exact h.controllers
  · exact forall_mem_cons_lt h.disk_lt hnext
  · exact fun c hc => (h.controller_lt c hc).trans (by simp [hnext])
  · intro d hd
    rcases List.mem_cons.mp hd with rfl | hd
    · simp [hpartitions, hnew]
    · simp [hold d hd, h.partitions d hd]
  · intro d hd
    rcases List.mem_cons.mp hd with rfl | hd
    · simpa [hnew] using husb
    · simpa [hold d hd] using h.usb d hd
  · intro d hd
    rcases List.mem_cons.mp hd with rfl | hd
    · simpa using hhard
    · simpa [hold d hd] using h.hard d hd
  · intro d hd
    simp only [hnext] at hd
    have hne : d ≠ s.world.next := by omega
    simp [hne, h.untouched d (by omega)]

theorem Registered.newController (h : Registered s₀ s ds cs) (env : Env)
    (funcs : BlDiskControllerFunctions) :
    ∃ s' cs' c, newController env funcs s = (s', c) ∧ Registered s₀ s' ds cs' ∧
      ∀ c', c = some c' → c' ∈ cs' := by
  unfold Disks.newController
  rcases alloc_cases env s.world with ⟨w, hw, hnext⟩ | ⟨w, hw, hnext⟩
  · rw [hw]
    exact ⟨_, cs, none, rfl, h.refused hnext, by simp⟩
  · rw [hw]
    dsimp only
    rw [blDiskControllerRegister_new]
    exact ⟨_, s.world.next :: cs, _, rfl, h.addController funcs hnext, by simp⟩

theorem Registered.hardDrives (h : Registered s₀ s ds cs) (env : Env) {c : Nat} (hc : c ∈ cs)
    (devices : List AtaDevice) :
    ∃ ds', Registered s₀ (registerHardDrives env c devices s) ds' cs := by
  induction devices generalizing s ds with
  | nil => exact ⟨ds, h⟩
  | cons device devices ih =>
    rw [registerHardDrives]
    rcases alloc_cases env s.world with ⟨w, hw, hnext⟩ | ⟨w, hw, hnext⟩
    · rw [hw]
      exact ⟨ds, h.refused hnext⟩
    · rw [hw]
      dsimp only
      rw [blStorageDeviceRegister_new]
      exact ih (h.addDisk hnext rfl rfl (by simp) fun _ => ⟨c, hc, rfl⟩)

theorem Registered.initHardDrives (h : Registered s₀ s ds cs) (env : Env)
    (funcs : BlDiskControllerFunctions) (devices : List AtaDevice) :
    ∃ ds' cs', Registered s₀ (initHardDrives env funcs devices s) ds' cs' := by
  obtain ⟨s', cs', c, hc, h', hmem⟩ := h.newController env funcs
  rw [Disks.initHardDrives, hc]
  cases c with
  | none => exact ⟨ds, cs', h'⟩
  | some c =>
    obtain ⟨ds', h''⟩ := h'.hardDrives env (hmem c rfl) devices
    exact ⟨ds', cs', h''⟩

/-- One registration, of any driver. -/
theorem Registered.register (h : Registered s₀ s ds cs) (env : Env) (r : Registration) :
    ∃ ds' cs', Registered s₀ (register env s r) ds' cs' := by
  cases r with
  | pata devices => exact h.initHardDrives env pataFunctions devices
  | ahci devices => exact h.initHardDrives env ahciFunctions devices
  | usbScsi =>
    obtain ⟨s', cs', c, hc, h', -⟩ := h.newController env blUsbScsiFuncs
    refine ⟨ds, cs', ?_⟩
    rwa [Disks.register, usbScsiModuleInit, hc]
  | usbDisk device =>
    rw [Disks.register, blUsbClaimStorageDevice]
    rcases alloc_cases env s.world with ⟨w, hw, hnext⟩ | ⟨w, hw, hnext⟩
    · rw [hw]
      exact ⟨ds, cs, h.refused hnext⟩
    · rw [hw]
      dsimp only
      rw [blStorageDeviceRegister_new]
      exact ⟨_, cs, h.addDisk hnext rfl rfl (fun _ => rfl) (by simp)⟩

theorem registered_start (world : World) (disk : Nat → BlStorageDevice)
    (controller : Nat → BlDiskController) (partition : Nat → BlPartitionNode) :
    Registered (.start world disk controller partition)
      (.start world disk controller partition) [] [] := by
  constructor <;> first | exact .nil none | simp

/-- Whatever was registered, and in whatever order. -/
theorem registered_run (env : Env) (rs : List Registration) (h : Registered s₀ s ds cs) :
    ∃ ds' cs', Registered s₀ (rs.foldl (register env) s) ds' cs' := by
  induction rs generalizing s ds cs with
  | nil => exact ⟨ds, cs, h⟩
  | cons r rs ih =>
    obtain ⟨ds', cs', h'⟩ := h.register env r
    exact ih h'

/-! ## The handlers of partition tables -/

/-- Partitions in blocks of their own were put before the others. -/
structure Grown (d d' : Partition.Disk) : Prop where
  next_le : d.world.next ≤ d'.world.next
  new : ∃ new, d'.partitions = new ++ d.partitions ∧ (new.map Prod.fst).Nodup ∧
    ∀ b ∈ new.map Prod.fst, d.world.next ≤ b ∧ b < d'.world.next

variable {d d' d'' : Partition.Disk}

theorem Grown.refl (d : Partition.Disk) : Grown d d :=
  ⟨le_rfl, [], rfl, .nil, by simp⟩

theorem Grown.trans (h : Grown d d') (h' : Grown d' d'') : Grown d d'' := by
  obtain ⟨new, hnew, hnodup, hin⟩ := h.new
  obtain ⟨new', hnew', hnodup', hin'⟩ := h'.new
  refine ⟨h.next_le.trans h'.next_le, new' ++ new, ?_, ?_, ?_⟩
  · rw [hnew', hnew, List.append_assoc]
  · rw [List.map_append]
    refine List.nodup_append.mpr ⟨hnodup', hnodup, fun b hb c hc => ?_⟩
    have := (hin' b hb).1
    have := (hin c hc).2
    omega
  · intro b hb
    rw [List.map_append] at hb
    rcases List.mem_append.mp hb with hb | hb
    · exact ⟨h.next_le.trans (hin' b hb).1, (hin' b hb).2⟩
    · exact ⟨(hin b hb).1, (hin b hb).2.trans_le h'.next_le⟩

theorem grown_read (env : Env) (d : Partition.Disk) : Grown d (d.read env).1 :=
  ⟨le_rfl, [], rfl, .nil, by simp⟩

theorem grown_record (env : Env) (d : Partition.Disk) (q : BlPartition) :
    Grown d (d.record env q).1 := by
  unfold Partition.Disk.record
  rcases alloc_cases env d.world with ⟨w, hw, hnext⟩ | ⟨w, hw, hnext⟩
  · rw [hw]
    exact ⟨hnext.ge, [], rfl, .nil, by simp⟩
  · rw [hw]
    exact ⟨by simp [hnext], [(d.world.next, q)], rfl, by simp, by simp [hnext]⟩

theorem grown_recordEntries (env : Env) (reading : Bool) (entry : Nat → Option BlPartition)
    (left i : Nat) (d : Partition.Disk) :
    Grown d (Partition.recordEntries env reading entry left i d).1 := by
  induction left generalizing i d with
  | zero => exact .refl d
  | succ left ih =>
    rw [Partition.recordEntries]
    have hread : Grown d (if reading then d.read env else (d, .success)).1 := by
      split_ifs
      · exact grown_read env d
      · exact .refl d
    generalize (if reading then d.read env else (d, .success)) = r at hread ⊢
    dsimp only
    split_ifs
    · exact hread
    · cases entry i with
      | none => exact hread.trans (ih _ _)
      | some q =>
        have hrecord := hread.trans (grown_record env r.1 q)
        dsimp only
        split_ifs
        · exact hrecord
        · exact hrecord.trans (ih _ _)

theorem grown_iterate (env : Env) (table : PartitionTable) (d : Partition.Disk) :
    Grown d (table.iterate env d).1 := by
  have hread := grown_read env d
  cases table with
  | mbr =>
    simp only [PartitionTable.iterate, Partition.blMbrIterate]
    split_ifs
    · exact hread
    · exact hread
    · exact hread.trans (grown_recordEntries ..)
  | gpt =>
    simp only [PartitionTable.iterate, Partition.blGptIterate]
    have hread₂ := hread.trans (grown_read env (d.read env).1)
    split_ifs
    · exact hread
    · exact hread
    · exact hread
    · exact hread₂
    · exact hread₂
    · exact hread₂.trans (grown_recordEntries ..)

theorem grown_probe (env : Env) (tables : List PartitionTable) (d : Partition.Disk) :
    Grown d (Partition.blPartitionTableProbe env (tables.map PartitionTable.iterate) d).1 := by
  induction tables generalizing d with
  | nil => exact .refl d
  | cons table tables ih =>
    have hone := grown_iterate env table d
    rw [List.map_cons, Partition.probe_cons]
    split_ifs
    · exact hone
    · exact hone.trans (ih _)

/-! ## The list of one disk -/

/-- The partitions that were recorded are linked, and the last of them to where the list began. -/
structure Attached (s s' : Registry) (d : Nat) (blocks : List Nat) : Prop where
  world : s'.world = s.world
  devices : s'.blStorageDevices = s.blStorageDevices
  controllerList : s'.controllerList = s.controllerList
  controller : s'.controller = s.controller
  next : ∀ e, (s'.disk e).next = (s.disk e).next
  others : ∀ e, e ≠ d → s'.disk e = s.disk e
  partition : ∀ b, b ∉ blocks → s'.partition b = s.partition b
  linked : Segment (fun b => (s'.partition b).next) (s'.disk d).partitions blocks
    (s.disk d).partitions

theorem attached (s : Registry) (d : Nat) {new : List (Nat × BlPartition)}
    (hnodup : (new.map Prod.fst).Nodup) : Attached s (attach s d new) d (new.map Prod.fst) := by
  induction new with
  | nil => exact ⟨rfl, rfl, rfl, rfl, fun _ => rfl, fun _ _ => rfl, fun _ _ => rfl, .nil _⟩
  | cons q new ih =>
    obtain ⟨block, q⟩ := q
    obtain ⟨hnot, hnodup⟩ := List.nodup_cons.mp hnodup
    have h := ih hnodup
    constructor
    · exact h.world
    · exact h.devices
    · exact h.controllerList
    · exact h.controller
    · intro e
      by_cases he : e = d
      · subst he
        simp [attach, Registry.setDisk, h.next]
      · simp [attach, Registry.setDisk, he, h.next]
    · intro e he
      simp [attach, Registry.setDisk, he, h.others e he]
    · intro b hb
      obtain ⟨hne, hb⟩ := not_or.mp (mt List.mem_cons.mpr hb)
      simp [attach, Registry.setDisk, hne, h.partition b hb]
    · have hhead : ((attach s d ((block, q) :: new)).disk d).partitions = some block := by
        simp [attach, Registry.setDisk]
      rw [hhead]
      refine h.linked.push ?_ fun b hb => ?_
      · simp [attach, Registry.setDisk]
      · have hne : b ≠ block := fun heq => hnot (heq ▸ hb)
        simp [attach, Registry.setDisk, hne]

/-! ## The probe -/

/-- The probe, begun in `s₀` with the disks `all`, is at `disk`, and `ds` are still to come. -/
structure Probed (s₀ : Registry) (all : List Nat) (s : Registry) (recorded : Recorded)
    (disk : Option Nat) (ds : List Nat) : Prop where
  rest : Chain (fun d => (s.disk d).next) disk ds
  among : ∀ d ∈ ds, d ∈ all
  untouched : ∀ d ∈ ds, (s.disk d).partitions = (s₀.disk d).partitions
  recordedAmong : ∀ r ∈ recorded, r.1 ∈ all
  apart : ∀ r ∈ recorded, r.1 ∉ ds
  linked : ∀ r ∈ recorded, Segment (fun b => (s.partition b).next) (s.disk r.1).partitions r.2
    (s₀.disk r.1).partitions
  block_lt : ∀ r ∈ recorded, ∀ b ∈ r.2, b < s.world.next

variable {all : List Nat} {recorded recorded' : Recorded} {disk : Option Nat} {status : BlStatus}

/-- The other fields of a disk do not matter. -/
theorem Probed.setDisk (h : Probed s₀ all s recorded disk ds) {d : Nat} {value : BlStorageDevice}
    (hnext : value.next = (s.disk d).next) (hlist : value.partitions = (s.disk d).partitions) :
    Probed s₀ all (s.setDisk d value) recorded disk ds := by
  have hlink : ∀ e, ((s.setDisk d value).disk e).next = (s.disk e).next := by
    intro e
    by_cases he : e = d
    · subst he
      simpa [Registry.setDisk] using hnext
    · simp [Registry.setDisk, he]
  have hhead : ∀ e, ((s.setDisk d value).disk e).partitions = (s.disk e).partitions := by
    intro e
    by_cases he : e = d
    · subst he
      simpa [Registry.setDisk] using hlist
    · simp [Registry.setDisk, he]
  exact { h with
    rest := Segment.congr h.rest fun e _ => hlink e
    untouched := fun e he => (hhead e).trans (h.untouched e he)
    linked := fun r hr => by
      rw [hhead]
      exact h.linked r hr }

theorem Probed.askController (h : Probed s₀ all s recorded disk ds) (p : Probing)
    (d controller : Nat) : Probed s₀ all (askController p s d controller).1 recorded disk ds := by
  unfold Disks.askController
  dsimp only
  split_ifs
  · refine Probed.setDisk (Probed.setDisk h ?_ ?_) ?_ ?_ <;> rfl
  · exact h.setDisk rfl rfl

theorem Probed.probePartitions {d : Nat} (h : Probed s₀ all s recorded (some d) (d :: ds))
    (p : Probing) :
    Probed s₀ all (probePartitions p s d).1 ((d, (probePartitions p s d).2) :: recorded)
      ((probePartitions p s d).1.disk d).next ds := by
  unfold Disks.probePartitions
  have hgrown := grown_probe { p.env with disk := p.contents d } p.handlers ⟨s.world, []⟩
  generalize Partition.blPartitionTableProbe _ _ _ = out at hgrown ⊢
  obtain ⟨new, hnew, hnodup, hin⟩ := hgrown.new
  obtain rfl : out.1.partitions = new := by simpa using hnew
  have ha := attached { s with world := out.1.world } d hnodup
  dsimp only at ha hin ⊢
  generalize attach { s with world := out.1.world } d out.1.partitions = s' at ha ⊢
  obtain ⟨hnot, -⟩ := List.nodup_cons.mp h.rest.nodup
  have hold : ∀ r ∈ recorded, r.1 ≠ d ∧ r.1 ∉ ds := fun r hr =>
    not_or.mp (mt List.mem_cons.mpr (h.apart r hr))
  have hlt : s.world.next ≤ s'.world.next := by
    rw [ha.world]
    exact hgrown.next_le
  constructor
  · rw [ha.next]
    cases h.rest with
    | cons hrest => exact hrest.congr fun e _ => ha.next e
  · exact fun e he => h.among e (List.mem_cons_of_mem _ he)
  · intro e he
    rw [ha.others e fun heq => hnot (heq ▸ he)]
    exact h.untouched e (List.mem_cons_of_mem _ he)
  · intro r hr
    rcases List.mem_cons.mp hr with rfl | hr
    · exact h.among d List.mem_cons_self
    · exact h.recordedAmong r hr
  · intro r hr
    rcases List.mem_cons.mp hr with rfl | hr
    · exact hnot
    · exact (hold r hr).2
  · intro r hr
    rcases List.mem_cons.mp hr with rfl | hr
    · rw [← h.untouched d List.mem_cons_self]
      exact ha.linked
    · rw [ha.others r.1 (hold r hr).1]
      refine (h.linked r hr).congr fun b hb => ?_
      have hb := h.block_lt r hr b hb
      rw [ha.partition b fun hmem => absurd (hin b hmem).1 (by omega)]
  · intro r hr b hb
    rcases List.mem_cons.mp hr with rfl | hr
    · rw [ha.world]
      exact (hin b hb).2
    · exact (h.block_lt r hr b hb).trans_le hlt

theorem Probed.run {fuel : Nat} (h : Probed s₀ all s recorded disk ds)
    (hrun : storageProbeFrom p fuel disk s recorded = some (s', status, recorded')) :
    ∃ disk' ds', Probed s₀ all s' recorded' disk' ds' := by
  induction fuel generalizing disk s recorded ds with
  | zero => cases hrun
  | succ fuel ih =>
    cases disk with
    | none =>
      rw [storageProbeFrom] at hrun
      obtain ⟨rfl, rfl, rfl⟩ : s = s' ∧ _ ∧ recorded = recorded' := by simpa using hrun
      exact ⟨none, ds, h⟩
    | some d =>
      rw [storageProbeFrom] at hrun
      dsimp only at hrun
      split at hrun
      · cases hrun
      · exact ih h hrun
      · rename_i controller _
        obtain ⟨ds, rfl⟩ : ∃ ds', ds = d :: ds' := by
          cases h.rest
          exact ⟨_, rfl⟩
        have hasked := h.askController p d controller
        split_ifs at hrun with hstatus
        · obtain ⟨rfl, -, rfl⟩ : (Disks.askController p s d controller).1 = s' ∧ _ ∧
              recorded = recorded' := by simpa using hrun
          exact ⟨some d, d :: ds, hasked⟩
        · exact ih (hasked.probePartitions p) hrun

/-! ## Well-formed disks -/

/-- Before the probe: no disk has partitions, and each has no controller or one that registered. -/
def WellFormed (s : Registry) : Prop :=
  ∃ ds cs, s.HasDisks ds ∧ s.HasControllers cs ∧ ∀ d ∈ ds, (s.disk d).partitions = none ∧
    ∀ c, (s.disk d).controller = some c → c ∈ cs

/-- After the probe: the list of each disk ends, and has only partitions recorded for it. -/
def ListsEnd (s : Registry) (recorded : Recorded) : Prop :=
  ∀ r ∈ recorded, ∃ bs, Chain (fun b => (s.partition b).next) (s.disk r.1).partitions bs ∧
    ∀ b ∈ bs, b ∈ r.2

/-- In the memory that was there at first, the blocks that became disks had null where the list of
partitions is, and those of USB disks null or a registered controller where the controller is. -/
def ReusedRight (disk : Nat → BlStorageDevice) (s : Registry) : Prop :=
  ∀ ds cs, s.HasDisks ds → s.HasControllers cs → ∀ d ∈ ds, (disk d).partitions = none ∧
    ((s.disk d).type = .usbDrive → ∀ c, (disk d).controller = some c → c ∈ cs)

theorem Registered.wellFormed_iff (h : Registered s₀ s ds cs) :
    WellFormed s ↔ ReusedRight s₀.disk s := by
  have hds : ∀ {ds'}, s.HasDisks ds' → ds' = ds := fun h' => Chain.unique h' h.disks
  have hcs : ∀ {cs'}, s.HasControllers cs' → cs' = cs := fun h' => Chain.unique h' h.controllers
  constructor
  · rintro ⟨ds₁, cs₁, hds₁, hcs₁, hw⟩ ds₂ cs₂ hds₂ hcs₂ d hd
    obtain rfl := hds hds₁
    obtain rfl := hcs hcs₁
    obtain rfl := hds hds₂
    obtain rfl := hcs hcs₂
    obtain ⟨hlist, hcontroller⟩ := hw d hd
    exact ⟨(h.partitions d hd).symm.trans hlist,
      fun husb c hc => hcontroller c ((h.usb d hd husb).trans hc)⟩
  · intro hr
    refine ⟨ds, cs, h.disks, h.controllers, fun d hd => ?_⟩
    obtain ⟨hlist, hcontroller⟩ := hr ds cs h.disks h.controllers d hd
    refine ⟨(h.partitions d hd).trans hlist, fun c hc => ?_⟩
    cases htype : (s.disk d).type with
    | usbDrive => exact hcontroller htype c ((h.usb d hd htype).symm.trans hc)
    | hardDrive =>
      obtain ⟨c', hc', heq⟩ := h.hard d hd htype
      rw [hc] at heq
      obtain rfl := Option.some.inj heq
      exact hc'

theorem Registered.probed (h : Registered s₀ s ds cs) {fuel : Nat}
    (hrun : blStorageProbe p fuel s = some (s', status, recorded)) :
    ∃ disk' ds', Probed s ds s' recorded disk' ds' := by
  have hstart : Probed s ds s [] s.blStorageDevices ds := by
    refine ⟨h.disks, fun _ hd => hd, fun _ _ => rfl, ?_, ?_, ?_, ?_⟩ <;> simp
  exact hstart.run hrun

/-- The probe leaves the lists well formed if they began empty, and only then. -/
theorem Registered.listsEnd_iff (h : Registered s₀ s ds cs) {fuel : Nat}
    (hrun : blStorageProbe p fuel s = some (s', status, recorded)) :
    ListsEnd s' recorded ↔ ∀ r ∈ recorded, (s₀.disk r.1).partitions = none := by
  obtain ⟨disk', ds', hprobed⟩ := h.probed hrun
  refine forall₂_congr fun r hr => ?_
  rw [(hprobed.linked r hr).chain_within_iff, h.partitions r.1 (hprobed.recordedAmong r hr)]

/-- **When registered disks are well formed.** They are, before and after the probe, if the memory
that was reused for them happened to be. -/
theorem registered_disks_wellFormed_iff (p : Probing) (world : World)
    (disk : Nat → BlStorageDevice) (controller : Nat → BlDiskController)
    (partition : Nat → BlPartitionNode) (rs : List Registration) :
    let s := rs.foldl (register p.env) (.start world disk controller partition)
    ((WellFormed s ∧ ∀ fuel s' status recorded,
        blStorageProbe p fuel s = some (s', status, recorded) → ListsEnd s' recorded) ↔
      ReusedRight disk s) ∧
    ∀ fuel s' status recorded, blStorageProbe p fuel s = some (s', status, recorded) →
      (ListsEnd s' recorded ↔ ∀ r ∈ recorded, (disk r.1).partitions = none) := by
  obtain ⟨ds, cs, h⟩ := registered_run p.env rs (registered_start world disk controller partition)
  refine ⟨⟨fun hall => h.wellFormed_iff.mp hall.1, fun hr' => ⟨h.wellFormed_iff.mpr hr', ?_⟩⟩, ?_⟩
  · intro fuel s' status recorded hrun
    obtain ⟨disk', ds', hprobed⟩ := h.probed hrun
    refine (h.listsEnd_iff hrun).mpr fun r hr => ?_
    exact (hr' ds cs h.disks h.controllers r.1 (hprobed.recordedAmong r hr)).1
  · exact fun fuel s' status recorded hrun => h.listsEnd_iff hrun

/-- A block that a USB disk reuses, with something where the list of partitions will be. -/
def staleDisk : BlStorageDevice := ⟨.hardDrive, 0, 0, some 7, none, none, none⟩

theorem staleDisk_not_wellFormed :
    ¬ ∀ (env : Env) world disk controller partition (rs : List Registration),
      WellFormed (rs.foldl (register env) (.start world disk controller partition)) := by
  intro h
  obtain ⟨ds, cs, hds, -, hw⟩ := h ⟨fun _ => true, fun _ => .success, fun _ => 0⟩
    ⟨0, fun _ _ => 0, fun _ => false, 0, 0, []⟩ (fun _ => staleDisk)
    (fun _ => ⟨pataFunctions, none⟩) (fun _ => ⟨⟨0, 0⟩, none⟩) [.usbDisk 1]
  obtain rfl := Chain.unique hds (.cons (.nil none) : Chain _ (some 0) [0])
  exact absurd (hw 0 List.mem_cons_self).1 (by decide)

end BootLoader.Disks
