import BootLoader.Disks.Probe

/-!
# Whether the probe ends

The loop goes to the next disk in one of its three branches: it begins the same disk again if there
is no controller for it, and ends at a disk whose `get_info` fails.
-/

open LinkedList

namespace BootLoader.Disks

variable {p : Probing} {s s' s₀ : Registry} {d f : Nat} {ds cs before after : List Nat}
variable {disk : Option Nat} {recorded : Recorded} {fuel : Nat}

/-- The controller that a turn at `d` goes on with. The outer `none`: `fuel` is not enough. -/
def foundAt (s : Registry) (fuel d : Nat) : Option (Option Nat) :=
  match (s.disk d).controller with
  | some controller => some (some controller)
  | none => matchTypeFrom s .usbScsi fuel s.controllerList

/-- The disks at which the turns of the loop begin, for at most `fuel` turns. -/
def visitsFrom (p : Probing) : Nat → Option Nat → Registry → List Nat
  | 0, _, _ => []
  | _ + 1, none, _ => []
  | fuel + 1, some disk, s =>
    disk :: match foundAt s fuel disk with
      | none => []
      | some none => visitsFrom p fuel (some disk) s
      | some (some controller) =>
        let (s, status) := askController p s disk controller
        if status ≠ .success then []
        else
          let (s, _) := probePartitions p s disk
          visitsFrom p fuel (s.disk disk).next s

def storageVisits (p : Probing) (fuel : Nat) (s : Registry) : List Nat :=
  visitsFrom p fuel s.blStorageDevices s

/-! ## What a disk needs -/

def isUsbScsi (s : Registry) (c : Nat) : Bool := .usbScsi = (s.controller c).funcs.type

/-- The controller that the disk has or would be given, of the registered `cs`. -/
def usable (s : Registry) (cs : List Nat) (d : Nat) : Option Nat :=
  (s.disk d).controller.or (cs.find? (isUsbScsi s))

/-- There is no `get_info`, or it succeeds. -/
def Answers (p : Probing) (s : Registry) (d c : Nat) : Prop :=
  (s.controller c).funcs.getInfo = true → (p.getInfo d).1 = .success

def Ready (p : Probing) (s : Registry) (cs : List Nat) (d : Nat) : Prop :=
  ∃ c, usable s cs d = some c ∧ Answers p s d c

/-- The probe returns, begins no disk twice, and leaves out no disk that is ready. -/
def ProbesAll (p : Probing) (s : Registry) (ds cs : List Nat) : Prop :=
  ∃ fuel s' status recorded, blStorageProbe p fuel s = some (s', status, recorded) ∧
    (storageVisits p fuel s).Nodup ∧ ∀ d ∈ ds, Ready p s cs d → d ∈ recorded.map Prod.fst

/-- The first disk that is not ready has a controller, and no disk after it is ready. -/
def NoneLeftOut (p : Probing) (s : Registry) (ds cs : List Nat) : Prop :=
  ∀ before f after, ds = before ++ f :: after → (∀ d ∈ before, Ready p s cs d) →
    ¬ Ready p s cs f → usable s cs f ≠ none ∧ ∀ d ∈ after, ¬ Ready p s cs d

/-! ## One turn -/

theorem storageProbeFrom_found (p : Probing) (fuel d : Nat) (s : Registry) (recorded : Recorded) :
    storageProbeFrom p (fuel + 1) (some d) s recorded =
      match foundAt s fuel d with
      | none => none
      | some none => storageProbeFrom p fuel (some d) s recorded
      | some (some c) =>
        if (askController p s d c).2 ≠ .success then
          some ((askController p s d c).1, (askController p s d c).2, recorded)
        else
          storageProbeFrom p fuel ((probePartitions p (askController p s d c).1 d).1.disk d).next
            (probePartitions p (askController p s d c).1 d).1
            ((d, (probePartitions p (askController p s d c).1 d).2) :: recorded) := by
  unfold foundAt
  refine Eq.trans (by rw [storageProbeFrom]) ?_
  cases (s.disk d).controller <;> rfl

theorem matchTypeFrom_eq {curr : Option Nat}
    (h : Chain (fun c => (s.controller c).next) curr cs) (hfuel : cs.length < fuel) :
    matchTypeFrom s .usbScsi fuel curr = some (cs.find? (isUsbScsi s)) := by
  induction cs generalizing curr fuel with
  | nil =>
    obtain ⟨fuel, rfl⟩ := Nat.exists_eq_succ_of_ne_zero (Nat.ne_of_gt hfuel)
    cases h
    rfl
  | cons c cs ih =>
    obtain ⟨fuel, rfl⟩ := Nat.exists_eq_succ_of_ne_zero (Nat.ne_of_gt (Nat.zero_lt_of_lt hfuel))
    cases h with
    | cons h =>
      rw [matchTypeFrom]
      by_cases hc : .usbScsi = (s.controller c).funcs.type
      · rw [if_pos hc, List.find?_cons_of_pos (by simpa [isUsbScsi] using hc)]
      · rw [if_neg hc, List.find?_cons_of_neg (by simpa [isUsbScsi] using hc)]
        exact ih h (by simpa using hfuel)

theorem foundAt_add {r : Option Nat} (h : foundAt s fuel d = some r) (more : Nat) :
    foundAt s (fuel + more) d = some r := by
  have hmatch : ∀ curr, matchTypeFrom s .usbScsi fuel curr = some r →
      matchTypeFrom s .usbScsi (fuel + more) curr = some r := by
    clear h
    induction fuel with
    | zero => exact fun curr hcurr => by cases hcurr
    | succ fuel ih =>
      intro curr hcurr
      rw [show fuel + 1 + more = fuel + more + 1 by omega]
      cases curr with
      | none => exact hcurr
      | some c =>
        rw [matchTypeFrom] at hcurr ⊢
        split_ifs at hcurr ⊢
        · exact hcurr
        · exact ih _ hcurr
  rw [foundAt] at h ⊢
  generalize (s.disk d).controller = own at h ⊢
  cases own with
  | some c => exact h
  | none => exact hmatch _ h

/-- The loop is at `disk`, with `ds` still to come; what it reads of them is as it was in `s₀`. -/
structure Ahead (s₀ s : Registry) (disk : Option Nat) (ds : List Nat) : Prop where
  rest : Chain (fun d => (s.disk d).next) disk ds
  controllers : s.controller = s₀.controller
  list : s.controllerList = s₀.controllerList
  disks : ∀ d ∈ ds, (s.disk d).controller = (s₀.disk d).controller

theorem askController_status (p : Probing) (s : Registry) (d c : Nat) :
    (askController p s d c).2 = .success ↔ Answers p s d c := by
  unfold Disks.askController Answers
  dsimp only [Registry.setDisk]
  split_ifs with h
  · simp [h]
  · simp [h]

theorem askController_spec (p : Probing) (s : Registry) (d c : Nat) :
    (∀ e, e ≠ d → (askController p s d c).1.disk e = s.disk e) ∧
      ((askController p s d c).1.disk d).next = (s.disk d).next ∧
      (askController p s d c).1.controller = s.controller ∧
      (askController p s d c).1.controllerList = s.controllerList := by
  unfold Disks.askController
  dsimp only [Registry.setDisk]
  split_ifs
  · exact ⟨fun e he => by simp [he], by simp, rfl, rfl⟩
  · exact ⟨fun e he => by simp [he], by simp, rfl, rfl⟩

theorem probePartitions_spec (p : Probing) (s : Registry) (d : Nat) :
    (∀ e, e ≠ d → (probePartitions p s d).1.disk e = s.disk e) ∧
      ((probePartitions p s d).1.disk d).next = (s.disk d).next ∧
      (probePartitions p s d).1.controller = s.controller ∧
      (probePartitions p s d).1.controllerList = s.controllerList := by
  unfold Disks.probePartitions
  have hgrown := grown_probe { p.env with disk := p.contents d } p.handlers ⟨s.world, []⟩
  generalize Partition.blPartitionTableProbe _ _ _ = out at hgrown ⊢
  obtain ⟨new, hnew, hnodup, -⟩ := hgrown.new
  obtain rfl : out.1.partitions = new := by simpa using hnew
  have ha := attached { s with world := out.1.world } d hnodup
  exact ⟨ha.others, ha.next d, ha.controller, ha.controllerList⟩

theorem Ahead.turn (h : Ahead s₀ s (some d) (d :: ds)) (p : Probing) (c : Nat) :
    Ahead s₀ (probePartitions p (askController p s d c).1 d).1
      ((probePartitions p (askController p s d c).1 d).1.disk d).next ds := by
  obtain ⟨hothers, hnext, hcontroller, hlist⟩ := askController_spec p s d c
  obtain ⟨hothers', hnext', hcontroller', hlist'⟩ :=
    probePartitions_spec p (askController p s d c).1 d
  obtain ⟨hnot, -⟩ := List.nodup_cons.mp h.rest.nodup
  have hsame : ∀ e ∈ ds,
      (probePartitions p (askController p s d c).1 d).1.disk e = s.disk e := by
    intro e he
    have hne : e ≠ d := fun heq => hnot (heq ▸ he)
    rw [hothers' e hne, hothers e hne]
  constructor
  · rw [hnext', hnext]
    cases h.rest with
    | cons hrest => exact hrest.congr fun e he => by rw [hsame e he]
  · rw [hcontroller', hcontroller, h.controllers]
  · rw [hlist', hlist, h.list]
  · intro e he
    rw [hsame e he]
    exact h.disks e (List.mem_cons_of_mem _ he)

/-- The controller that a turn finds is the one that was usable at the start. -/
theorem Ahead.found (h : Ahead s₀ s (some d) (d :: ds)) (hcs : s₀.HasControllers cs)
    (hfuel : cs.length < fuel) : foundAt s fuel d = some (usable s₀ cs d) := by
  have hchain : Chain (fun c => (s.controller c).next) s.controllerList cs := by
    rw [h.list, h.controllers]
    exact hcs
  have hmatch : isUsbScsi s = isUsbScsi s₀ := by
    funext c
    rw [isUsbScsi, isUsbScsi, h.controllers]
  rw [foundAt, usable, ← h.disks d List.mem_cons_self]
  cases (s.disk d).controller with
  | some c => rfl
  | none => rw [matchTypeFrom_eq hchain hfuel, hmatch, Option.none_or]

theorem Ahead.answers_iff (h : Ahead s₀ s (some d) (d :: ds)) (c : Nat) :
    (askController p s d c).2 = .success ↔ Answers p s₀ d c := by
  rw [askController_status, Answers, Answers, h.controllers]

/-- A turn at a disk that is ready goes on to the next disk. -/
theorem Ahead.ready (h : Ahead s₀ s (some d) (d :: ds)) (hcs : s₀.HasControllers cs)
    (hready : Ready p s₀ cs d) (recorded : Recorded) :
    ∃ s' disk' blocks, Ahead s₀ s' disk' ds ∧ ∀ fuel, cs.length < fuel →
      storageProbeFrom p (fuel + 1) (some d) s recorded =
        storageProbeFrom p fuel disk' s' ((d, blocks) :: recorded) ∧
      visitsFrom p (fuel + 1) (some d) s = d :: visitsFrom p fuel disk' s' := by
  obtain ⟨c, hc, hanswers⟩ := hready
  have hsuccess := (h.answers_iff c).mpr hanswers
  refine ⟨_, _, (probePartitions p (askController p s d c).1 d).2, h.turn p c, fun fuel hfuel => ?_⟩
  have hfound := h.found hcs hfuel
  rw [hc] at hfound
  constructor
  · rw [storageProbeFrom_found, hfound]
    exact if_neg (not_not.mpr hsuccess)
  · rw [visitsFrom, hfound]
    exact congrArg _ (if_neg (not_not.mpr hsuccess))

theorem Ahead.fails (h : Ahead s₀ s (some d) (d :: ds)) (recorded : Recorded)
    (hcs : s₀.HasControllers cs) {c : Nat} (hc : usable s₀ cs d = some c)
    (hnot : ¬ Answers p s₀ d c) (hfuel : cs.length < fuel) :
    (∃ s' status, storageProbeFrom p (fuel + 1) (some d) s recorded =
      some (s', status, recorded)) ∧ visitsFrom p (fuel + 1) (some d) s = [d] := by
  have hfailed : (askController p s d c).2 ≠ .success := mt (h.answers_iff c).mp hnot
  have hfound := h.found hcs hfuel
  rw [hc] at hfound
  constructor
  · rw [storageProbeFrom_found, hfound]
    exact ⟨_, _, if_pos hfailed⟩
  · rw [visitsFrom, hfound]
    exact congrArg _ (if_pos hfailed)

/-- At a disk without a controller the turns repeat. -/
theorem Ahead.stuck (h : Ahead s₀ s (some d) (d :: ds)) (hcs : s₀.HasControllers cs)
    (hnone : usable s₀ cs d = none) (fuel : Nat) :
    storageProbeFrom p fuel (some d) s recorded = none := by
  induction fuel with
  | zero => rfl
  | succ fuel ih =>
    rw [storageProbeFrom_found]
    cases hfound : foundAt s fuel d with
    | none => rfl
    | some found =>
      have hall := foundAt_add hfound (cs.length + 1)
      rw [h.found hcs (by omega), hnone] at hall
      obtain rfl := Option.some.inj hall
      exact ih

/-! ## More fuel -/

theorem storageProbeFrom_add {r : Registry × BlStatus × Recorded}
    (h : storageProbeFrom p fuel disk s recorded = some r) (more : Nat) :
    storageProbeFrom p (fuel + more) disk s recorded = some r := by
  induction fuel generalizing disk s recorded with
  | zero => cases h
  | succ fuel ih =>
    rw [show fuel + 1 + more = fuel + more + 1 by omega]
    cases disk with
    | none => exact h
    | some d =>
      rw [storageProbeFrom_found] at h ⊢
      cases hfound : foundAt s fuel d with
      | none =>
        rw [hfound] at h
        cases h
      | some found =>
        rw [hfound] at h
        rw [foundAt_add hfound more]
        cases found with
        | none => exact ih h
        | some c =>
          dsimp only at h ⊢
          split_ifs at h ⊢ with hstatus
          · exact h
          · exact ih h

/-! ## The whole list -/

theorem Ahead.readyRun (h : Ahead s₀ s disk (before ++ ds)) (hcs : s₀.HasControllers cs)
    (hready : ∀ d ∈ before, Ready p s₀ cs d) (recorded : Recorded) :
    ∃ s' disk' recorded', Ahead s₀ s' disk' ds ∧
      recorded'.map Prod.fst = before.reverse ++ recorded.map Prod.fst ∧
      ∀ fuel, cs.length < fuel →
        storageProbeFrom p (fuel + before.length) disk s recorded =
          storageProbeFrom p fuel disk' s' recorded' ∧
        visitsFrom p (fuel + before.length) disk s = before ++ visitsFrom p fuel disk' s' := by
  induction before generalizing disk s recorded with
  | nil => exact ⟨s, disk, recorded, h, rfl, fun fuel _ => ⟨rfl, rfl⟩⟩
  | cons d before ih =>
    obtain rfl : disk = some d := by
      cases h.rest
      rfl
    obtain ⟨s₁, disk₁, blocks, h₁, hturn⟩ := h.ready hcs (hready d List.mem_cons_self) recorded
    obtain ⟨s₂, disk₂, recorded₂, h₂, hrecorded, hrun⟩ :=
      ih h₁ (fun e he => hready e (List.mem_cons_of_mem _ he)) ((d, blocks) :: recorded)
    refine ⟨s₂, disk₂, recorded₂, h₂, by simp [hrecorded], fun fuel hfuel => ?_⟩
    obtain ⟨hprobe, hvisits⟩ := hturn (fuel + before.length) (by omega)
    obtain ⟨hprobe', hvisits'⟩ := hrun fuel hfuel
    rw [List.length_cons, ← Nat.add_assoc]
    exact ⟨hprobe.trans hprobe', by rw [hvisits, hvisits', List.cons_append]⟩

theorem ahead_start (hds : s.HasDisks ds) : Ahead s s s.blStorageDevices ds :=
  ⟨hds, rfl, rfl, fun _ _ => rfl⟩

theorem exists_first_not_ready (p : Probing) (s : Registry) (cs ds : List Nat) :
    (∀ d ∈ ds, Ready p s cs d) ∨ ∃ before f after, ds = before ++ f :: after ∧
      (∀ d ∈ before, Ready p s cs d) ∧ ¬ Ready p s cs f := by
  induction ds with
  | nil => exact .inl (by simp)
  | cons d ds ih =>
    by_cases hd : Ready p s cs d
    · rcases ih with hall | ⟨before, f, after, rfl, hbefore, hf⟩
      · exact .inl (List.forall_mem_cons.mpr ⟨hd, hall⟩)
      · exact .inr ⟨d :: before, f, after, rfl, List.forall_mem_cons.mpr ⟨hd, hbefore⟩, hf⟩
    · exact .inr ⟨[], d, ds, rfl, by simp, hd⟩

theorem probesAll_of_ready (hds : s.HasDisks ds) (hcs : s.HasControllers cs)
    (hready : ∀ d ∈ ds, Ready p s cs d) : ProbesAll p s ds cs := by
  have hstart := ahead_start hds
  rw [← List.append_nil ds] at hstart
  obtain ⟨s', disk', recorded', hend, hrecorded, hrun⟩ := hstart.readyRun hcs hready []
  obtain rfl : disk' = none := by
    cases hend.rest
    rfl
  obtain ⟨hprobe, hvisits⟩ := hrun (cs.length + 1) (Nat.lt_succ_self _)
  refine ⟨_, s', .success, recorded', hprobe, ?_, fun d hd _ => ?_⟩
  · rw [storageVisits, hvisits, visitsFrom, List.append_nil]
    exact Chain.nodup hds
  · simp [hrecorded, hd]

/-- A disk whose `get_info` fails comes after those that are ready: these are probed. -/
theorem probesAll_of_fails (hds : s.HasDisks (before ++ f :: after)) (hcs : s.HasControllers cs)
    (hready : ∀ d ∈ before, Ready p s cs d) (hf : ¬ Ready p s cs f) (husable : usable s cs f ≠ none)
    (hafter : ∀ d ∈ after, ¬ Ready p s cs d) : ProbesAll p s (before ++ f :: after) cs := by
  obtain ⟨s', disk', recorded', hat, hrecorded, hrun⟩ :=
    (ahead_start hds).readyRun hcs hready []
  obtain rfl : disk' = some f := by
    cases hat.rest
    rfl
  obtain ⟨c, hc⟩ := Option.ne_none_iff_exists'.mp husable
  obtain ⟨⟨s'', status, hfails⟩, hlast⟩ := hat.fails recorded' hcs hc
    (fun hanswers => hf ⟨c, hc, hanswers⟩) (Nat.lt_succ_self cs.length)
  obtain ⟨hprobe, hvisits⟩ := hrun (cs.length + 1 + 1) (by omega)
  refine ⟨_, s'', status, recorded', hprobe.trans hfails, ?_, fun d hd hdready => ?_⟩
  · rw [storageVisits, hvisits, hlast]
    refine (Chain.nodup hds).sublist (List.Sublist.append_left ?_ before)
    exact List.singleton_sublist.mpr List.mem_cons_self
  · rcases List.mem_append.mp hd with hd | hd
    · simp [hrecorded, hd]
    · rcases List.mem_cons.mp hd with rfl | hd
      · exact absurd hdready hf
      · exact absurd hdready (hafter d hd)

theorem not_left_out (hds : s.HasDisks (before ++ f :: after)) (hcs : s.HasControllers cs)
    (hready : ∀ d ∈ before, Ready p s cs d) (hf : ¬ Ready p s cs f)
    (h : ProbesAll p s (before ++ f :: after) cs) :
    usable s cs f ≠ none ∧ ∀ d ∈ after, ¬ Ready p s cs d := by
  obtain ⟨fuel, s', status, recorded, hprobe, -, hall⟩ := h
  obtain ⟨s₁, disk₁, recorded₁, hat, hrecorded, hrun⟩ :=
    (ahead_start hds).readyRun hcs hready []
  obtain rfl : disk₁ = some f := by
    cases hat.rest
    rfl
  -- The same probe, with fuel to spare behind the disks that are ready.
  have hmore := storageProbeFrom_add hprobe (cs.length + 1 + 1 + before.length)
  rw [show fuel + (cs.length + 1 + 1 + before.length) =
    fuel + cs.length + 1 + 1 + before.length by omega] at hmore
  rw [(hrun (fuel + cs.length + 1 + 1) (by omega)).1] at hmore
  cases hc : usable s cs f with
  | none =>
    rw [hat.stuck hcs hc] at hmore
    cases hmore
  | some c =>
    refine ⟨Option.some_ne_none c, fun d hd hdready => ?_⟩
    obtain ⟨⟨s₂, status₂, hfails⟩, -⟩ := hat.fails recorded₁ hcs hc
      (fun hanswers => hf ⟨c, hc, hanswers⟩) (show cs.length < fuel + cs.length + 1 by omega)
    rw [hfails] at hmore
    obtain rfl : recorded₁ = recorded :=
      congrArg (fun r => r.2.2) (Option.some.inj hmore)
    have hmem := hall d (by simp [hd]) hdready
    have hbefore : d ∈ before := by simpa [hrecorded] using hmem
    exact (List.nodup_append.mp (Chain.nodup hds)).2.2 d hbefore d
      (List.mem_cons_of_mem _ hd) rfl

/-- **When the probe ends.** It returns and leaves no disk out if the first disk that is not ready,
if there is one, fails by its `get_info` and has no disk after it that is ready, and only then. -/
theorem blStorageProbe_ends_iff (p : Probing) (s : Registry) (ds cs : List Nat)
    (hds : s.HasDisks ds) (hcs : s.HasControllers cs) :
    ProbesAll p s ds cs ↔ NoneLeftOut p s ds cs := by
  constructor
  · rintro h before f after rfl hready hf
    exact not_left_out hds hcs hready hf h
  · intro h
    rcases exists_first_not_ready p s cs ds with hall | ⟨before, f, after, rfl, hready, hf⟩
    · exact probesAll_of_ready hds hcs hall
    · obtain ⟨husable, hafter⟩ := h before f after rfl hready hf
      exact probesAll_of_fails hds hcs hready hf husable hafter

/-- Every disk answers, and no handler knows a table. -/
def bareProbing : Probing :=
  ⟨⟨fun _ => true, fun _ => .success, fun _ => 0⟩, fun _ _ => 0, fun _ => (.success, 512, 0), []⟩

def loneDisk (controller : Option Nat) : Registry :=
  { Registry.start ⟨0, fun _ _ => 0, fun _ => false, 1, 0, []⟩
      (fun _ => ⟨.usbDrive, 0, 0, none, controller, none, none⟩) (fun _ => ⟨pataFunctions, none⟩)
      (fun _ => ⟨⟨0, 0⟩, none⟩) with
    blStorageDevices := some 0 }

theorem blStorageProbe_ends_lone : ProbesAll bareProbing (loneDisk (some 1)) [0] [] := by
  refine (blStorageProbe_ends_iff bareProbing (loneDisk (some 1)) [0] [] (.cons (.nil none))
    (.nil none)).mpr fun before f after hsplit _ hf => absurd ?_ hf
  exact ⟨1, rfl, fun _ => rfl⟩

theorem loneDisk_not_ended : ¬ ∀ (p : Probing) (s : Registry) (ds cs : List Nat),
    s.HasDisks ds → s.HasControllers cs → ProbesAll p s ds cs := by
  intro h
  have hds : (loneDisk none).HasDisks ([] ++ 0 :: []) := .cons (.nil none)
  have hcs : (loneDisk none).HasControllers [] := .nil none
  refine (not_left_out hds hcs (by simp) ?_ (h bareProbing _ _ _ hds hcs)).1 rfl
  rintro ⟨c, hc, -⟩
  cases hc

end BootLoader.Disks
