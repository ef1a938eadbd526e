import BootLoader.Ehci.Transfer

/-!
# The pool of the EHCI driver

Descriptors come back on one way out of a control transfer: the controller reaches the last of them
at a poll. On the others they stay in use, and so do those of memory that looks used at the start.
-/

namespace BootLoader.Ehci

open DescriptorPool Usb
open Uhci (BlUsbSpeed)

/-- The overlay is not active, and links to no descriptor of the pool. -/
def BlEhciQh.Idle (qh : BlEhciQh) : Prop :=
  qh.token &&& activeBit = 0 ∧ (qh.nextQtd.terminate = true ∨ qh.nextQtd.qtd = none)

/-- Nothing is in use, and no queue head leads the controller to a descriptor. -/
structure Conserved (ehci : BlEhciController) : Prop where
  free : ∀ i < blEhciNumQtds, (ehci.qtds i).used = false
  idle : ∀ q < blEhciNumQhs, (ehci.qhs q).Idle

def freeQtds (ehci : BlEhciController) : Nat :=
  (List.range blEhciNumQtds).countP fun i => !(ehci.qtds i).used

theorem Conserved.count {ehci : BlEhciController} (h : Conserved ehci) : freeQtds ehci = 256 := by
  unfold freeQtds
  rw [List.countP_eq_length.mpr fun i hi => by simp [h.free i (List.mem_range.mp hi)],
    List.length_range]
  rfl

structure Transfer where
  hw : Hardware
  packetSize : Nat
  address : BitVec 32
  speed : BlUsbSpeed
  setup : BlUsbSetupData
  length : Int

def Transfer.run (t : Transfer) (ehci : BlEhciController) : Option BlEhciController :=
  (blEhciControlTransfer t.hw ehci t.packetSize t.address t.speed t.setup t.length).map Prod.fst

/-! ## When a transfer gives back what it took -/

def Transfer.packet (t : Transfer) : Nat := if t.packetSize = 0 then 8 else t.packetSize

/-- A descriptor for each stage, and one for each packet. -/
def Transfer.qtds (t : Transfer) : Nat := packetCount t.packet t.length.toNat + 2

/-- There are enough descriptors, and no packet is too long for one. -/
structure Transfer.Fits (t : Transfer) : Prop where
  qtds : t.qtds ≤ blEhciNumQtds
  buffer : min t.length.toNat t.packet ≤ maxBufferSize

/-- At this poll the controller is through with the descriptors up to `last`. -/
structure Hardware.DoneAt (hw : Hardware) (last n : Nat) : Prop where
  running : hw.token n &&& haltedBit = 0
  inactive : hw.token n &&& activeBit = 0
  next : hw.nextQtd n = blEhciQtdLinkT
  current : hw.currentQtd n = some last

/-- At one of the `left` polls from `n` on it is through, and at none before that it has halted. -/
def Hardware.CompletesFrom (hw : Hardware) (last n left : Nat) : Prop :=
  ∃ m, n ≤ m ∧ m < n + left ∧ hw.DoneAt last m ∧ ∀ k, n ≤ k → k < m → hw.token k &&& haltedBit = 0

/-- There is no queue head for the address; or the descriptors suffice and the controller reaches
the last of them at one of the 99 polls. -/
def Transfer.Ok (t : Transfer) (ehci : BlEhciController) : Prop :=
  controlQh ehci t.address 0 = none ∨
    t.Fits ∧ t.hw.CompletesFrom (t.qtds - 1) 0 99

variable {ehci : BlEhciController} {t : Transfer} {qtds : Pool BlEhciQtd} {hw : Hardware}
  {q last : Nat}

/-! ## Taking the descriptors -/

def setupQtd : BlEhciQtd := initializedQtd (some ⟨.setup, 0⟩) 8 false .tokenSetup

def packetQtd (pid : BlUsbPid) (off size : Nat) (toggle : Bool) : BlEhciQtd :=
  initializedQtd (some ⟨.data, off⟩) size toggle pid

/-- Without data the direction is fixed. -/
def statusQtd (setup : BlUsbSetupData) (length : Int) : BlEhciQtd :=
  initializedQtd none 0 true (if length = 0 then .tokenIn else blUsbDirectionPid setup)

/-- The stages with and without data are built alike. -/
theorem controlQtds_eq (packet : Nat) (setup : BlUsbSetupData) (length : Int)
    (qtds : Pool BlEhciQtd) :
    controlQtds packet setup length qtds =
      takeStages (fun p => take p blEhciNumQtds setupQtd)
        (fun p => take p blEhciNumQtds (statusQtd setup length))
        (fun off size toggle =>
          blEhciInitQtd (some ⟨.data, off⟩) size toggle (blUsbDirectionPid setup))
        packet packetFuel length.toNat qtds := by
  unfold controlQtds statusQtd
  split_ifs with hzero
  · subst hzero
    rfl
  · rfl

theorem inits_packet (pid : BlUsbPid) (off size : Nat) (toggle : Bool) :
    Inits blEhciNumQtds (blEhciInitQtd (some ⟨.data, off⟩) size toggle pid)
      (packetQtd pid off size toggle) := by
  intro p r hr
  unfold blEhciInitQtd at hr
  split_ifs at hr
  exact hr

theorem inits_take (b : BlEhciQtd) : Inits blEhciNumQtds (fun p => take p blEhciNumQtds b) b :=
  fun _ _ hr => hr

theorem Transfer.packet_pos (t : Transfer) : 0 < t.packet := by
  unfold Transfer.packet
  split_ifs <;> omega

/-- The first packet is the longest. -/
theorem controlQtds_buffer (h : (controlQtds t.packet t.setup t.length qtds).2 ≠ none) :
    min t.length.toNat t.packet ≤ maxBufferSize := by
  rcases Nat.eq_zero_or_pos t.length.toNat with hzero | hpos
  · rw [hzero]
    exact (Nat.min_le_left _ _).trans (Nat.zero_le _)
  · rw [controlQtds_eq] at h
    have hpackets := takeNext_some h
    rw [packetFuel, takePackets, if_pos hpos] at hpackets
    have hfirst := takePackets_some hpackets
    by_contra hlong
    refine hfirst ?_
    generalize takeNext _ (qtds, some (none, none)) = c
    obtain ⟨p, r⟩ := c
    cases r with
    | none => rfl
    | some ends => simp only [takeNext, blEhciInitQtd, if_pos (Nat.lt_of_not_le hlong)]

theorem controlQtds_some_iff (hfree : ∀ i < blEhciNumQtds, (qtds i).used = false) :
    (controlQtds t.packet t.setup t.length qtds).2 ≠ none ↔ t.Fits := by
  constructor
  · intro h
    refine ⟨?_, controlQtds_buffer h⟩
    rw [controlQtds_eq] at h
    obtain ⟨is, cs, toggle, hcut, -, hbuilt⟩ :=
      takeStages_spec (inits_take _) (fun _ _ _ => inits_packet _ _ _ _) (inits_take _) h
    have hlength := hbuilt.length_bodies
    have hle := hbuilt.length_le
    rw [List.length_cons, List.length_append, List.length_singleton,
      hcut.length_eq t.packet_pos] at hlength
    unfold Transfer.qtds
    omega
  · rintro ⟨hqtds, hbuffer⟩
    have hshort : ∀ off size toggle, size ≤ min t.length.toNat t.packet →
        blEhciInitQtd (some ⟨.data, off⟩) size toggle (blUsbDirectionPid t.setup) = fun p =>
          take p blEhciNumQtds (packetQtd (blUsbDirectionPid t.setup) off size toggle) := by
      intro off size toggle hsize
      funext p
      exact if_neg (Nat.not_lt.mpr (hsize.trans hbuffer))
    rw [controlQtds_eq, takeStages, takePackets_congr hshort]
    exact takeStages_exists hfree t.packet_pos hqtds (Nat.lt_succ_self _) _ _ _

/-- A chain that is complete starts and ends where it should, and can be released. -/
theorem controlQtds_chain {ends : Option Nat × Option Nat}
    (hfree : ∀ i < blEhciNumQtds, (qtds i).used = false)
    (hsome : (controlQtds t.packet t.setup t.length qtds).2 = some ends) :
    ∃ td released, ends.1 = some td ∧ ends.2 = some (t.qtds - 1) ∧
      release (controlQtds t.packet t.setup t.length qtds).1 blEhciNumQtds td = some released ∧
      ∀ i < blEhciNumQtds, (released i).used = false := by
  have hinits := fun off size toggle =>
    inits_packet (blUsbDirectionPid t.setup) off size toggle
  rw [controlQtds_eq] at hsome ⊢
  have hlast := takeStages_last hfree t.packet_pos (inits_take _) hinits (inits_take _) hsome
  obtain ⟨is, cs, toggle, -, hends, hbuilt⟩ := takeStages_spec (inits_take _) hinits
    (inits_take _) (hsome ▸ Option.some_ne_none ends)
  obtain rfl : ends = (is.head?, is.getLast?) := Option.some.inj (hsome.symm.trans hends)
  have hlength := hbuilt.length_bodies
  cases is with
  | nil => simp at hlength
  | cons td is =>
    obtain ⟨released, hrelease, hused⟩ := hbuilt.release hbuilt.length_le rfl
    refine ⟨td, released, rfl, hlast, hrelease, fun i hi => ?_⟩
    rw [hused i, hfree i hi]

/-- The descriptor of the setup stage is in use, whatever becomes of the others. -/
theorem controlQtds_leaks (packet : Nat) (setup : BlUsbSetupData) (length : Int)
    (hfree : ∀ i < blEhciNumQtds, (qtds i).used = false) :
    ∃ i < blEhciNumQtds, ((controlQtds packet setup length qtds).1 i).used = true := by
  have hsome := (Built.nil blEhciNumQtds qtds).exists_take hfree (by decide) setupQtd
  obtain ⟨⟨p, j⟩, htake⟩ := Option.ne_none_iff_exists'.mp hsome
  obtain ⟨hj, -, rfl⟩ := take_spec htake
  refine ⟨j, hj, ?_⟩
  rw [controlQtds_eq, takeStages]
  refine takeNext_used (inits_take _) (takePackets_used (fun _ _ _ => inits_packet _ _ _ _) ?_)
  simp [takeNext, htake, link]

/-! ## The end of a transfer -/

theorem Hardware.doneAt_iff {qh : BlEhciQh} (hlast : qh.lastQtd = some last) (n : Nat) :
    blEhciTransferFinished (hw.advance n qh) = .success ↔ hw.DoneAt last n := by
  unfold blEhciTransferFinished Hardware.advance
  dsimp only
  rw [hlast]
  constructor
  · intro h
    split_ifs at h with hhalted hdone
    exact ⟨not_not.mp hhalted, hdone.1, hdone.2.1, hdone.2.2.symm⟩
  · rintro ⟨hrunning, hinactive, hnext, hcurrent⟩
    rw [if_neg (not_not.mpr hrunning), if_pos ⟨hinactive, hnext, hcurrent.symm⟩]

theorem Hardware.halted_iff (qh : BlEhciQh) (n : Nat) :
    blEhciTransferFinished (hw.advance n qh) = .usbShouldCheckStatus ↔
      hw.token n &&& haltedBit ≠ 0 := by
  unfold blEhciTransferFinished Hardware.advance
  dsimp only
  split_ifs <;> simp_all

theorem Hardware.CompletesFrom.pos {n left : Nat} (h : hw.CompletesFrom last n left) :
    0 < left := by
  obtain ⟨m, hle, hlt, -, -⟩ := h
  omega

theorem Hardware.completesFrom_succ {n left : Nat} (hdone : ¬ hw.DoneAt last n) :
    hw.CompletesFrom last n (left + 1) ↔
      hw.token n &&& haltedBit = 0 ∧ hw.CompletesFrom last (n + 1) left := by
  constructor
  · rintro ⟨m, hle, hlt, hm, hbefore⟩
    have hne : n ≠ m := fun heq => hdone (heq ▸ hm)
    exact ⟨hbefore n le_rfl (by omega), m, by omega, by omega, hm,
      fun k hk hk' => hbefore k (by omega) hk'⟩
  · rintro ⟨hrunning, m, hle, hlt, hm, hbefore⟩
    refine ⟨m, by omega, by omega, hm, fun k hk hk' => ?_⟩
    rcases Nat.eq_or_lt_of_le hk with rfl | hk
    · exact hrunning
    · exact hbefore k hk hk'

/-- The descriptors are released if the transfer completes, and left as they are if not. -/
structure Polled (hw : Hardware) (ehci : BlEhciController) (q last n left : Nat)
    (released : Pool BlEhciQtd) (ehci' : BlEhciController) : Prop where
  done : hw.CompletesFrom last n left → ehci'.qtds = released ∧ (ehci'.qhs q).Idle
  failed : ¬ hw.CompletesFrom last n left → ehci'.qtds = ehci.qtds
  others : ∀ k, k ≠ q → ehci'.qhs k = ehci.qhs k

theorem blEhciResetQh_idle (qh : BlEhciQh) : (blEhciResetQh qh).Idle :=
  ⟨(by decide : ((0 &&& ~~~activeBit) ||| haltedBit) &&& activeBit = 0), .inr rfl⟩

theorem blEhciFreeQtdList_eq {td : Nat} {released : Pool BlEhciQtd}
    (hfirst : (ehci.qhs q).firstQtd = some td)
    (hrelease : release ehci.qtds blEhciNumQtds td = some released) :
    blEhciFreeQtdList ehci q = some ⟨released,
      Function.update ehci.qhs q (blEhciResetQh (ehci.qhs q))⟩ := by
  have hsame : (blEhciResetQh (ehci.qhs q)).firstQtd = some td := hfirst
  simp [blEhciFreeQtdList, BlEhciController.setQh, hsame, hrelease]

theorem pollTransfer_spec {td : Nat} {released : Pool BlEhciQtd} (left n : Nat)
    (hfirst : (ehci.qhs q).firstQtd = some td) (hlast : (ehci.qhs q).lastQtd = some last)
    (hrelease : release ehci.qtds blEhciNumQtds td = some released) :
    ∃ ehci' status, pollTransfer hw q left n ehci = some (ehci', status) ∧
      Polled hw ehci q last n left released ehci' := by
  induction left generalizing n ehci with
  | zero =>
    exact ⟨ehci, _, rfl, fun h => absurd h.pos (Nat.lt_irrefl 0), fun _ => rfl, fun _ _ => rfl⟩
  | succ left ih =>
    rw [pollTransfer]
    have hself : (ehci.setQh q (hw.advance n (ehci.qhs q))).qhs q = hw.advance n (ehci.qhs q) :=
      Function.update_self ..
    have hothers : ∀ k, k ≠ q →
        (ehci.setQh q (hw.advance n (ehci.qhs q))).qhs k = ehci.qhs k :=
      fun k hk => Function.update_of_ne hk ..
    have hqtds : (ehci.setQh q (hw.advance n (ehci.qhs q))).qtds = ehci.qtds := rfl
    generalize ehci.setQh q (hw.advance n (ehci.qhs q)) = ehci₁ at hself hothers hqtds ⊢
    have hfirst₁ : (ehci₁.qhs q).firstQtd = some td := hself ▸ hfirst
    have hlast₁ : (ehci₁.qhs q).lastQtd = some last := hself ▸ hlast
    have hrelease₁ : release ehci₁.qtds blEhciNumQtds td = some released := hqtds ▸ hrelease
    rw [hself]
    by_cases hdone : hw.DoneAt last n
    · rw [if_pos ((Hardware.doneAt_iff hlast n).mpr hdone), blEhciFreeQtdList_eq hfirst₁ hrelease₁]
      have hcompletes : hw.CompletesFrom last n (left + 1) :=
        ⟨n, le_rfl, by omega, hdone, fun k hk hk' => absurd hk' (by omega)⟩
      refine ⟨_, _, rfl, fun _ => ⟨rfl, ?_⟩, fun h => absurd hcompletes h, fun k hk => ?_⟩
      · simp only [Function.update_self]
        exact blEhciResetQh_idle _
      · simp only [Function.update_of_ne hk]
        exact hothers k hk
    · rw [if_neg (mt (Hardware.doneAt_iff hlast n).mp hdone)]
      by_cases hhalted : hw.token n &&& haltedBit = 0
      · rw [if_neg fun h => (Hardware.halted_iff _ n).mp h hhalted]
        obtain ⟨ehci', status, hrun, hpolled⟩ := ih (n + 1) hfirst₁ hlast₁ hrelease₁
        refine ⟨ehci', status, hrun, fun h => ?_, fun h => ?_, fun k hk => ?_⟩
        · exact hpolled.done ((Hardware.completesFrom_succ hdone).mp h).2
        · rw [← hqtds]
          exact hpolled.failed fun h' => h ((Hardware.completesFrom_succ hdone).mpr ⟨hhalted, h'⟩)
        · exact (hpolled.others k hk).trans (hothers k hk)
      · rw [if_pos ((Hardware.halted_iff _ n).mpr hhalted)]
        refine ⟨_, _, rfl, fun h => ?_, fun _ => hqtds, hothers⟩
        exact absurd ((Hardware.completesFrom_succ hdone).mp h).1 hhalted

/-! ## One transfer -/

/-- The queue heads are as idle as they were, and the descriptors are the same. -/
theorem blEhciInitQh_spec {ehci₁ : BlEhciController} {address endpoint : BitVec 32}
    {speed : BlUsbSpeed} {maxPacketLength : BitVec 32}
    (h : blEhciInitQh ehci address endpoint speed maxPacketLength = some (ehci₁, q)) :
    ehci₁.qtds = ehci.qtds ∧ ∀ k, (ehci.qhs k).Idle → (ehci₁.qhs k).Idle := by
  unfold blEhciInitQh at h
  obtain ⟨k, -, heq⟩ := Option.map_eq_some_iff.mp h
  dsimp only at heq
  split_ifs at heq
  · obtain ⟨rfl, -⟩ := Prod.mk.inj heq
    exact ⟨rfl, fun _ hidle => hidle⟩
  · obtain ⟨rfl, -⟩ := Prod.mk.inj heq
    refine ⟨rfl, fun j hidle => ?_⟩
    by_cases hj : j = k
    · subst hj
      simpa [BlEhciController.setQh, BlEhciQh.Idle] using hidle
    · simpa [BlEhciController.setQh, hj] using hidle

theorem startTransfer_spec (ehci : BlEhciController) (q td last : Nat) :
    let ehci' := startTransfer ehci q (some td) (some last)
    ehci'.qtds = ehci.qtds ∧ (ehci'.qhs q).firstQtd = some td ∧
      (ehci'.qhs q).lastQtd = some last ∧ ∀ k, k ≠ q → ehci'.qhs k = ehci.qhs k := by
  refine ⟨rfl, ?_, ?_, fun k hk => Function.update_of_ne hk ..⟩
  · simp [startTransfer, BlEhciController.setQh]
  · simp [startTransfer, BlEhciController.setQh]

theorem Conserved.not_of_used (h : ∃ i < blEhciNumQtds, (ehci.qtds i).used = true) :
    ¬ Conserved ehci := by
  rintro ⟨hfree, -⟩
  obtain ⟨i, hi, hused⟩ := h
  rw [hfree i hi] at hused
  contradiction

/-- A transfer returns, and conserves the pool if it is a good one and only then. -/
theorem Conserved.run (h : Conserved ehci) (t : Transfer) :
    ∃ ehci', t.run ehci = some ehci' ∧ (Conserved ehci' ↔ t.Ok ehci) := by
  unfold Transfer.run blEhciControlTransfer
  rw [← Transfer.packet]
  dsimp only
  cases hqh : blEhciInitQh ehci t.address 0 t.speed (BitVec.ofNat 32 t.packet) with
  | none =>
    have hnone : controlQh ehci t.address 0 = none := by
      rwa [blEhciInitQh, Option.map_eq_none_iff] at hqh
    exact ⟨ehci, rfl, iff_of_true h (.inl hnone)⟩
  | some out =>
    obtain ⟨ehci₁, q⟩ := out
    have hsome : controlQh ehci t.address 0 ≠ none := by
      intro hnone
      rw [blEhciInitQh, hnone] at hqh
      cases hqh
    have hok : t.Ok ehci ↔ t.Fits ∧ t.hw.CompletesFrom (t.qtds - 1) 0 99 :=
      or_iff_right hsome
    obtain ⟨hqtds, hidle⟩ := blEhciInitQh_spec hqh
    have hfree : ∀ i < blEhciNumQtds, (ehci₁.qtds i).used = false := hqtds ▸ h.free
    have hleaks := controlQtds_leaks t.packet t.setup t.length hfree
    have hfits := controlQtds_some_iff (t := t) hfree
    rw [hok]
    dsimp only
    cases hbuild : controlQtds t.packet t.setup t.length ehci₁.qtds with
    | mk qtds ends =>
    rw [hbuild] at hleaks hfits
    cases ends with
    | none =>
      have hlost : ¬ Conserved { ehci₁ with qtds } := Conserved.not_of_used hleaks
      refine ⟨_, rfl, iff_of_false hlost fun hgood => ?_⟩
      exact hfits.mpr hgood.1 rfl
    | some ends =>
      have hends : (controlQtds t.packet t.setup t.length ehci₁.qtds).2 = some ends :=
        congrArg Prod.snd hbuild
      obtain ⟨td, released, hhead, hlast, hrelease, hused⟩ := controlQtds_chain hfree hends
      rw [hbuild] at hrelease
      obtain ⟨head, last⟩ := ends
      obtain rfl : head = some td := hhead
      obtain rfl : last = some (t.qtds - 1) := hlast
      dsimp only
      have hstart := startTransfer_spec { ehci₁ with qtds } q td (t.qtds - 1)
      generalize startTransfer { ehci₁ with qtds } q (some td) (some (t.qtds - 1)) = ehci₂
        at hstart ⊢
      obtain ⟨hqtds₂, hfirst, hlast, hothers⟩ := hstart
      obtain ⟨ehci', status, hrun, hpolled⟩ :=
        pollTransfer_spec 99 0 hfirst hlast (by rw [hqtds₂]; exact hrelease)
      refine ⟨ehci', congrArg (Option.map Prod.fst) hrun, ?_⟩
      rw [and_iff_right (hfits.mp (by simp))]
      by_cases hdone : t.hw.CompletesFrom (t.qtds - 1) 0 99
      · obtain ⟨hreleased, hidle'⟩ := hpolled.done hdone
        refine iff_of_true ⟨hreleased ▸ hused, fun k hk => ?_⟩ hdone
        by_cases hkq : k = q
        · exact hkq ▸ hidle'
        · rw [hpolled.others k hkq, hothers k hkq]
          exact hidle k (h.idle k hk)
      · refine iff_of_false (Conserved.not_of_used ?_) hdone
        rw [hpolled.failed hdone, hqtds₂]
        exact hleaks

/-! ## Whole runs -/

/-- The pool is conserved before the first transfer and whenever one returns, and each returns. -/
def AlwaysConserved : List Transfer → BlEhciController → Prop
  | [], ehci => Conserved ehci
  | t :: ts, ehci => Conserved ehci ∧ ∃ ehci', t.run ehci = some ehci' ∧ AlwaysConserved ts ehci'

/-- Every transfer of the run is a good one in the state in which it is made. -/
def StepsOk : List Transfer → BlEhciController → Prop
  | [], _ => True
  | t :: ts, ehci => t.Ok ehci ∧ ∀ ehci', t.run ehci = some ehci' → StepsOk ts ehci'

theorem AlwaysConserved.start {ts : List Transfer} (h : AlwaysConserved ts ehci) :
    Conserved ehci := by
  cases ts with
  | nil => exact h
  | cons t ts => exact h.1

theorem Conserved.always_iff (h : Conserved ehci) (ts : List Transfer) :
    AlwaysConserved ts ehci ↔ StepsOk ts ehci := by
  induction ts generalizing ehci with
  | nil => exact iff_of_true h trivial
  | cons t ts ih =>
    obtain ⟨ehci₁, hrun, hiff⟩ := h.run t
    have honly : ∀ {ehci'}, t.run ehci = some ehci' → ehci' = ehci₁ :=
      fun hrun' => Option.some.inj (hrun'.symm.trans hrun)
    constructor
    · rintro ⟨-, ehci', hrun', hrest⟩
      obtain rfl := honly hrun'
      refine ⟨hiff.mp hrest.start, fun ehci'' hrun'' => ?_⟩
      rw [honly hrun'']
      exact (ih hrest.start).mp hrest
    · rintro ⟨hok, hrest⟩
      exact ⟨h, ehci₁, hrun, (ih (hiff.mpr hok)).mpr (hrest ehci₁ hrun)⟩

theorem conserved_init_iff {before : BlEhciController} :
    Conserved (blEhciInitDataStructures before) ↔
      ∀ i < blEhciNumQtds, (before.qtds i).used = false := by
  have hused : ∀ i, ((blEhciInitDataStructures before).qtds i).used = (before.qtds i).used := by
    intro i
    unfold blEhciInitDataStructures
    dsimp only
    split_ifs <;> rfl
  constructor
  · exact fun h i hi => (hused i).symm.trans (h.free i hi)
  · refine fun h => ⟨fun i hi => (hused i).trans (h i hi), fun q hq => ?_⟩
    simp only [blEhciInitDataStructures, if_pos hq]
    exact blEhciResetQh_idle _

/-- **When the pool is conserved** in every state of a run: the memory that was there before looked
unused at every descriptor, and every transfer completes or takes nothing. -/
theorem qtd_pool_conserved_iff (before : BlEhciController) (ts : List Transfer) :
    AlwaysConserved ts (blEhciInitDataStructures before) ↔
      (∀ i < blEhciNumQtds, (before.qtds i).used = false) ∧
        StepsOk ts (blEhciInitDataStructures before) := by
  constructor
  · exact fun h => ⟨conserved_init_iff.mp h.start, (h.start.always_iff ts).mp h⟩
  · exact fun ⟨hfree, hok⟩ => ((conserved_init_iff.mpr hfree).always_iff ts).mpr hok

def zeroedHeap : BlEhciController where
  qtds _ := ⟨false, none, ⟨0, none⟩⟩
  qhs _ := ⟨0, none, ⟨false, none⟩, 0, false, none, none⟩

/-- No device answers, and the controller stays at the first descriptor. -/
def silent : Hardware := ⟨fun _ => activeBit, fun _ => ⟨false, some 1⟩, fun _ => some 0⟩

def setAddress : Transfer := ⟨silent, 8, 0, .high, blUsbSetupDataFill 0 5 1 0 0, 0⟩

theorem setAddress_not_conserved :
    ¬ ∀ before ts, AlwaysConserved ts (blEhciInitDataStructures before) := by
  intro h
  obtain ⟨-, ehci, hrun, hconserved⟩ := h zeroedHeap [setAddress]
  have hleak : (setAddress.run (blEhciInitDataStructures zeroedHeap)).map freeQtds = some 254 := by
    decide +kernel
  have hcount := Conserved.count hconserved
  rw [hrun, Option.map_some, hcount] at hleak
  exact absurd hleak (by decide)

end BootLoader.Ehci
