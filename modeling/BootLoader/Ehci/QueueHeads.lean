import BootLoader.Ehci.Pool
import BootLoader.Lib.Runs

/-!
# The queue heads of the EHCI driver

A queue head is found by its characteristics and stays set up as its first transfer needed it. What
was in memory before stays in the characteristics as well.
-/

namespace BootLoader.Ehci.QueueHeads

open Usb
open Uhci (BlUsbSpeed)

/-- Where the allocator has put `qh_head` and the queue heads. -/
structure Layout where
  head : Nat
  qhs : Nat
  head_aligned : head % 32 = 0
  qhs_aligned : qhs % 32 = 0
  apart : ∀ q < blEhciNumQhs, qhs + 96 * q ≠ head

def Layout.qh (l : Layout) (q : Nat) : Nat := l.qhs + 96 * q

/-- The controller, and the links of `qh_head` and of the queue heads. -/
structure Schedule where
  ehci : BlEhciController
  headLink : Nat
  links : Nat → Nat

def qhLinkT : Nat := 1
def qhLinkTypeQh : Nat := 2

def blEhciLinkQh (l : Layout) (s : Schedule) (q : Nat) : Schedule :=
  { s with
    links := Function.update s.links q (s.headLink ||| qhLinkTypeQh)
    headLink := l.qh q ||| qhLinkTypeQh }

def blEhciInitQh (l : Layout) (s : Schedule) (t : Transfer) : Option (Schedule × Nat) :=
  (Ehci.blEhciInitQh s.ehci t.address 0 t.speed (BitVec.ofNat 32 t.packet)).map fun (ehci, q) =>
    if (s.ehci.qhs q).used then ({ s with ehci }, q) else (blEhciLinkQh l { s with ehci } q, q)

/-- Nothing is linked once the queue head is taken. -/
def blEhciControlTransfer (l : Layout) (s : Schedule) (t : Transfer) : Option Schedule :=
  let linked := match blEhciInitQh l s t with
    | none => s
    | some (s, _) => s
  (t.run s.ehci).map fun ehci => { linked with ehci }

def blEhciInitDataStructures (l : Layout) (before : BlEhciController) : Schedule where
  ehci := Ehci.blEhciInitDataStructures before
  headLink := l.head ||| qhLinkTypeQh ||| qhLinkT
  links q := l.qh q ||| qhLinkTypeQh ||| qhLinkT

/-! ## What the controller reads -/

def speedField : BlUsbSpeed → Option (BitVec 2)
  | .full => some 0
  | .low => some 1
  | .high => some 2
  | _ => none

/-- The field of the packet size has a bit more than `BL_EHCI_QH_CHARS_MAX_PACKET_LEN`. -/
structure Decodes (chars : BitVec 32) (t : Transfer) : Prop where
  address : (chars.extractLsb' 0 7).toNat = t.address.toNat
  endpoint : chars.extractLsb' 8 4 = 0
  speed : speedField t.speed = some (chars.extractLsb' 12 2)
  packet : (chars.extractLsb' 16 11).toNat = t.packet

/-- From a link on, the queue heads in this order, and only then `qh_head`. -/
def Leads (l : Layout) (links : Nat → Nat) : Nat → List Nat → Prop
  | link, [] => link / 32 * 32 = l.head
  | link, q :: qs =>
    link / 32 * 32 = l.qh q ∧ l.qh q ≠ l.head ∧ Leads l links (links q) qs

/-- The asynchronous list is a cycle through the queue heads in use. -/
def Cycle (l : Layout) (s : Schedule) : Prop :=
  ∃ qs : List Nat, qs.Nodup ∧ (∀ q, q ∈ qs ↔ q < blEhciNumQhs ∧ (s.ehci.qhs q).used = true) ∧
    Leads l s.links s.headLink qs

/-! ## Runs -/

/-- `served` are the transfers so far, each with its queue head. -/
structure History where
  schedule : Schedule
  served : List (Transfer × Nat)

def step (l : Layout) (t : Transfer) (h : History) : Option History :=
  (blEhciControlTransfer l h.schedule t).map fun schedule =>
    ⟨schedule, match blEhciInitQh l h.schedule t with
      | none => h.served
      | some (_, q) => (t, q) :: h.served⟩

/-- The queue head is not one of another address, and describes the transfer. -/
def Right (l : Layout) (t : Transfer) (h : History) : Prop :=
  ∀ s q, blEhciInitQh l h.schedule t = some (s, q) →
    (∀ u ∈ h.served, u.2 = q → u.1.address = t.address) ∧ Decodes (s.ehci.qhs q).chars t ∧
      Cycle l s

def AlwaysRight (l : Layout) : List Transfer → History → Prop
  | [], h => Cycle l h.schedule
  | t :: ts, h => Cycle l h.schedule ∧ Right l t h ∧
    ∀ h', step l t h = some h' → AlwaysRight l ts h'

/-- No field has a bit already that the transfer does not need. The mask of the packet size leaves
out its bit 10. -/
structure Fits (chars : BitVec 32) (t : Transfer) : Prop where
  address : t.address.toNat < 128 ∧
    chars.extractLsb' 0 7 &&& ~~~BitVec.ofNat 7 t.address.toNat = 0
  endpoint : chars.extractLsb' 8 4 = 0
  speed : ∃ field, speedField t.speed = some field ∧ chars.extractLsb' 12 2 &&& ~~~field = 0
  packet : t.packet < 2048 ∧ chars.extractLsb' 16 11 &&& ~~~BitVec.ofNat 11 t.packet = 0
  masked : 1024 ≤ t.packet → chars.getLsbD 26 = true

/-- A queue head that is not in use must fit; one in use must have had the same transfers. -/
def StepOk (t : Transfer) (h : History) : Prop :=
  ∀ q, controlQh h.schedule.ehci t.address 0 = some q →
    if (h.schedule.ehci.qhs q).used then
      t.address.toNat < 128 ∧
        ∀ u ∈ h.served, u.2 = q → u.1.speed = t.speed ∧ u.1.packet = t.packet
    else Fits (h.schedule.ehci.qhs q).chars t

variable {l : Layout} {s s' : Schedule} {t : Transfer} {h h' : History} {q : Nat}
  {chars : BitVec 32} {ehci ehci' : BlEhciController} {hw : Hardware}

/-! ## The characteristics -/

theorem or_eq_right_iff {w : Nat} (y x : BitVec w) : y ||| x = x ↔ y &&& ~~~x = 0 := by
  constructor
  · intro h
    rw [← h]
    ext i hi
    simp
    cases y[i] <;> simp
  · intro h
    ext i hi
    have hbit : (y &&& ~~~x)[i] = (0 : BitVec w)[i] := by rw [h]
    simp at hbit ⊢
    tauto

theorem shiftLeft_field (x : BitVec 32) {start len : Nat} (h : start + len ≤ 16) :
    (x <<< 16).extractLsb' start len = 0 := by
  ext i hi
  simp [show start + i < 16 by omega]

theorem setQh_fields {field : BitVec 2} {speed : BlUsbSpeed} (chars address packet : BitVec 32)
    (h : speedField speed = some field) :
    let chars' := blEhciSetQh chars address 0 speed packet
    chars'.extractLsb' 0 7 = chars.extractLsb' 0 7 ||| address.extractLsb' 0 7 ∧
      chars'.extractLsb' 8 4 = chars.extractLsb' 8 4 ∧
      chars'.extractLsb' 12 2 = chars.extractLsb' 12 2 ||| field ∧
      chars'.extractLsb' 16 11 = chars.extractLsb' 16 11 ||| packet.extractLsb' 0 11 &&& 0x3ff := by
  have hpacket : (packet <<< 16).extractLsb' 16 11 = packet.extractLsb' 0 11 := by
    ext i hi
    rw [BitVec.getElem_extractLsb', BitVec.getElem_extractLsb', BitVec.getLsbD_shiftLeft]
    simp [show 16 + i < 32 by omega]
  have hmask : ∀ x : BitVec 7, x &&& 0x7f#7 = x := by decide
  have hendpoint : blEhciMakeQhEndpoint 0#32 = 0#32 := by decide
  cases speed <;> simp only [speedField, Option.some.injEq, reduceCtorEq] at h <;> subst h <;>
    simp [blEhciSetQh, qhSpeed, BitVec.extractLsb'_or, BitVec.extractLsb'_and, blEhciMakeQhAddress,
      qhCharsAddress, hendpoint, hmask, hpacket, shiftLeft_field]

theorem toNat_eq_iff {w n : Nat} (x : BitVec w) :
    x.toNat = n ↔ n < 2 ^ w ∧ x = BitVec.ofNat w n := by
  rw [← BitVec.toNat_inj, BitVec.toNat_ofNat]
  constructor
  · rintro rfl
    exact ⟨x.isLt, (Nat.mod_eq_of_lt x.isLt).symm⟩
  · rintro ⟨hlt, heq⟩
    rw [heq, Nat.mod_eq_of_lt hlt]

/-- The same with the mask, which leaves out bit 10. -/
theorem or_masked_eq_iff (c m : BitVec 11) :
    c ||| m &&& 0x3ff = m ↔ c &&& ~~~m = 0 ∧ (m.getLsbD 10 = true → c.getLsbD 10 = true) := by
  have hmask : ∀ i < 11, (0x3ff : BitVec 11).getLsbD i = decide (i < 10) := by decide
  rw [← or_eq_right_iff]
  constructor
  · intro h
    refine ⟨?_, fun hbit => ?_⟩
    · rw [← h, ← BitVec.or_assoc, BitVec.or_self]
    · rw [← h] at hbit
      simpa using hbit
  · rintro ⟨h, hbit⟩
    apply BitVec.eq_of_getLsbD_eq
    intro i hi
    have hclean : (c ||| m).getLsbD i = m.getLsbD i := by rw [h]
    rw [BitVec.getLsbD_or] at hclean ⊢
    rw [BitVec.getLsbD_and, hmask i hi]
    rcases Nat.lt_or_ge i 10 with hlt | hge
    · rw [decide_eq_true hlt, Bool.and_true, hclean]
    · obtain rfl : i = 10 := by omega
      cases hm : m.getLsbD 10 with
      | false =>
        rw [hm, Bool.or_false] at hclean
        rw [hclean, Bool.false_and, Bool.or_false]
      | true => simp only [hbit hm, Bool.true_or]

theorem ofNat_getLsbD_ten {n : Nat} (h : n < 2048) :
    (BitVec.ofNat 11 n).getLsbD 10 = true ↔ 1024 ≤ n := by
  rw [BitVec.getLsbD_ofNat, Nat.testBit_eq_decide_div_mod_eq]
  simp
  omega

/-- What a queue head describes that was not in use before. -/
theorem decodes_setQh_iff :
    Decodes (blEhciSetQh chars t.address 0 t.speed (BitVec.ofNat 32 t.packet)) t ↔
      Fits chars t := by
  cases hspeed : speedField t.speed with
  | none =>
    refine iff_of_false (fun h => ?_) fun h => ?_
    · exact absurd (hspeed.symm.trans h.speed) (by simp)
    · obtain ⟨field, hfield, -⟩ := h.speed
      exact absurd (hspeed.symm.trans hfield) (by simp)
  | some field =>
    obtain ⟨haddress, hendpoint, hfield, hpacket⟩ :=
      setQh_fields chars t.address (BitVec.ofNat 32 t.packet) hspeed
    have haddressOf : t.address.extractLsb' 0 7 = BitVec.ofNat 7 t.address.toNat := by
      apply BitVec.eq_of_toNat_eq
      simp
    have hpacketOf : (BitVec.ofNat 32 t.packet).extractLsb' 0 11 = BitVec.ofNat 11 t.packet := by
      apply BitVec.eq_of_toNat_eq
      simp
    have hbit : (chars.extractLsb' 16 11).getLsbD 10 = chars.getLsbD 26 := by
      simp
    rw [haddressOf] at haddress
    rw [hpacketOf] at hpacket
    constructor
    · rintro ⟨h1, h2, h3, h4⟩
      rw [haddress, toNat_eq_iff, or_eq_right_iff] at h1
      rw [hendpoint] at h2
      rw [hspeed, hfield, Option.some_inj, eq_comm, or_eq_right_iff] at h3
      rw [hpacket, toNat_eq_iff, or_masked_eq_iff, hbit] at h4
      exact ⟨h1, h2, ⟨field, hspeed, h3⟩, ⟨h4.1, h4.2.1⟩,
        fun hbig => h4.2.2 ((ofNat_getLsbD_ten h4.1).mpr hbig)⟩
    · rintro ⟨h1, h2, ⟨field', hfield', h3⟩, h4, h5⟩
      obtain rfl : field' = field := Option.some.inj (hfield'.symm.trans hspeed)
      refine ⟨?_, hendpoint.trans h2, ?_, ?_⟩
      · rw [haddress, toNat_eq_iff, or_eq_right_iff]
        exact h1
      · rw [hspeed, hfield, (or_eq_right_iff _ _).mpr h3]
      · rw [hpacket, toNat_eq_iff, or_masked_eq_iff, hbit]
        exact ⟨h4.1, h4.2, fun hten => h5 ((ofNat_getLsbD_ten h4.1).mp hten)⟩

/-! ## One transfer -/

def Kept (ehci ehci' : BlEhciController) : Prop :=
  ∀ q, (ehci'.qhs q).chars = (ehci.qhs q).chars ∧ (ehci'.qhs q).used = (ehci.qhs q).used

theorem Kept.trans {ehci'' : BlEhciController} (h : Kept ehci ehci') (h' : Kept ehci' ehci'') :
    Kept ehci ehci'' :=
  fun q => ⟨(h' q).1.trans (h q).1, (h' q).2.trans (h q).2⟩

theorem setQh_kept {qh : BlEhciQh} (hchars : qh.chars = (ehci.qhs q).chars)
    (hused : qh.used = (ehci.qhs q).used) : Kept ehci (ehci.setQh q qh) := by
  intro k
  unfold BlEhciController.setQh
  by_cases hk : k = q
  · subst hk
    simp [hchars, hused]
  · simp [hk]

theorem blEhciFreeQtdList_kept (h : blEhciFreeQtdList ehci q = some ehci') : Kept ehci ehci' := by
  unfold blEhciFreeQtdList at h
  obtain ⟨qtd, -, hrelease⟩ := Option.bind_eq_some_iff.mp h
  obtain ⟨qtds, -, rfl⟩ := Option.map_eq_some_iff.mp hrelease
  exact setQh_kept rfl rfl

theorem pollTransfer_kept {status : BlStatus} (left n : Nat)
    (h : pollTransfer hw q left n ehci = some (ehci', status)) : Kept ehci ehci' := by
  induction left generalizing n ehci with
  | zero =>
    obtain ⟨rfl, -⟩ := Prod.mk.inj (Option.some.inj h)
    exact fun _ => ⟨rfl, rfl⟩
  | succ left ih =>
    have hadvance : Kept ehci (ehci.setQh q (hw.advance n (ehci.qhs q))) := setQh_kept rfl rfl
    unfold pollTransfer at h
    dsimp only at h
    split_ifs at h
    · obtain ⟨freed, hfree, heq⟩ := Option.map_eq_some_iff.mp h
      obtain ⟨rfl, -⟩ := Prod.mk.inj heq
      exact hadvance.trans (blEhciFreeQtdList_kept hfree)
    · obtain ⟨rfl, -⟩ := Prod.mk.inj (Option.some.inj h)
      exact hadvance
    · exact hadvance.trans (ih (n + 1) h)

theorem run_kept (h : t.run ehci = some ehci') :
    match Ehci.blEhciInitQh ehci t.address 0 t.speed (BitVec.ofNat 32 t.packet) with
    | none => ehci' = ehci
    | some (taken, _) => Kept taken ehci' := by
  unfold Transfer.run Ehci.blEhciControlTransfer at h
  rw [← Transfer.packet] at h
  obtain ⟨⟨ehci'', status⟩, hrun, rfl⟩ := Option.map_eq_some_iff.mp h
  dsimp only at hrun
  cases hqh : Ehci.blEhciInitQh ehci t.address 0 t.speed (BitVec.ofNat 32 t.packet) with
  | none =>
    rw [hqh] at hrun
    exact (Prod.mk.inj (Option.some.inj hrun)).1.symm
  | some taken =>
    obtain ⟨taken, q⟩ := taken
    rw [hqh] at hrun
    dsimp only at hrun
    cases hbuild : controlQtds t.packet t.setup t.length taken.qtds with
    | mk qtds ends =>
    rw [hbuild] at hrun
    cases ends with
    | none =>
      obtain ⟨rfl, -⟩ := Prod.mk.inj (Option.some.inj hrun)
      exact fun _ => ⟨rfl, rfl⟩
    | some ends =>
      have hstart : Kept taken (startTransfer { taken with qtds } q ends.1 ends.2) :=
        @setQh_kept _ { taken with qtds } _ rfl rfl
      exact hstart.trans (pollTransfer_kept 99 0 hrun)

/-! ## Taking a queue head -/

theorem controlQh_lt (h : controlQh ehci t.address 0 = some q) :
    q < blEhciNumQhs ∧ (q = 0 ↔ t.address = 0) := by
  unfold controlQh at h
  split_ifs at h with hzero
  · obtain rfl := Option.some.inj h
    exact ⟨by decide, iff_of_true rfl hzero.1⟩
  · have hmem := List.mem_of_find?_eq_some h
    rw [List.mem_range'_1] at hmem
    refine ⟨by simp only [blEhciNumQhs] at hmem ⊢; omega,
      iff_of_false (by omega) fun haddress => ?_⟩
    exact hzero ⟨haddress, rfl⟩

theorem addressField_toNat (x : BitVec 32) :
    (x &&& qhCharsAddress).toNat = (x.extractLsb' 0 7).toNat := by
  rw [BitVec.toNat_and, show qhCharsAddress.toNat = 2 ^ 7 - 1 from rfl,
    Nat.and_two_pow_sub_one_eq_mod, BitVec.extractLsb'_toNat, Nat.shiftRight_zero]

/-- A queue head above 0 has the address, or none. -/
theorem controlQh_address (h : controlQh ehci t.address 0 = some q) (hq : q ≠ 0)
    (hlt : t.address.toNat < 128) :
    ((ehci.qhs q).chars.extractLsb' 0 7).toNat = t.address.toNat ∨
      ((ehci.qhs q).chars.extractLsb' 0 7).toNat = 0 := by
  have hne : ¬(t.address = 0 ∧ (0 : BitVec 32) = 0) :=
    fun hzero => hq ((controlQh_lt h).2.mpr hzero.1)
  unfold controlQh at h
  rw [if_neg hne] at h
  have hfound := List.find?_some h
  rw [← addressField_toNat]
  rcases of_decide_eq_true hfound with hmatch | hfree
  · left
    rw [hmatch.1, blEhciMakeQhAddress, addressField_toNat, BitVec.extractLsb'_toNat,
      Nat.shiftRight_zero, Nat.mod_eq_of_lt hlt]
  · right
    rw [hfree.1]
    rfl

def setUp (ehci : BlEhciController) (t : Transfer) (q : Nat) : BlEhciController :=
  ehci.setQh q { ehci.qhs q with
    chars := blEhciSetQh (ehci.qhs q).chars t.address 0 t.speed (BitVec.ofNat 32 t.packet)
    used := true }

theorem blEhciInitQh_used (hqh : controlQh s.ehci t.address 0 = some q)
    (hused : (s.ehci.qhs q).used = true) : blEhciInitQh l s t = some (s, q) := by
  unfold blEhciInitQh Ehci.blEhciInitQh
  rw [hqh]
  simp [hused]

theorem blEhciInitQh_unused (hqh : controlQh s.ehci t.address 0 = some q)
    (hused : (s.ehci.qhs q).used = false) :
    blEhciInitQh l s t = some (blEhciLinkQh l { s with ehci := setUp s.ehci t q } q, q) := by
  unfold blEhciInitQh Ehci.blEhciInitQh
  rw [hqh]
  simp [hused, setUp]

theorem blEhciInitQh_none (hqh : controlQh s.ehci t.address 0 = none) :
    blEhciInitQh l s t = none := by
  unfold blEhciInitQh Ehci.blEhciInitQh
  rw [hqh]
  rfl

/-! ## The list -/

theorem link_or_type (x : Nat) : (x ||| qhLinkTypeQh) / 32 * 32 = x / 32 * 32 := by
  have hdiv := @Nat.or_div_two_pow x qhLinkTypeQh 5
  rw [show 2 ^ 5 = 32 from rfl, show qhLinkTypeQh / 32 = 0 from rfl, Nat.or_zero] at hdiv
  rw [hdiv]

theorem link_or_end (x : Nat) : (x ||| qhLinkT) / 32 * 32 = x / 32 * 32 := by
  have hdiv := @Nat.or_div_two_pow x qhLinkT 5
  rw [show 2 ^ 5 = 32 from rfl, show qhLinkT / 32 = 0 from rfl, Nat.or_zero] at hdiv
  rw [hdiv]

theorem Leads.congr {links links' : Nat → Nat} {link : Nat} {qs : List Nat}
    (h : Leads l links link qs) (hlinks : ∀ q ∈ qs, links' q = links q) :
    Leads l links' link qs := by
  induction qs generalizing link with
  | nil => exact h
  | cons q qs ih =>
    refine ⟨h.1, h.2.1, ?_⟩
    rw [hlinks q (by simp)]
    exact ih h.2.2 fun k hk => hlinks k (by simp [hk])

theorem Leads.of_target {links : Nat → Nat} {link link' : Nat} {qs : List Nat}
    (h : Leads l links link qs) (hlink : link' / 32 * 32 = link / 32 * 32) :
    Leads l links link' qs := by
  cases qs with
  | nil => exact hlink.trans h
  | cons q qs => exact ⟨hlink.trans h.1, h.2⟩

theorem Cycle.congr (h : Cycle l s) (hlinks : s'.links = s.links) (hhead : s'.headLink = s.headLink)
    (hused : ∀ q, (s'.ehci.qhs q).used = (s.ehci.qhs q).used) : Cycle l s' := by
  obtain ⟨qs, hnodup, hmem, hleads⟩ := h
  refine ⟨qs, hnodup, fun q => ?_, ?_⟩
  · rw [hused]
    exact hmem q
  · rw [hlinks, hhead]
    exact hleads

theorem qh_target (l : Layout) (q : Nat) : l.qh q / 32 * 32 = l.qh q := by
  have haligned := l.qhs_aligned
  unfold Layout.qh
  omega

theorem Cycle.link (h : Cycle l s) (hq : q < blEhciNumQhs) (hused : (s.ehci.qhs q).used = false) :
    Cycle l (blEhciLinkQh l { s with ehci := setUp s.ehci t q } q) := by
  obtain ⟨qs, hnodup, hmem, hleads⟩ := h
  have hnot : q ∉ qs := by
    intro hin
    rw [hmem, hused] at hin
    exact absurd hin.2 (by simp)
  refine ⟨q :: qs, List.nodup_cons.mpr ⟨hnot, hnodup⟩, fun k => ?_, ?_, l.apart q hq, ?_⟩
  · by_cases hk : k = q
    · subst hk
      simp [blEhciLinkQh, setUp, BlEhciController.setQh, hq]
    · simp [blEhciLinkQh, setUp, BlEhciController.setQh, hk, hmem]
  · exact (link_or_type _).trans (qh_target l q)
  · simp only [blEhciLinkQh, Function.update_self]
    refine (hleads.of_target (link_or_type _)).congr fun k hk => ?_
    refine Function.update_of_ne ?_ ..
    rintro rfl
    exact hnot hk

theorem init_cycle (l : Layout) (before : BlEhciController) :
    Cycle l (blEhciInitDataStructures l before) := by
  refine ⟨[], List.nodup_nil, fun q => ?_, ?_⟩
  · simp only [List.not_mem_nil, false_iff, blEhciInitDataStructures,
      Ehci.blEhciInitDataStructures]
    rintro ⟨hq, hused⟩
    rw [if_pos hq] at hused
    cases hused
  · have haligned := l.head_aligned
    exact ((link_or_end _).trans (link_or_type _)).trans (by omega)

/-! ## One step -/

/-- A queue head in use describes every transfer that it served. -/
structure Traced (l : Layout) (h : History) : Prop where
  decodes : ∀ u ∈ h.served, Decodes (h.schedule.ehci.qhs u.2).chars u.1
  zero : ∀ u ∈ h.served, u.2 = 0 ↔ u.1.address = 0
  used : ∀ q < blEhciNumQhs, (h.schedule.ehci.qhs q).used = true ↔ ∃ u ∈ h.served, u.2 = q
  cycle : Cycle l h.schedule

theorem Decodes.address_lt (h : Decodes chars t) : t.address.toNat < 128 :=
  h.address ▸ (chars.extractLsb' 0 7).isLt

theorem Decodes.of_same {u : Transfer} (h : Decodes chars u) (haddress : u.address = t.address)
    (hspeed : u.speed = t.speed) (hpacket : u.packet = t.packet) : Decodes chars t :=
  ⟨haddress ▸ h.address, h.endpoint, hspeed ▸ h.speed, hpacket ▸ h.packet⟩

theorem Decodes.same {u : Transfer} (h : Decodes chars u) (h' : Decodes chars t) :
    u.speed = t.speed ∧ u.packet = t.packet := by
  have hspeed : speedField u.speed = speedField t.speed := h.speed.trans h'.speed.symm
  have hsome : speedField u.speed ≠ none := by simp [h.speed]
  refine ⟨?_, h.packet.symm.trans h'.packet⟩
  generalize u.speed = speed at hspeed hsome
  generalize t.speed = speed' at hspeed
  cases speed <;> cases speed' <;> simp_all [speedField]

theorem Traced.address_eq (hinv : Traced l h)
    (hqh : controlQh h.schedule.ehci t.address 0 = some q) (hlt : t.address.toNat < 128)
    {u : Transfer × Nat} (hu : u ∈ h.served) (huq : u.2 = q) : u.1.address = t.address := by
  by_cases hq : q = 0
  · rw [(hinv.zero u hu).mp (huq.trans hq), (controlQh_lt hqh).2.mp hq]
  · have hfield := (hinv.decodes u hu).address
    rw [huq] at hfield
    rcases controlQh_address hqh hq hlt with hmatch | hnone
    · exact BitVec.eq_of_toNat_eq (hfield.symm.trans hmatch)
    · refine absurd ((hinv.zero u hu).mpr (BitVec.eq_of_toNat_eq ?_)) (huq ▸ hq)
      exact hfield.symm.trans hnone

theorem Traced.right_iff (hinv : Traced l h) (t : Transfer) : Right l t h ↔ StepOk t h := by
  cases hqh : controlQh h.schedule.ehci t.address 0 with
  | none =>
    refine iff_of_true (fun s q hinit => ?_) fun q hq => ?_
    · rw [blEhciInitQh_none hqh] at hinit
      cases hinit
    · rw [hqh] at hq
      cases hq
  | some q =>
    have hok : StepOk t h ↔ if (h.schedule.ehci.qhs q).used then
        t.address.toNat < 128 ∧
          ∀ u ∈ h.served, u.2 = q → u.1.speed = t.speed ∧ u.1.packet = t.packet
        else Fits (h.schedule.ehci.qhs q).chars t := by
      unfold StepOk
      simp only [hqh, Option.some.injEq, forall_eq']
    have hlt := (controlQh_lt hqh).1
    rw [hok]
    unfold Right
    cases hused : (h.schedule.ehci.qhs q).used with
    | true =>
      simp only [blEhciInitQh_used hqh hused, Option.some.injEq, Prod.mk.injEq, and_imp, if_pos]
      obtain ⟨u, hu, huq⟩ := (hinv.used q hlt).mp hused
      have hdecodes := hinv.decodes u hu
      rw [huq] at hdecodes
      constructor
      · intro hright
        obtain ⟨-, ht, -⟩ := hright _ _ rfl rfl
        refine ⟨ht.address_lt, fun v hv hvq => ?_⟩
        have hv' := hinv.decodes v hv
        rw [hvq] at hv'
        exact hv'.same ht
      · rintro ⟨haddress, hsame⟩ _ _ rfl rfl
        refine ⟨fun v hv hvq => hinv.address_eq hqh haddress hv hvq, ?_, hinv.cycle⟩
        exact hdecodes.of_same (hinv.address_eq hqh haddress hu huq) (hsame u hu huq).1
          (hsame u hu huq).2
    | false =>
      have hchars : ((blEhciLinkQh l { h.schedule with ehci := setUp h.schedule.ehci t q }
          q).ehci.qhs q).chars =
            blEhciSetQh (h.schedule.ehci.qhs q).chars t.address 0 t.speed
              (BitVec.ofNat 32 t.packet) := by
        simp [blEhciLinkQh, setUp, BlEhciController.setQh]
      simp only [blEhciInitQh_unused hqh hused, Option.some.injEq, Prod.mk.injEq, and_imp,
        Bool.false_eq_true, if_false]
      rw [← decodes_setQh_iff]
      constructor
      · intro hright
        obtain ⟨-, ht, -⟩ := hright _ _ rfl rfl
        rwa [hchars] at ht
      · rintro ht _ _ rfl rfl
        refine ⟨fun u hu huq => ?_, hchars.symm ▸ ht, hinv.cycle.link hlt hused⟩
        have hin := (hinv.used q hlt).mpr ⟨u, hu, huq⟩
        rw [hused] at hin
        cases hin

/-- The queue head is in use now; those of earlier transfers are as they were. -/
theorem Traced.taken (hinv : Traced l h) (hqh : controlQh h.schedule.ehci t.address 0 = some q) :
    ∃ taken, blEhciInitQh l h.schedule t = some (taken, q) ∧
      Ehci.blEhciInitQh h.schedule.ehci t.address 0 t.speed (BitVec.ofNat 32 t.packet) =
        some (taken.ehci, q) ∧
      (∀ u ∈ h.served, (taken.ehci.qhs u.2).chars = (h.schedule.ehci.qhs u.2).chars) ∧
      ∀ k, (taken.ehci.qhs k).used = true ↔ (h.schedule.ehci.qhs k).used = true ∨ k = q := by
  cases hused : (h.schedule.ehci.qhs q).used with
  | true =>
    refine ⟨_, blEhciInitQh_used hqh hused, ?_, fun _ _ => rfl, fun k => ?_⟩
    · simp only [Ehci.blEhciInitQh, hqh, Option.map_some, hused, if_true]
    · refine (or_iff_left_of_imp ?_).symm
      rintro rfl
      exact hused
  | false =>
    refine ⟨_, blEhciInitQh_unused hqh hused, ?_, fun u hu => ?_, fun k => ?_⟩
    · simp only [Ehci.blEhciInitQh, hqh, Option.map_some, hused, Bool.false_eq_true, if_false]
      rfl
    · have hne : u.2 ≠ q := by
        intro huq
        have hin := (hinv.used q (controlQh_lt hqh).1).mpr ⟨u, hu, huq⟩
        rw [hused] at hin
        cases hin
      simp [blEhciLinkQh, setUp, BlEhciController.setQh, hne]
    · by_cases hk : k = q
      · simp [blEhciLinkQh, setUp, BlEhciController.setQh, hk]
      · simp [blEhciLinkQh, setUp, BlEhciController.setQh, hk]

theorem Traced.step (hinv : Traced l h) (hok : StepOk t h) (hstep : step l t h = some h') :
    Traced l h' := by
  obtain ⟨schedule, hrun, rfl⟩ := Option.map_eq_some_iff.mp hstep
  obtain ⟨ehci', hehci, rfl⟩ := Option.map_eq_some_iff.mp hrun
  have hkept := run_kept hehci
  cases hqh : controlQh h.schedule.ehci t.address 0 with
  | none =>
    simp only [Ehci.blEhciInitQh, hqh, Option.map_none] at hkept
    simp only [blEhciInitQh_none hqh, hkept]
    exact hinv
  | some q =>
    obtain ⟨taken, hinit, hcoarse, hchars, hused⟩ := hinv.taken hqh
    obtain ⟨hlt, hzero⟩ := controlQh_lt hqh
    obtain ⟨-, hdecodes, hcycle⟩ := (hinv.right_iff t).mpr hok taken q hinit
    rw [hcoarse] at hkept
    simp only [hinit]
    refine ⟨fun u hu => ?_, fun u hu => ?_, fun k hk => ?_, ?_⟩
    · rw [(hkept _).1]
      rcases List.mem_cons.mp hu with rfl | hu
      · exact hdecodes
      · rw [hchars u hu]
        exact hinv.decodes u hu
    · rcases List.mem_cons.mp hu with rfl | hu
      · exact hzero
      · exact hinv.zero u hu
    · rw [(hkept k).2, hused, hinv.used k hk]
      simp only [List.mem_cons, exists_eq_or_imp]
      rw [or_comm, eq_comm]
    · exact hcycle.congr rfl rfl fun k => (hkept k).2

/-! ## Whole runs -/

theorem Traced.always_iff (hinv : Traced l h) (ts : List Transfer) :
    AlwaysRight l ts h ↔ Runs.Along (QueueHeads.step l) StepOk ts h := by
  induction ts generalizing h with
  | nil => exact iff_of_true hinv.cycle trivial
  | cons t ts ih =>
    have hright := hinv.right_iff t
    constructor
    · rintro ⟨-, ht, hrest⟩
      have hok := hright.mp ht
      exact ⟨hok, fun h' hstep => (ih (hinv.step hok hstep)).mp (hrest h' hstep)⟩
    · rintro ⟨hok, hrest⟩
      exact ⟨hinv.cycle, hright.mpr hok,
        fun h' hstep => (ih (hinv.step hok hstep)).mpr (hrest h' hstep)⟩

def start (l : Layout) (before : BlEhciController) : History :=
  ⟨blEhciInitDataStructures l before, []⟩

theorem start_traced (l : Layout) (before : BlEhciController) : Traced l (start l before) := by
  refine ⟨fun u hu => absurd hu List.not_mem_nil, fun u hu => absurd hu List.not_mem_nil,
    fun q hq => ?_, init_cycle l before⟩
  refine iff_of_false (fun hused => ?_) fun ⟨u, hu, _⟩ => absurd hu List.not_mem_nil
  simp only [start, blEhciInitDataStructures, Ehci.blEhciInitDataStructures, if_pos hq] at hused
  cases hused

/-- **When the queue heads are right** in a whole run: at each transfer memory had no other bits
where a queue head is set up, and a queue head in use has had transfers of the same speed and packet
size only. -/
theorem queue_heads_right_iff (l : Layout) (before : BlEhciController) (ts : List Transfer) :
    AlwaysRight l ts (start l before) ↔
      Runs.Along (step l) StepOk ts (start l before) :=
  (start_traced l before).always_iff ts

def lowMemory : Layout where
  head := 0x10000
  qhs := 0x20000
  head_aligned := rfl
  qhs_aligned := rfl
  apart q _ := by omega

/-- Packets of 8 bytes, until the device has said how long they may be. -/
def getDescriptor (packetSize : Nat) : Transfer :=
  ⟨silent, packetSize, 5, .high, blUsbSetupDataFill 0x80 6 0x100 0 0, 0⟩

theorem longerPackets_not_right :
    ¬ ∀ l before ts, AlwaysRight l ts (start l before) := by
  intro h
  have hright := h lowMemory zeroedHeap [getDescriptor 8, getDescriptor 64]
  obtain ⟨-, hrest⟩ := ((start_traced lowMemory zeroedHeap).always_iff _).mp hright
  have hfirst : ((step lowMemory (getDescriptor 8) (start lowMemory zeroedHeap)).map fun h' =>
      (controlQh h'.schedule.ehci 5 0, (h'.schedule.ehci.qhs 1).used,
        h'.served.map fun u => (u.1.packet, u.2))) = some (some 1, true, [(8, 1)]) := by
    decide +kernel
  obtain ⟨h', hstep, hfacts⟩ := Option.map_eq_some_iff.mp hfirst
  simp only [Prod.mk.injEq] at hfacts
  obtain ⟨hqh, hused, hserved⟩ := hfacts
  have hok := (hrest h' hstep).1 1 hqh
  rw [if_pos hused] at hok
  obtain ⟨u, hserved, hu⟩ := List.map_eq_singleton_iff.mp hserved
  have hsame := hok.2 u (by simp [hserved]) (congrArg Prod.snd hu)
  exact absurd ((congrArg Prod.fst hu).symm.trans hsame.2) (by decide)

end BootLoader.Ehci.QueueHeads
