import BootLoader.Uhci.Pool

/-!
# What UHCI transfers are reported as

The status that is left over at the end of a transfer is compared with single bits. All other
combinations count as a success, and so does a transfer that is still active after the last poll.
-/

open DescriptorPool

namespace BootLoader.Uhci

open Usb

def blUhciCheckTransferStatus (hw : Hardware) (uhci : BlUhciController) (qh : Nat) :
    Option (BlUhciController × BlStatus) :=
  (blUhciTransferFinished (setElement uhci qh (hw.element 0)) qh).map fun (uhci, status) =>
    (uhci, if status = .usbShouldCheckStatus then blUhciTransferStatus hw else status)

/-! ## Controllers -/

/-- What is in memory at one moment: the element pointer of the queue head and the control and
status words of the descriptors. -/
structure Snapshot where
  element : QhLink
  words : Nat → BitVec 32
  atNull : BitVec 32

/-- The word of the descriptor that the element pointer names. -/
def Snapshot.word (s : Snapshot) : BitVec 32 := s.element.td.elim s.atNull s.words

/-- Each descriptor of the chain is retired: not active any more, and without an error bit. -/
def Snapshot.Retired (s : Snapshot) (chain : List Nat) : Prop :=
  ∀ i ∈ chain, s.words i &&& 0xfe0000 = 0

/-- A controller at work on a chain. What it shows is anything, but it advances the element pointer
to the end behind retired descriptors only. -/
structure Controller (chain : List Nat) where
  snapshot : Nat → Snapshot
  through : ∀ n, (snapshot n).element = ⟨true, none⟩ → (snapshot n).Retired chain

/-- The poll at which the waiting stops, of `left` polls from `n` on. -/
def lastPoll (element : Nat → QhLink) : Nat → Nat → Nat
  | 0, n => n
  | left + 1, n => if (element n).terminate then n else lastPoll element left (n + 1)

variable {chain : List Nat}

def Controller.element (c : Controller chain) (n : Nat) : QhLink := (c.snapshot n).element

/-- What a call sees that looks at the status after the poll `last`. -/
def Controller.hardware (c : Controller chain) (last : Nat) : Hardware where
  element := c.element
  controlStatus := (c.snapshot last).word

/-- At the end of a control transfer. -/
def Controller.atEnd (c : Controller chain) : Nat := lastPoll c.element 99 0

/-! ## What should hold -/

/-- The descriptors of the transfer of a queue head. -/
def transferChain (uhci : BlUhciController) (qh : Nat) : List Nat :=
  follow uhci.tds none blUhciNumTd (uhci.qhs qh).originalElement

def controlChain (uhci : BlUhciController) (packetSize : Nat) (address : BitVec 8)
    (speed : BlUsbSpeed) (setup : BlUsbSetupData) (length : Int) : List Nat :=
  match prepareControlTransfer uhci packetSize address speed setup length with
  | (_, none) => []
  | (uhci, some qh) => transferChain uhci qh

/-- With success all of the chain is retired. -/
def ControlTruthful (uhci : BlUhciController) (packetSize : Nat) (address : BitVec 8)
    (speed : BlUsbSpeed) (setup : BlUsbSetupData) (length : Int)
    (c : Controller (controlChain uhci packetSize address speed setup length)) : Prop :=
  ∀ uhci', blUhciControlTransfer (c.hardware c.atEnd) uhci packetSize address speed setup length =
    some (uhci', .success) →
    (c.snapshot c.atEnd).Retired (controlChain uhci packetSize address speed setup length)

def CheckTruthful (uhci : BlUhciController) (qh : Nat) (c : Controller (transferChain uhci qh)) :
    Prop :=
  ∀ uhci', blUhciCheckTransferStatus (c.hardware 0) uhci qh = some (uhci', .success) →
    (c.snapshot 0).Retired (transferChain uhci qh)

/-- Exactly one of the bits that are looked for is set, and the descriptor is not active. -/
def Reported (word : BitVec 32) : Prop :=
  word &&& 0xff0000 ∈ [0x20000, 0x40000, 0x80000, 0x100000, 0x200000, (0x400000 : BitVec 32)]

instance (word : BitVec 32) : Decidable (Reported word) := inferInstanceAs (Decidable (_ ∈ _))

variable {hw : Hardware} {uhci uhci' : BlUhciController} {qh : Nat}

/-! ## The outcome of a call -/

theorem blUhciTransferStatus_success_iff (hw : Hardware) :
    blUhciTransferStatus hw = .success ↔ ¬ Reported hw.controlStatus := by
  unfold blUhciTransferStatus Reported
  generalize hw.controlStatus &&& 0xff0000 = status
  simp only [List.mem_cons, List.not_mem_nil, or_false, ← BitVec.toNat_inj]
  split <;> simp_all

/-- The end of the queue is found, or the status decides. -/
theorem blUhciTransferFinished_cases (uhci : BlUhciController) (qh : Nat) :
    ((uhci.qhs qh).elementLinkPointer = ⟨true, none⟩ ∧
        ∀ r, blUhciTransferFinished uhci qh = some r → r.2 = .success) ∨
      (∃ td, (uhci.qhs qh).elementLinkPointer = ⟨true, some td⟩ ∧
        blUhciTransferFinished uhci qh = some (uhci, .usbShouldCheckStatus)) ∨
      ((uhci.qhs qh).elementLinkPointer.terminate = false ∧
        blUhciTransferFinished uhci qh = some (uhci, .usbActionNotFinished)) := by
  unfold blUhciTransferFinished
  rcases (uhci.qhs qh).elementLinkPointer with ⟨_ | _, _ | td⟩
  · exact .inr (.inr ⟨rfl, rfl⟩)
  · exact .inr (.inr ⟨rfl, rfl⟩)
  · refine .inl ⟨rfl, fun r hr => ?_⟩
    obtain ⟨td, -, hthen⟩ := Option.bind_eq_some_iff.mp hr
    obtain ⟨tds, -, rfl⟩ := Option.map_eq_some_iff.mp hthen
    rfl
  · exact .inr (.inl ⟨td, rfl, rfl⟩)

theorem pollTransfer_cases (hw : Hardware) (qh left n : Nat) (uhci : BlUhciController) :
    (hw.element (lastPoll hw.element left n) = ⟨true, none⟩ ∧
        ∀ r, pollTransfer hw qh left n uhci = some r → r.2 = .success) ∨
      ∃ uhci', pollTransfer hw qh left n uhci = some (uhci', blUhciTransferStatus hw) := by
  induction left generalizing n uhci with
  | zero => exact .inr ⟨uhci, rfl⟩
  | succ left ih =>
    have hpointer : ((setElement uhci qh (hw.element n)).qhs qh).elementLinkPointer =
        hw.element n := by
      simp [setElement]
    have hcases := blUhciTransferFinished_cases (setElement uhci qh (hw.element n)) qh
    rw [hpointer] at hcases
    rw [pollTransfer, lastPoll]
    rcases hcases with ⟨hend, hfinished⟩ | ⟨td, hhalted, hfinished⟩ | ⟨hrunning, hfinished⟩
    · rw [if_pos (congrArg QhLink.terminate hend)]
      refine .inl ⟨hend, fun r hr => ?_⟩
      obtain ⟨⟨uhci', status⟩, hr', hthen⟩ := Option.bind_eq_some_iff.mp hr
      obtain rfl : status = .success := hfinished _ hr'
      obtain rfl := Option.some.inj hthen
      rfl
    · rw [hfinished]
      exact .inr ⟨_, rfl⟩
    · rw [hrunning, if_neg Bool.false_ne_true, hfinished]
      exact ih (n + 1) _

theorem blUhciControlTransfer_cases (hw : Hardware) (uhci : BlUhciController) (packetSize : Nat)
    (address : BitVec 8) (speed : BlUsbSpeed) (setup : BlUsbSetupData) (length : Int) :
    controlChain uhci packetSize address speed setup length = [] ∨
      (hw.element (lastPoll hw.element 99 0) = ⟨true, none⟩ ∧
        ∀ r, blUhciControlTransfer hw uhci packetSize address speed setup length = some r →
          r.2 = .success) ∨
      ∃ uhci', blUhciControlTransfer hw uhci packetSize address speed setup length =
        some (uhci', blUhciTransferStatus hw) := by
  unfold blUhciControlTransfer controlChain
  rcases prepareControlTransfer uhci packetSize address speed setup length with ⟨uhci', _ | qh⟩
  · exact .inl rfl
  · exact .inr (pollTransfer_cases hw qh 99 0 uhci')

/-! ## When it is true -/

theorem controlTruthful_iff (uhci : BlUhciController) (packetSize : Nat) (address : BitVec 8)
    (speed : BlUsbSpeed) (setup : BlUsbSetupData) (length : Int)
    (c : Controller (controlChain uhci packetSize address speed setup length)) :
    ControlTruthful uhci packetSize address speed setup length c ↔
      (c.snapshot c.atEnd).Retired (controlChain uhci packetSize address speed setup length) ∨
        Reported (c.snapshot c.atEnd).word := by
  unfold ControlTruthful
  rcases blUhciControlTransfer_cases (c.hardware c.atEnd) uhci packetSize address speed setup
    length with hnone | ⟨hend, -⟩ | ⟨uhci', hstatus⟩
  · have hretired : (c.snapshot c.atEnd).Retired
        (controlChain uhci packetSize address speed setup length) := by
      intro i hi
      rw [hnone] at hi
      cases hi
    exact iff_of_true (fun _ _ => hretired) (.inl hretired)
  · have hretired := c.through _ hend
    exact iff_of_true (fun _ _ => hretired) (.inl hretired)
  · have hsuccess := blUhciTransferStatus_success_iff (c.hardware c.atEnd)
    rw [hstatus]
    constructor
    · intro h
      by_cases hreported : Reported (c.snapshot c.atEnd).word
      · exact .inr hreported
      · exact .inl (h uhci' (by rw [hsuccess.mpr hreported]))
    · rintro (hretired | hreported) uhci'' heq
      · exact hretired
      · obtain ⟨-, hout⟩ := Prod.mk.inj (Option.some.inj heq)
        exact absurd hreported (hsuccess.mp hout)

theorem checkTruthful_iff (uhci : BlUhciController) (qh : Nat)
    (c : Controller (transferChain uhci qh)) :
    CheckTruthful uhci qh c ↔ (c.snapshot 0).element.terminate = false ∨
      (c.snapshot 0).Retired (transferChain uhci qh) ∨ Reported (c.snapshot 0).word := by
  have hpointer : ((setElement uhci qh (c.element 0)).qhs qh).elementLinkPointer = c.element 0 := by
    simp [setElement]
  have hcases := blUhciTransferFinished_cases (setElement uhci qh (c.element 0)) qh
  rw [hpointer] at hcases
  unfold CheckTruthful blUhciCheckTransferStatus
  rcases hcases with ⟨hend, -⟩ | ⟨td, hhalted, hfinished⟩ | ⟨hrunning, hfinished⟩
  · have hretired := c.through 0 hend
    exact iff_of_true (fun _ _ => hretired) (.inr (.inl hretired))
  · have hsuccess := blUhciTransferStatus_success_iff (c.hardware 0)
    have hterminate : (c.snapshot 0).element.terminate = true := congrArg QhLink.terminate hhalted
    rw [show (c.hardware 0).element 0 = c.element 0 from rfl, hfinished, hterminate]
    simp only [Option.map_some, if_true, Option.some.injEq, Prod.mk.injEq, Bool.true_eq_false,
      false_or]
    constructor
    · intro h
      by_cases hreported : Reported (c.snapshot 0).word
      · exact .inr hreported
      · exact .inl (h _ ⟨rfl, hsuccess.mpr hreported⟩)
    · rintro (hretired | hreported) uhci' ⟨-, hout⟩
      · exact hretired
      · exact absurd hreported (hsuccess.mp hout)
  · refine iff_of_true (fun uhci' heq => ?_) (.inl hrunning)
    rw [show (c.hardware 0).element 0 = c.element 0 from rfl, hfinished] at heq
    simp at heq

/-- **When success is true.** At the end all is retired, or the status has exactly one of the six
bits; a single check may also have come too early. -/
theorem outcome_truthful_iff (uhci : BlUhciController) (packetSize : Nat) (address : BitVec 8)
    (speed : BlUsbSpeed) (setup : BlUsbSetupData) (length : Int) (qh : Nat)
    (c : Controller (controlChain uhci packetSize address speed setup length))
    (d : Controller (transferChain uhci qh)) :
    (ControlTruthful uhci packetSize address speed setup length c ↔
      (c.snapshot c.atEnd).Retired (controlChain uhci packetSize address speed setup length) ∨
        Reported (c.snapshot c.atEnd).word) ∧
    (CheckTruthful uhci qh d ↔ (d.snapshot 0).element.terminate = false ∨
      (d.snapshot 0).Retired (transferChain uhci qh) ∨ Reported (d.snapshot 0).word) :=
  ⟨controlTruthful_iff .., checkTruthful_iff ..⟩

/-- Nothing is done with the first descriptor. -/
def idle (chain : List Nat) : Controller chain where
  snapshot _ := ⟨⟨false, some 0⟩, fun _ => activeBit, 0⟩
  through _ h := by cases h

theorem setAddress_not_truthful :
    ¬ ((∀ uhci packetSize address speed setup length
        (c : Controller (controlChain uhci packetSize address speed setup length)),
        ControlTruthful uhci packetSize address speed setup length c) ∧
      ∀ uhci qh (c : Controller (transferChain uhci qh)), CheckTruthful uhci qh c) := by
  rintro ⟨h, -⟩
  have htruthful := h zeroedHeap 8 0 .full (blUsbSetupDataFill 0 5 1 0 0) 0 (idle _)
  have hchain : controlChain zeroedHeap 8 0 .full (blUsbSetupDataFill 0 5 1 0 0) 0 = [0, 1] := by
    decide +kernel
  rcases (controlTruthful_iff ..).mp htruthful with hretired | hreported
  · have hfirst := hretired 0 (by rw [hchain]; decide)
    exact absurd hfirst (by decide)
  · exact absurd hreported (by decide)

end BootLoader.Uhci
