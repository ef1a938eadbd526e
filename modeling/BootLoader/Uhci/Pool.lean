import BootLoader.Uhci.Code

/-!
# The pools of the UHCI driver

A transfer that completes gives back what it took.
-/

namespace BootLoader.Uhci

open DescriptorPool Usb

/-- Nothing is in use, and the queue heads that transfers went through since `start` refer to no
descriptor. -/
structure AllFree (start uhci : BlUhciController) : Prop where
  tds : ∀ i < blUhciNumTd, (uhci.tds i).used = false
  qhs : ∀ i < blUhciNumQh, (uhci.qhs i).used = false
  stopped : ∀ i < blUhciNumQh,
    (uhci.qhs i).elementLinkPointer.terminate = true ∨ uhci.qhs i = start.qhs i

def freeTds (uhci : BlUhciController) : Nat :=
  (List.range blUhciNumTd).countP fun i => !(uhci.tds i).used

def freeQhs (uhci : BlUhciController) : Nat :=
  (List.range blUhciNumQh).countP fun i => !(uhci.qhs i).used

theorem AllFree.count {start uhci : BlUhciController} (h : AllFree start uhci) :
    freeTds uhci = 1024 ∧ freeQhs uhci = 256 := by
  constructor
  · unfold freeTds
    rw [List.countP_eq_length.mpr fun i hi => by simp [h.tds i (List.mem_range.mp hi)],
      List.length_range]
    rfl
  · unfold freeQhs
    rw [List.countP_eq_length.mpr fun i hi => by simp [h.qhs i (List.mem_range.mp hi)],
      List.length_range]
    rfl

inductive Transfer where
  | control (hw : Hardware) (packetSize : Nat) (address : BitVec 8) (speed : BlUsbSpeed)
      (setup : BlUsbSetupData) (length : Int)
  | bulk (hw : Hardware) (address : BitVec 8) (endp : BlUsbEndpoint) (speed : BlUsbSpeed)
      (direction : Nat) (length : Int)

def Transfer.run (uhci : BlUhciController) : Transfer → Option BlUhciController
  | .control hw packetSize address speed setup length =>
    (blUhciControlTransfer hw uhci packetSize address speed setup length).map Prod.fst
  | .bulk hw address endp speed direction length =>
    (blUhciBulkTransfer hw uhci address endp speed direction length).map Prod.fst

def runTransfers (uhci : BlUhciController) : List Transfer → Option BlUhciController
  | [] => some uhci
  | t :: ts => (t.run uhci).bind fun uhci => runTransfers uhci ts

/-- At one of the 99 polls the controller is through with the queue, and at none before that does
it terminate it. -/
def Hardware.Completes (hw : Hardware) : Prop :=
  ∃ n < 99, hw.element n = ⟨true, none⟩ ∧ ∀ k < n, (hw.element k).terminate = false

/-- The controller completes the transfer, and its descriptors fit into the pool. -/
def Transfer.Completed : Transfer → Prop
  | .control hw packetSize _ _ _ length =>
    packetCount (if packetSize = 0 then 8 else packetSize) length.toNat + 2 ≤ blUhciNumTd ∧
      hw.Completes
  | .bulk hw _ endp _ _ length =>
    length = 0 ∨ 0 < length ∧ 0 < endp.maxPacketSize ∧
      packetCount endp.maxPacketSize length.toNat ≤ blUhciNumTd ∧ hw.Completes

variable {hw : Hardware} {start uhci : BlUhciController} {qh td : Nat} {tds tds' : Pool BlUhciTd}
  {head : Option Nat}

/-! ## The descriptors of a transfer -/

theorem blUhciAllocQh_spec (h : AllFree start uhci) :
    ∃ qh < blUhciNumQh, blUhciAllocQh uhci = some ({ uhci with
      qhs := Function.update uhci.qhs qh { uhci.qhs qh with used := true } }, qh) := by
  unfold blUhciAllocQh
  cases hfind : (List.range blUhciNumQh).find? fun i => !(uhci.qhs i).used with
  | none =>
    rw [List.find?_eq_none] at hfind
    exact absurd (h.qhs 0 (by decide)) (by simpa using hfind 0 (by decide))
  | some qh => exact ⟨qh, List.mem_range.mp (List.mem_of_find?_eq_some hfind), rfl⟩

def setupTd (speed : BlUsbSpeed) (address : BitVec 8) : BlUhciTd :=
  initializedTd speed .tokenSetup address 0 false 8 (some ⟨.setup, 0⟩)

def packetTd (speed : BlUsbSpeed) (pid : BlUsbPid) (address endpoint : BitVec 8)
    (off size : Nat) (toggle : Bool) : BlUhciTd :=
  initializedTd speed pid address endpoint toggle size (some ⟨.data, off⟩)

def statusTd (speed : BlUsbSpeed) (address : BitVec 8) (setup : BlUsbSetupData) : BlUhciTd :=
  initializedTd speed (blUsbStatusPid (blUsbDirectionPid setup)) address 0 true 0 none

variable {packetSize : Nat} {address : BitVec 8} {speed : BlUsbSpeed} {setup : BlUsbSetupData}
  {length : Int}

theorem controlTds_spec (h : (controlTds packetSize address speed setup length tds).2 ≠ none) :
    ∃ is cs toggle,
      Cut (packetTd speed (blUsbDirectionPid setup) address 0) packetSize true length.toNat 0 cs
        toggle ∧
      Holds blUhciNumTd tds (controlTds packetSize address speed setup length tds) is
        (setupTd speed address :: (cs ++ [statusTd speed address setup])) :=
  takeStages_spec (fun _ _ hr => hr) (fun _ _ _ _ _ hr => hr) (fun _ _ hr => hr) h

theorem controlTds_exists (address : BitVec 8) (speed : BlUsbSpeed) (setup : BlUsbSetupData)
    (hfree : ∀ i < blUhciNumTd, (tds i).used = false) (hpacket : 0 < packetSize)
    (hroom : packetCount packetSize length.toNat + 2 ≤ blUhciNumTd) :
    (controlTds packetSize address speed setup length tds).2 ≠ none :=
  takeStages_exists hfree hpacket hroom (Nat.lt_succ_self _) (setupTd speed address)
    (statusTd speed address setup) (packetTd speed (blUsbDirectionPid setup) address 0)

/-! ## The end of a transfer -/

/-- A transfer that completes gives back its descriptors and its queue head. -/
theorem pollTransfer_completes (hhead : (uhci.qhs qh).originalElement = some td)
    (hrelease : blUhciFreeTdList uhci.tds td = some tds') {left n m : Nat} (hn : n ≤ m)
    (hm : m < n + left) (hdone : hw.element m = ⟨true, none⟩)
    (hbefore : ∀ k, n ≤ k → k < m → (hw.element k).terminate = false) :
    pollTransfer hw qh left n uhci =
      some (⟨tds', Function.update uhci.qhs qh ⟨⟨true, none⟩, false, some td⟩⟩, .success) := by
  induction left generalizing n uhci with
  | zero => omega
  | succ left ih =>
    rw [pollTransfer]
    rcases Nat.eq_or_lt_of_le hn with rfl | hlt
    · simp [blUhciTransferFinished, setElement, hdone, hhead, hrelease]
    · have hrunning := hbefore n le_rfl hlt
      simp only [blUhciTransferFinished, setElement, Function.update_self, hrunning,
        Bool.false_eq_true, if_false, Option.bind_some, reduceCtorEq]
      rw [ih _ _ hlt (by omega) fun k hk => hbefore k (by omega)]
      · simp [Function.update_idem]
      · simpa using hhead
      · exact hrelease

/-- From the start of a transfer whose chain was built in a free pool to its end. -/
theorem transfer_completes (qh : Nat) {is : List Nat} {bodies : List BlUhciTd}
    (hfree : AllFree start uhci)
    (hbuilt : Built blUhciNumTd uhci.tds tds is bodies) (hne : is ≠ []) (hw_done : hw.Completes)
    {qhs : Nat → BlUhciQh} (hqhs : ∀ k, k ≠ qh → qhs k = uhci.qhs k) :
    ∃ uhci', blUhciCheckTransferTimeout hw (startTransfer ⟨tds, qhs⟩ qh is.head?) (some qh) 100 =
        some (uhci', .success) ∧ AllFree start uhci' := by
  obtain ⟨td, hhead⟩ : ∃ td, is.head? = some td := by
    cases is with
    | nil => exact absurd rfl hne
    | cons td is => exact ⟨td, rfl⟩
  obtain ⟨tds', hrelease, hused⟩ := hbuilt.release hbuilt.length_le hhead
  obtain ⟨m, hm, hdone, hbefore⟩ := hw_done
  refine ⟨⟨tds', Function.update qhs qh ⟨⟨true, none⟩, false, some td⟩⟩, ?_, ?_, ?_, ?_⟩
  · have hstarted : ((startTransfer ⟨tds, qhs⟩ qh is.head?).qhs qh).originalElement = some td := by
      simp [startTransfer, hhead]
    have hpoll := pollTransfer_completes hstarted hrelease (Nat.zero_le m)
      (show m < 0 + 99 by omega) hdone fun k _ hk => hbefore k hk
    rw [blUhciCheckTransferTimeout, Option.bind_some, show 100 - 1 = 99 from rfl, hpoll]
    simp [startTransfer, Function.update_idem]
  · intro i hi
    rw [hused i]
    exact hfree.tds i hi
  · intro i hi
    rcases eq_or_ne i qh with rfl | hne
    · simp
    · simp only [Function.update_of_ne hne, hqhs i hne]
      exact hfree.qhs i hi
  · intro i hi
    rcases eq_or_ne i qh with rfl | hne
    · simp
    · simp only [Function.update_of_ne hne, hqhs i hne]
      exact hfree.stopped i hi

/-! ## Transfers -/

theorem controlTransfer_completes (hfree : AllFree start uhci)
    (hroom : packetCount (if packetSize = 0 then 8 else packetSize) length.toNat + 2 ≤ blUhciNumTd)
    (hw_done : hw.Completes) :
    ∃ uhci', blUhciControlTransfer hw uhci packetSize address speed setup length =
        some (uhci', .success) ∧ AllFree start uhci' := by
  obtain ⟨qh, -, halloc⟩ := blUhciAllocQh_spec hfree
  have hqhs : ∀ k, k ≠ qh →
      Function.update uhci.qhs qh { uhci.qhs qh with used := true } k = uhci.qhs k :=
    fun k hk => Function.update_of_ne hk _ _
  have hpacket : 0 < if packetSize = 0 then 8 else packetSize := by
    split_ifs <;> omega
  have hsome := controlTds_exists address speed setup hfree.tds hpacket hroom
  obtain ⟨is, cs, -, -, hends, hbuilt⟩ := controlTds_spec hsome
  have hne : is ≠ [] := by
    have hlength := hbuilt.length_bodies
    rintro rfl
    simp at hlength
  obtain ⟨uhci', hrun, hfree'⟩ := transfer_completes qh hfree hbuilt hne hw_done hqhs
  refine ⟨uhci', ?_, hfree'⟩
  rw [← hrun]
  simp only [blUhciControlTransfer, prepareControlTransfer, halloc]
  generalize controlTds _ address speed setup length uhci.tds = c at hends ⊢
  obtain ⟨tds, r⟩ := c
  obtain rfl : r = _ := hends
  rfl

theorem bulkTds_spec {endp : BlUsbEndpoint} (pid : BlUsbPid) (address : BitVec 8)
    (speed : BlUsbSpeed) (hfree : ∀ i < blUhciNumTd, (tds i).used = false)
    (hpacket : 0 < endp.maxPacketSize)
    (hroom : packetCount endp.maxPacketSize length.toNat ≤ blUhciNumTd) (hlength : 0 < length) :
    ∃ is bodies, is ≠ [] ∧
      Holds blUhciNumTd tds (takePackets (initPacket speed pid address endp.endpointAddress)
        endp.maxPacketSize packetFuel endp.toggle length.toNat 0 (tds, some (none, none))).1
        is bodies := by
  have hsome := takePackets_exists endp.toggle 0 (holds_nil blUhciNumTd tds) hfree hpacket
    (by rwa [List.length_nil, Nat.zero_add]) (Nat.lt_succ_of_le hroom)
    (packetTd speed pid address endp.endpointAddress)
  obtain ⟨is, cs, hcut, hholds⟩ := takePackets_spec (holds_nil blUhciNumTd tds)
    (fun _ _ _ _ _ hr => hr) hsome
  refine ⟨is, cs, ?_, hholds⟩
  rintro rfl
  have hcount := hcut.length_eq hpacket
  have hlen := hholds.2.length_bodies
  have hpos := packetCount_pos hpacket (show 0 < length.toNat by omega)
  rw [List.nil_append, List.append_nil, List.length_nil] at hlen
  omega

theorem bulkTransfer_completes {endp : BlUsbEndpoint} {direction : Nat}
    (hfree : AllFree start uhci) (hlength : 0 < length) (hpacket : 0 < endp.maxPacketSize)
    (hroom : packetCount endp.maxPacketSize length.toNat ≤ blUhciNumTd)
    (hw_done : hw.Completes) :
    ∃ uhci' endp', blUhciBulkTransfer hw uhci address endp speed direction length =
        some (uhci', endp') ∧ AllFree start uhci' := by
  obtain ⟨qh, -, halloc⟩ := blUhciAllocQh_spec hfree
  have hqhs : ∀ k, k ≠ qh →
      Function.update uhci.qhs qh { uhci.qhs qh with used := true } k = uhci.qhs k :=
    fun k hk => Function.update_of_ne hk _ _
  obtain ⟨is, bodies, hne, hends, hbuilt⟩ :=
    bulkTds_spec (if direction ≠ 0 then .tokenOut else .tokenIn) address speed hfree.tds
      hpacket hroom hlength
  obtain ⟨uhci', hrun, hfree'⟩ := transfer_completes qh hfree hbuilt hne hw_done hqhs
  generalize hc : takePackets (initPacket speed (if direction ≠ 0 then .tokenOut else .tokenIn)
    address endp.endpointAddress) endp.maxPacketSize packetFuel endp.toggle length.toNat 0
    (uhci.tds, some (none, none)) = c at hends hrun
  obtain ⟨⟨tds, r⟩, toggle⟩ := c
  obtain rfl : r = _ := hends
  refine ⟨uhci', { endp with toggle }, ?_, hfree'⟩
  simp only [blUhciBulkTransfer, blUhciBulkInterruptTransfers, halloc, hc, hlength.ne', if_false]
  rw [hrun]
  rfl

/-! ## Runs -/

theorem run_completes {t : Transfer} (hfree : AllFree start uhci) (ht : t.Completed) :
    ∃ uhci', t.run uhci = some uhci' ∧ AllFree start uhci' := by
  cases t with
  | control hw packetSize address speed setup length =>
    obtain ⟨uhci', hrun, hfree'⟩ := controlTransfer_completes hfree ht.1 ht.2
    exact ⟨uhci', by rw [Transfer.run, hrun]; rfl, hfree'⟩
  | bulk hw address endp speed direction length =>
    rcases ht with hzero | ⟨hpos, hpacket, hroom, hw_done⟩
    · exact ⟨uhci, by rw [Transfer.run, blUhciBulkTransfer, if_pos hzero]; rfl, hfree⟩
    · obtain ⟨uhci', endp', hrun, hfree'⟩ :=
        bulkTransfer_completes hfree hpos hpacket hroom hw_done
      exact ⟨uhci', by rw [Transfer.run, hrun]; rfl, hfree'⟩

theorem runTransfers_completes {ts : List Transfer} (hfree : AllFree start uhci)
    (hts : ∀ t ∈ ts, t.Completed) :
    ∃ uhci', runTransfers uhci ts = some uhci' ∧ AllFree start uhci' := by
  induction ts generalizing uhci with
  | nil => exact ⟨uhci, rfl, hfree⟩
  | cons t ts ih =>
    obtain ⟨uhci₁, hrun, hfree₁⟩ := run_completes hfree (hts t (by simp))
    obtain ⟨uhci', hrest, hfree'⟩ := ih hfree₁ fun t' ht' => hts t' (by simp [ht'])
    refine ⟨uhci', ?_, hfree'⟩
    rw [runTransfers, hrun, Option.bind_some, hrest]

theorem blUhciInitDataStructures_free {before : BlUhciController}
    (hlast : (before.qhs 255).used = false) :
    AllFree (blUhciInitDataStructures before) (blUhciInitDataStructures before) where
  tds := by
    intro i hi
    simp [blUhciInitDataStructures, hi]
  qhs := by
    intro i hi
    rcases Nat.lt_or_ge i (blUhciNumQh - 1) with hlt | hge
    · simp [blUhciInitDataStructures, hlt]
    · obtain rfl : i = 255 := by
        unfold blUhciNumQh at hi hge
        omega
      simpa [blUhciInitDataStructures, blUhciNumQh] using hlast
  stopped := fun i _ => .inr rfl

/-- **Transfers that complete conserve the pools**, if the last queue head, which the driver does
not set up, happens to be unused. -/
theorem runTransfers_conserves (before : BlUhciController) (ts : List Transfer)
    (hlast : (before.qhs 255).used = false) (hts : ∀ t ∈ ts, t.Completed) :
    ∃ uhci, runTransfers (blUhciInitDataStructures before) ts = some uhci ∧
      AllFree (blUhciInitDataStructures before) uhci ∧
      freeTds uhci = 1024 ∧ freeQhs uhci = 256 := by
  obtain ⟨uhci, hrun, hfree⟩ :=
    runTransfers_completes (blUhciInitDataStructures_free hlast) hts
  exact ⟨uhci, hrun, hfree, hfree.count⟩

def zeroedHeap : BlUhciController where
  tds _ := ⟨false, none, ⟨0, 0, none⟩⟩
  qhs _ := ⟨⟨false, none⟩, false, none⟩

def thirdPoll : Hardware where
  element n := if n < 2 then ⟨false, some 0⟩ else ⟨true, none⟩
  controlStatus := 0

theorem thirdPoll_completes : thirdPoll.Completes :=
  ⟨2, by decide, rfl, fun k hk => by simp only [thirdPoll, if_pos hk]⟩

def identifyAndRead : List Transfer :=
  [.control thirdPoll 0 0 .full (blUsbSetupDataFill 0x80 6 0x100 0 18) 18,
   .bulk thirdPoll 1 ⟨false, 1, 64⟩ .full 0 512]

theorem identifyAndRead_conserves :
    ∃ uhci, runTransfers (blUhciInitDataStructures zeroedHeap) identifyAndRead = some uhci ∧
      AllFree (blUhciInitDataStructures zeroedHeap) uhci ∧
      freeTds uhci = 1024 ∧ freeQhs uhci = 256 := by
  refine runTransfers_conserves zeroedHeap identifyAndRead rfl fun t ht => ?_
  simp only [identifyAndRead, List.mem_cons, List.not_mem_nil, or_false] at ht
  rcases ht with rfl | rfl
  · exact ⟨by decide, thirdPoll_completes⟩
  · exact .inr ⟨by decide, by decide, by decide, thirdPoll_completes⟩

def silent : Hardware where
  element _ := ⟨false, some 0⟩
  controlStatus := 0x80000

def setAddress : Transfer := .control silent 8 0 .full (blUsbSetupDataFill 0 5 1 0 0) 0

theorem setAddress_leaks : ¬ ∀ before ts, ∃ uhci,
    runTransfers (blUhciInitDataStructures before) ts = some uhci ∧
      AllFree (blUhciInitDataStructures before) uhci ∧
      freeTds uhci = 1024 ∧ freeQhs uhci = 256 := by
  intro h
  obtain ⟨uhci, hrun, -, htds, -⟩ := h zeroedHeap [setAddress]
  have hleak : (runTransfers (blUhciInitDataStructures zeroedHeap) [setAddress]).map freeTds =
      some 1022 := by
    decide +kernel
  rw [hrun, Option.map_some, htds] at hleak
  have heq := Option.some.inj hleak
  omega

end BootLoader.Uhci
