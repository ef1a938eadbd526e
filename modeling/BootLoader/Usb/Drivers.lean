import BootLoader.Ehci.Code
import BootLoader.Ohci.Code
import BootLoader.Uhci.Pool
import BootLoader.Xhci.Rings

/-!
# The control transfers of the four drivers

What each driver hands to its controller, as the controller reads it, against the transactions of a
control transfer.
-/

namespace BootLoader

open DescriptorPool Usb

variable {setup : BlUsbSetupData} {length : Nat} {packetSize : Nat} {ts : List Transaction}

/-! ## UHCI -/

namespace Uhci

def tokenPid (token : BitVec 32) : BlUsbPid :=
  if token.setWidth 8 = 0xe1 then .tokenOut
  else if token.setWidth 8 = 0x69 then .tokenIn
  else .tokenSetup

def transaction (td : BlUhciTd) : Transaction where
  pid := tokenPid td.token
  toggle := td.token.getLsbD 19
  buffer := td.bufferPointer
  length := ((td.token >>> 21) + 1 &&& 0x7ff).toNat

/-- What the controller meets from the element pointer of the queue head on. -/
def handed (uhci : BlUhciController) (packetSize : Nat) (address : BitVec 8) (speed : BlUsbSpeed)
    (setup : BlUsbSetupData) (length : Nat) : Option (List Transaction) :=
  match prepareControlTransfer uhci packetSize address speed setup length with
  | (_, none) => none
  | (uhci, some qh) =>
    some ((follow uhci.tds none blUhciNumTd (uhci.qhs qh).elementLinkPointer.td).map fun i =>
      transaction (uhci.tds i).body)

variable {uhci : BlUhciController} {address : BitVec 8} {speed : BlUsbSpeed}

theorem lengthField_lt (size : Nat) : (lengthField size).toNat < 2048 := by
  unfold lengthField
  rw [BitVec.toNat_and]
  exact Nat.lt_of_le_of_lt Nat.and_le_right (by decide)

theorem toNat_lengthField (size : Nat) :
    (lengthField size + 1 &&& 0x7ff).toNat = size % 2048 := by
  have hmask : (0x7ff : BitVec 32).toNat = 2 ^ 11 - 1 := rfl
  unfold lengthField
  rw [BitVec.toNat_and, hmask, Nat.and_two_pow_sub_one_eq_mod, BitVec.toNat_add, BitVec.toNat_and,
    hmask, Nat.and_two_pow_sub_one_eq_mod, BitVec.toNat_sub, BitVec.toNat_ofNat]
  simp
  omega

/-- The bits 6 and 7 of the endpoint come to lie in the length field. -/
theorem tdToken_length (pid : BlUsbPid) (address endpoint : BitVec 8) (toggle : Bool)
    (size : Nat) : tdToken pid address endpoint toggle size >>> 21 =
      lengthField size ||| BitVec.ofNat 32 (endpoint.toNat / 64) := by
  have hlength := lengthField_lt size
  simp only [tdToken, BitVec.ushiftRight_or_distrib]
  have hpid : (blUsbPidFormatCheck (BlUsbPid.value pid)).setWidth 32 >>> 21 = 0 := by
    cases pid <;> decide
  have haddress : address.setWidth 32 <<< 8 >>> 21 = (0 : BitVec 32) := by
    have hlt := address.isLt
    apply BitVec.eq_of_toNat_eq
    simp [Nat.shiftRight_eq_div_pow, Nat.shiftLeft_eq]
    omega
  have hendpoint : endpoint.setWidth 32 <<< 15 >>> 21 = BitVec.ofNat 32 (endpoint.toNat / 64) := by
    have hlt := endpoint.isLt
    apply BitVec.eq_of_toNat_eq
    simp [Nat.shiftRight_eq_div_pow, Nat.shiftLeft_eq]
    omega
  have htoggle : (BitVec.ofBool toggle).setWidth 32 <<< 19 >>> 21 = (0 : BitVec 32) := by
    cases toggle <;> decide
  have hfield : lengthField size <<< 21 >>> 21 = lengthField size := by
    apply BitVec.eq_of_toNat_eq
    rw [BitVec.toNat_ushiftRight, BitVec.toNat_shiftLeft, Nat.shiftRight_eq_div_pow,
      Nat.shiftLeft_eq]
    omega
  rw [hpid, haddress, hendpoint, htoggle, hfield, BitVec.or_comm]
  simp

theorem tdToken_pid (pid : BlUsbPid) (address endpoint : BitVec 8) (toggle : Bool) (size : Nat) :
    (tdToken pid address endpoint toggle size).setWidth 8 =
      blUsbPidFormatCheck (BlUsbPid.value pid) := by
  apply BitVec.eq_of_getLsbD_eq
  intro i hi
  simp [tdToken, hi]

/-- The bit 4 of the endpoint comes to lie on the toggle. -/
theorem tdToken_toggle (pid : BlUsbPid) (address endpoint : BitVec 8) (toggle : Bool)
    (size : Nat) :
    (tdToken pid address endpoint toggle size).getLsbD 19 = (toggle || endpoint.getLsbD 4) := by
  have hhigh : (blUsbPidFormatCheck (BlUsbPid.value pid)).getLsbD 19 = false :=
    BitVec.getLsbD_of_ge _ _ (by decide)
  simp [tdToken, Bool.or_comm]

theorem tokenPid_tdToken (pid : BlUsbPid) (address endpoint : BitVec 8) (toggle : Bool)
    (size : Nat) : tokenPid (tdToken pid address endpoint toggle size) = pid := by
  unfold tokenPid
  rw [tdToken_pid]
  cases pid <;> rfl

theorem transaction_initializedTd (pid : BlUsbPid) (toggle : Bool) (size : Nat)
    (buffer : Option Ptr) :
    transaction (initializedTd speed pid address 0 toggle size buffer) =
      ⟨pid, toggle, buffer, size % 2048⟩ := by
  have hlength : lengthField size ||| BitVec.ofNat 32 ((0 : BitVec 8).toNat / 64) =
      lengthField size := BitVec.or_zero
  have htoggle : (toggle || (0 : BitVec 8).getLsbD 4) = toggle := Bool.or_false toggle
  simp only [transaction, initializedTd, tokenPid_tdToken, tdToken_toggle, tdToken_length, hlength,
    htoggle, toNat_lengthField]

/-- **The driver performs the transfer if its packets are shorter than 2048 bytes.** -/
theorem handed_iff (hpacket : 0 < packetSize)
    (hdomain : 0 < length ∨ blUsbDirectionPid setup = .tokenOut)
    (hts : handed uhci packetSize address speed setup length = some ts) :
    ControlTransfer setup length packetSize ts ↔ min length packetSize < 2048 := by
  unfold handed prepareControlTransfer at hts
  cases halloc : blUhciAllocQh uhci with
  | none => simp [halloc] at hts
  | some r =>
    obtain ⟨uhci', qh⟩ := r
    simp only [halloc, hpacket.ne', if_false] at hts
    generalize hc : controlTds packetSize address speed setup length uhci'.tds = c at hts
    obtain ⟨tds, ends⟩ := c
    cases ends with
    | none => simp at hts
    | some ends =>
      have hsome : (controlTds packetSize address speed setup length uhci'.tds).2 ≠ none := by
        simp [hc]
      obtain ⟨is, cs, toggle, hcut, hends, hbuilt⟩ := controlTds_spec hsome
      rw [hc] at hends hbuilt
      obtain rfl := Option.some.inj hends
      have hmeets := congrArg (List.map transaction) hbuilt.follow
      rw [List.map_map] at hmeets
      have hts' := Option.some.inj hts
      simp only [startTransfer, Function.update_self] at hts'
      rw [← hts']
      refine Eq.to_iff (congrArg (ControlTransfer setup length packetSize) hmeets) |>.trans ?_
      rw [List.map_cons, List.map_append, List.map_singleton]
      have hsetup : transaction (setupTd speed address) = setupTransaction :=
        transaction_initializedTd _ _ _ _
      have hstatus : transaction (statusTd speed address setup) =
          statusTransaction setup length := by
        rw [statusTd, transaction_initializedTd, statusTransaction]
        rcases hdomain with hpos | hout
        · rw [if_neg hpos.ne']
        · rw [hout]
          simp [blUsbStatusPid]
      rw [hsetup, ControlTransfer.data_iff hstatus]
      exact dataStage_iff_of_cut hcut hpacket (fun o n b => transaction_initializedTd _ _ _ _)
        (by decide)

end Uhci

/-! ## OHCI -/

namespace Ohci

def flagsPid (flags : BitVec 32) : BlUsbPid :=
  if (flags >>> 19) &&& 3 = 1 then .tokenOut
  else if (flags >>> 19) &&& 3 = 2 then .tokenIn
  else .tokenSetup

def transaction (td : BlOhciGeneralTd) : Transaction where
  pid := flagsPid td.flags
  toggle := td.flags.getLsbD 24
  buffer := td.currentBufferPointer
  length := match td.currentBufferPointer, td.bufferEnd with
    | some first, some last => last.off - first.off + 1
    | _, _ => 0

/-- What the controller meets from the head pointer on: at the tail pointer it stops. -/
def handed (tds : Pool BlOhciGeneralTd) (packetSize : Nat) (setup : BlUsbSetupData)
    (length : Nat) : Option (List Transaction) :=
  match prepareControlTransfer packetSize setup length tds with
  | (_, none) => none
  | (tds, some ed) =>
    some ((follow tds ed.tdTailPointer blOhciNumGeneralTds ed.tdHeadPointer).map fun i =>
      transaction (tds i).body)

variable {tds : Pool BlOhciGeneralTd} {c : Building BlOhciGeneralTd}

theorem transaction_initializedGeneralTd (off size : Nat) (area : Area) (toggle : Bool)
    (pid : BlUsbPid) :
    transaction (initializedGeneralTd (some ⟨area, off⟩) size toggle pid) =
      ⟨pid, toggle, if 0 < size then some ⟨area, off⟩ else none, size⟩ := by
  have hpid : flagsPid (tdFlags toggle pid) = pid := by
    cases pid <;> cases toggle <;> decide
  have htoggle : (tdFlags toggle pid).getLsbD 24 = toggle := by
    cases pid <;> cases toggle <;> decide
  simp only [transaction, initializedGeneralTd, hpid, htoggle]
  split_ifs with hpos
  · simp
    omega
  · simp
    omega

theorem transaction_status (pid : BlUsbPid) :
    transaction (initializedGeneralTd none 0 true pid) = ⟨pid, true, none, 0⟩ := by
  cases pid <;> decide

theorem handed_eq {is : List Nat} {bodies : List BlOhciGeneralTd} {b : BlOhciGeneralTd}
    (hc : controlTds packetSize setup length tds = c) (hpacket : 0 < packetSize)
    (hholds : Holds blOhciNumGeneralTds tds c is (bodies ++ [b])) :
    handed tds packetSize setup length = some (bodies.map transaction) := by
  obtain ⟨hends, hbuilt⟩ := hholds
  obtain ⟨tds', ends⟩ := c
  obtain rfl : ends = _ := hends
  have hmeets := congrArg (List.map transaction) hbuilt.follow_before_last
  rw [List.map_map] at hmeets
  simp only [handed, prepareControlTransfer, hpacket.ne', if_false, hc]
  exact congrArg some hmeets

/-- **The driver performs the transfer if there is no data**: the STATUS descriptor itself is left
to the tail pointer. -/
theorem handed_iff (hpacket : 0 < packetSize)
    (hdomain : 0 < length ∨ blUsbDirectionPid setup = .tokenOut)
    (hts : handed tds packetSize setup length = some ts) :
    ControlTransfer setup length packetSize ts ↔ length = 0 := by
  have hsome : (controlTds packetSize setup length tds).2 ≠ none := by
    intro hnone
    generalize hc : controlTds packetSize setup length tds = c at hnone
    obtain ⟨tds', ends⟩ := c
    obtain rfl : ends = none := hnone
    simp [handed, prepareControlTransfer, hpacket.ne', hc] at hts
  have hinits : ∀ buf size toggle pid, Inits blOhciNumGeneralTds
      (blOhciInitGeneralTd buf size toggle pid) (initializedGeneralTd buf size toggle pid) :=
    fun _ _ _ _ _ _ hr => hr
  rcases Nat.eq_zero_or_pos length with rfl | hpos
  · have hout : blUsbDirectionPid setup = .tokenOut := hdomain.resolve_left (Nat.lt_irrefl 0)
    rw [controlTds, Nat.cast_zero, if_pos rfl] at hsome
    obtain ⟨i, hone⟩ := takeNext_spec (holds_nil blOhciNumGeneralTds tds)
      (hinits (some ⟨.setup, 0⟩) 8 false .tokenSetup) (takeNext_some (takeNext_some hsome))
    obtain ⟨j, htwo⟩ := takeNext_spec hone (hinits none 0 true _) (takeNext_some hsome)
    obtain ⟨k, hall⟩ := takeNext_spec htwo (hinits none 0 true _) hsome
    rw [handed_eq (by rw [controlTds, Nat.cast_zero, if_pos rfl]) hpacket hall] at hts
    obtain rfl := Option.some.inj hts
    refine iff_of_true ⟨[], DataStage.done _ _, ?_⟩ rfl
    rw [List.nil_append, List.map_append, List.map_singleton, List.map_singleton,
      transaction_status, transaction_initializedGeneralTd, hout]
    rfl
  · have hne : (length : Int) ≠ 0 := by omega
    rw [controlTds, if_neg hne] at hsome
    have hpackets : ∀ o n t, Inits blOhciNumGeneralTds
        (blOhciInitGeneralTd (some ⟨.data, o⟩) n t (blUsbDirectionPid setup))
        (initializedGeneralTd (some ⟨.data, o⟩) n t (blUsbDirectionPid setup)) :=
      fun _ _ _ => hinits _ _ _ _
    obtain ⟨is, cs, toggle, hcut, hall⟩ :=
      takeStages_spec (hinits _ _ _ _) hpackets (hinits _ _ _ _) hsome
    rw [Int.toNat_natCast] at hcut
    rw [← List.cons_append] at hall
    rw [handed_eq (by rw [controlTds, if_neg hne]) hpacket hall] at hts
    obtain rfl := Option.some.inj hts
    refine iff_of_false (fun hperforms => ?_) hpos.ne'
    -- The last transaction is a packet.
    obtain ⟨bs, o, n, b, rfl, hn⟩ := cut_getLast hcut hpacket hpos
    rw [List.map_cons, List.map_append, List.map_singleton, ← List.cons_append,
      transaction_initializedGeneralTd] at hperforms
    have hlast := congrArg Transaction.buffer hperforms.last
    rw [transaction_initializedGeneralTd] at hlast
    simp [statusTransaction, hn] at hlast

end Ohci

/-! ## EHCI -/

namespace Ehci

def pidOfToken (token : BitVec 32) : BlUsbPid :=
  if (token >>> 8) &&& 3 = 0 then .tokenOut
  else if (token >>> 8) &&& 3 = 1 then .tokenIn
  else .tokenSetup

def transaction (qtd : BlEhciQtd) : Transaction where
  pid := pidOfToken qtd.token
  toggle := qtd.token.getLsbD 31
  buffer := qtd.bufferPointer
  length := ((qtd.token >>> 16) &&& 0x7fff).toNat

/-- What the controller meets from the overlay on. -/
def handed (qtds : Pool BlEhciQtd) (packetSize : Nat) (setup : BlUsbSetupData) (length : Nat) :
    Option (List Transaction) :=
  match prepareControlTransfer packetSize setup length qtds with
  | (_, none) => none
  | (qtds, some next) =>
    some ((follow qtds none blEhciNumQtds next).map fun i => transaction (qtds i).body)

variable {qtds : Pool BlEhciQtd} {c : Building BlEhciQtd}

theorem inits_qtd (buf : Option Ptr) (size : Nat) (toggle : Bool) (pid : BlUsbPid) :
    Inits blEhciNumQtds (blEhciInitQtd buf size toggle pid)
      (initializedQtd buf size toggle pid) := by
  intro p r hr
  unfold blEhciInitQtd at hr
  split_ifs at hr
  exact hr

theorem transaction_setup :
    transaction (initializedQtd (some ⟨.setup, 0⟩) 8 false .tokenSetup) = setupTransaction := by
  decide

theorem transaction_status (pid : BlUsbPid) :
    transaction (initializedQtd none 0 true pid) = ⟨pid, true, none, 0⟩ := by
  cases pid <;> decide

theorem handed_eq {is : List Nat} {bodies : List BlEhciQtd}
    (hc : controlQtds packetSize setup length qtds = c) (hpacket : 0 < packetSize)
    (hholds : Holds blEhciNumQtds qtds c is bodies) :
    handed qtds packetSize setup length = some (bodies.map transaction) := by
  obtain ⟨hends, hbuilt⟩ := hholds
  obtain ⟨qtds', ends⟩ := c
  obtain rfl : ends = _ := hends
  have hmeets := congrArg (List.map transaction) hbuilt.follow
  rw [List.map_map] at hmeets
  simp only [handed, prepareControlTransfer, hpacket.ne', if_false, hc]
  exact congrArg some hmeets

/-- **The driver performs the transfer if there is no data**: else its STATUS goes the way of the
data. -/
theorem handed_iff (hpacket : 0 < packetSize)
    (hts : handed qtds packetSize setup length = some ts) :
    ControlTransfer setup length packetSize ts ↔ length = 0 := by
  have hsome : (controlQtds packetSize setup length qtds).2 ≠ none := by
    intro hnone
    generalize hc : controlQtds packetSize setup length qtds = c at hnone
    obtain ⟨qtds', ends⟩ := c
    obtain rfl : ends = none := hnone
    simp [handed, prepareControlTransfer, hpacket.ne', hc] at hts
  rcases Nat.eq_zero_or_pos length with rfl | hpos
  · rw [controlQtds, Nat.cast_zero, if_pos rfl] at hsome
    obtain ⟨i, hone⟩ := takeNext_spec (holds_nil blEhciNumQtds qtds)
      (inits_qtd (some ⟨.setup, 0⟩) 8 false .tokenSetup) (takeNext_some hsome)
    obtain ⟨j, hall⟩ := takeNext_spec hone (inits_qtd none 0 true .tokenIn) hsome
    rw [handed_eq (by rw [controlQtds, Nat.cast_zero, if_pos rfl]) hpacket hall] at hts
    obtain rfl := Option.some.inj hts
    refine iff_of_true ⟨[], DataStage.done _ _, ?_⟩ rfl
    rw [List.nil_append, List.map_append, List.map_singleton, List.map_singleton,
      transaction_setup, transaction_status]
    rfl
  · have hne : (length : Int) ≠ 0 := by omega
    rw [controlQtds, if_neg hne] at hsome
    have hpackets : ∀ o n t, Inits blEhciNumQtds
        (blEhciInitQtd (some ⟨.data, o⟩) n t (blUsbDirectionPid setup))
        (initializedQtd (some ⟨.data, o⟩) n t (blUsbDirectionPid setup)) :=
      fun _ _ _ => inits_qtd _ _ _ _
    obtain ⟨is, cs, toggle, hcut, hall⟩ :=
      takeStages_spec (inits_qtd _ _ _ _) hpackets (inits_qtd _ _ _ _) hsome
    rw [handed_eq (by rw [controlQtds, if_neg hne]) hpacket hall] at hts
    obtain rfl := Option.some.inj hts
    refine iff_of_false (fun hperforms => ?_) hpos.ne'
    rw [List.map_cons, List.map_append, List.map_singleton, ← List.cons_append] at hperforms
    have hlast := congrArg Transaction.pid hperforms.last
    rw [transaction_status, statusTransaction, if_neg hpos.ne'] at hlast
    unfold blUsbDirectionPid blUsbStatusPid at hlast
    split_ifs at hlast <;> contradiction

end Ehci

/-! ## xHCI -/

namespace Xhci

def typeOf (trb : BlXhciTrb) : BitVec 32 := (trb.control >>> 10) &&& 0x3f

def Parameter.pointer : Parameter → Option Ptr
  | .buffer p => some p
  | .setupData _ => some ⟨.setup, 0⟩
  | _ => none

/-- The toggle of the data stage is kept by the controller. -/
def transaction (toggle : Bool) (trb : BlXhciTrb) : Transaction where
  pid :=
    if typeOf trb = 2 then .tokenSetup
    else if trb.control.getLsbD 16 then .tokenIn
    else .tokenOut
  toggle := if typeOf trb = 2 then false else if typeOf trb = 4 then true else toggle
  buffer := trb.parameter.pointer
  length := (trb.status &&& 0x1ffff).toNat

def transactions : Bool → List BlXhciTrb → List Transaction
  | _, [] => []
  | toggle, trb :: trbs => transaction toggle trb :: transactions (!toggle) trbs

/-- The TRBs that the transfer was queued as, if there was room for them before the Link TRB. -/
def handed (r : BlXhciRing) (packetSize : Nat) (setup : BlUsbSetupData) (length : Nat) :
    Option (List Transaction) :=
  match queueControl packetSize setup length r with
  | none => none
  | some r' =>
    if r'.enqueue ≤ blXhciTrTrbs - 1 then some (transactions false (r.between r')) else none

variable {r : BlXhciRing}

theorem transaction_dataStageTrb (off size : Nat) (toggle : Bool) :
    transaction toggle (dataStageTrb off size) =
      ⟨.tokenIn, toggle, some ⟨.data, off⟩, size % 131072⟩ := by
  have htype : typeOf (dataStageTrb off size) = 3 := by
    simp only [typeOf, dataStageTrb]
    decide
  have hdir : (dataStageTrb off size).control.getLsbD 16 = true := by
    simp only [dataStageTrb]
    decide
  have hlength : (transferLength size &&& 0x1ffff).toNat = size % 131072 := by
    have hmask : (0x1ffff : BitVec 32).toNat = 2 ^ 17 - 1 := rfl
    rw [BitVec.toNat_and, hmask, Nat.and_two_pow_sub_one_eq_mod, transferLength]
    simp
  unfold transaction
  rw [htype, hdir]
  refine (Transaction.mk.injEq ..).mpr ⟨rfl, rfl, rfl, hlength⟩

theorem transaction_setupStageTrb (setup : BlUsbSetupData) :
    transaction false (setupStageTrb setup) = setupTransaction := by
  have htype : typeOf (setupStageTrb setup) = 2 := by
    simp only [typeOf, setupStageTrb]
    decide
  have hlength : (transferLength 8 &&& 0x1ffff).toNat = 8 := by
    decide
  unfold transaction
  rw [htype]
  exact (Transaction.mk.injEq ..).mpr ⟨rfl, rfl, rfl, hlength⟩

theorem transactions_data {toggle toggle' : Bool} {length off : Nat} {cs : List (Bool × BlXhciTrb)}
    (h : Cut (fun o n b => (b, dataStageTrb o n)) packetSize toggle length off cs toggle')
    (rest : List BlXhciTrb) :
    transactions toggle (cs.map Prod.snd ++ rest) =
      cs.map (fun c => transaction c.1 c.2) ++ transactions toggle' rest := by
  induction h with
  | done => rfl
  | more _ _ ih =>
    rw [List.map_cons, List.cons_append, transactions, ih]
    rfl

/-- **The driver performs transfers from the device** of packets that fit into the length field: it
takes every transfer for one. -/
theorem handed_iff (hpacket : 0 < packetSize)
    (hts : handed r packetSize setup length = some ts) :
    ControlTransfer setup length packetSize ts ↔
      0 < length ∧ blUsbDirectionPid setup = .tokenIn ∧ min length packetSize < 131072 := by
  unfold handed at hts
  cases hqueue : queueControl packetSize setup length r with
  | none => simp [hqueue] at hts
  | some r' =>
    simp only [hqueue] at hts
    split_ifs at hts
    obtain ⟨cs, toggle, hcut, rfl⟩ := queueControl_spec hqueue
    rw [Int.toNat_natCast] at hcut
    obtain rfl := Option.some.inj hts
    have hstatus : transaction toggle statusStageTrb = ⟨.tokenOut, true, none, 0⟩ := by
      cases toggle <;> decide
    rw [between_foldl_queue, transactions, Bool.not_false, transactions_data hcut, transactions,
      transactions, transaction_setupStageTrb, hstatus]
    constructor
    · intro hperforms
      have hends := hperforms
      rw [← List.cons_append] at hends
      have hlast := congrArg Transaction.pid hends.last
      rw [statusTransaction] at hlast
      have hpos : 0 < length := by
        rcases Nat.eq_zero_or_pos length with rfl | hpos
        · simp at hlast
        · exact hpos
      have hin : blUsbDirectionPid setup = .tokenIn := by
        unfold blUsbDirectionPid blUsbStatusPid at *
        split_ifs at hlast ⊢ <;> simp_all
      have hstage := (ControlTransfer.data_iff hends.last).mp hperforms
      rw [hin] at hstage
      exact ⟨hpos, hin, (dataStage_iff_of_cut hcut hpacket
        (fun o n b => transaction_dataStageTrb o n b) (by decide)).mp hstage⟩
    · rintro ⟨hpos, hin, hfits⟩
      have hlast : (⟨.tokenOut, true, none, 0⟩ : Transaction) =
          statusTransaction setup length := by
        rw [statusTransaction, if_neg hpos.ne', hin]
        rfl
      rw [ControlTransfer.data_iff hlast, hin]
      exact dataStage_of_cut hcut hpacket (fun o n b => transaction_dataStageTrb o n b) hfits

end Xhci

/-! ## All four -/

namespace Usb

/-- **Which transfers each driver performs.** Without data xHCI does not, with data OHCI and EHCI do
not. -/
theorem controlTransfers_iff (setup : BlUsbSetupData) (length packetSize : Nat)
    (hpacket : 1 ≤ packetSize)
    (hdomain : 0 < length ∨ length = 0 ∧ blUsbDirectionPid setup = .tokenOut)
    (uhci : Uhci.BlUhciController) (address : BitVec 8) (speed : Uhci.BlUsbSpeed)
    (tds : Pool Ohci.BlOhciGeneralTd) (qtds : Pool Ehci.BlEhciQtd) (r : Xhci.BlXhciRing)
    (u o e x : List Transaction)
    (hu : Uhci.handed uhci packetSize address speed setup length = some u)
    (ho : Ohci.handed tds packetSize setup length = some o)
    (he : Ehci.handed qtds packetSize setup length = some e)
    (hx : Xhci.handed r packetSize setup length = some x) :
    (ControlTransfer setup length packetSize u ↔ min length packetSize < 2048) ∧
      (ControlTransfer setup length packetSize o ↔ length = 0) ∧
      (ControlTransfer setup length packetSize e ↔ length = 0) ∧
      (ControlTransfer setup length packetSize x ↔
        0 < length ∧ blUsbDirectionPid setup = .tokenIn ∧ min length packetSize < 131072) ∧
      ¬(ControlTransfer setup length packetSize u ∧ ControlTransfer setup length packetSize o ∧
        ControlTransfer setup length packetSize e ∧ ControlTransfer setup length packetSize x) := by
  have hdomain' := hdomain.imp_right And.right
  have hohci := Ohci.handed_iff hpacket hdomain' ho
  have hxhci := Xhci.handed_iff hpacket hx
  refine ⟨Uhci.handed_iff hpacket hdomain' hu, hohci, Ehci.handed_iff hpacket he, hxhci, ?_⟩
  rintro ⟨-, hperforms, -, hperforms'⟩
  have hzero := hohci.mp hperforms
  have hpos := (hxhci.mp hperforms').1
  omega

def freeTds : Pool Ohci.BlOhciGeneralTd := fun _ => ⟨false, none, ⟨0, none, none⟩⟩
def freeQtds : Pool Ehci.BlEhciQtd := fun _ => ⟨false, none, ⟨0, none⟩⟩

def setAddress : BlUsbSetupData := blUsbSetupDataFill 0 5 1 0 0

/-- What the first three drivers make of SET_ADDRESS, and what the last one does. -/
def withoutData (pid : BlUsbPid) : List Transaction := [setupTransaction, ⟨pid, true, none, 0⟩]

theorem setAddress_handed :
    Uhci.handed Uhci.zeroedHeap 8 0 .full setAddress 0 = some (withoutData .tokenIn) ∧
      Ohci.handed freeTds 8 setAddress 0 = some (withoutData .tokenIn) ∧
      Ehci.handed freeQtds 8 setAddress 0 = some (withoutData .tokenIn) ∧
      Xhci.handed Xhci.blXhciAllocTransferRing 8 setAddress 0 = some (withoutData .tokenOut) := by
  decide +kernel

theorem setAddress_iff :
    (ControlTransfer setAddress 0 8 (withoutData .tokenIn) ↔ min 0 8 < 2048) ∧
      (ControlTransfer setAddress 0 8 (withoutData .tokenIn) ↔ 0 = 0) ∧
      (ControlTransfer setAddress 0 8 (withoutData .tokenIn) ↔ 0 = 0) ∧
      (ControlTransfer setAddress 0 8 (withoutData .tokenOut) ↔
        0 < 0 ∧ blUsbDirectionPid setAddress = .tokenIn ∧ min 0 8 < 131072) ∧
      ¬(ControlTransfer setAddress 0 8 (withoutData .tokenIn) ∧
        ControlTransfer setAddress 0 8 (withoutData .tokenIn) ∧
        ControlTransfer setAddress 0 8 (withoutData .tokenIn) ∧
        ControlTransfer setAddress 0 8 (withoutData .tokenOut)) :=
  controlTransfers_iff setAddress 0 8 (by decide) (.inr ⟨rfl, by decide⟩) Uhci.zeroedHeap 0 .full
    freeTds freeQtds Xhci.blXhciAllocTransferRing _ _ _ _ setAddress_handed.1 setAddress_handed.2.1
    setAddress_handed.2.2.1 setAddress_handed.2.2.2

/-- The status stage of SET_ADDRESS goes the wrong way on xHCI. -/
theorem setAddress_differs :
    Xhci.handed Xhci.blXhciAllocTransferRing 8 setAddress 0 = some (withoutData .tokenOut) ∧
      blUsbDirectionPid setAddress = .tokenOut ∧
      ¬ControlTransfer setAddress 0 8 (withoutData .tokenOut) := by
  refine ⟨setAddress_handed.2.2.2, by decide, fun h => ?_⟩
  have hlast : (⟨.tokenOut, true, none, 0⟩ : Transaction) = statusTransaction setAddress 0 :=
    ControlTransfer.last (show ControlTransfer setAddress 0 8
      ([setupTransaction] ++ [⟨.tokenOut, true, none, 0⟩]) from h)
  exact absurd hlast (by decide)

end Usb

end BootLoader
