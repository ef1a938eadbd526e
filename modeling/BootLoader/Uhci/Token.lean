import BootLoader.Usb.Drivers

/-!
# The token of a UHCI descriptor

Its fields are shifted into place and put together without masks. Control transfers give the number
0 for the endpoint; all others give the address of the endpoint, with the direction in bit 7.
-/

open DescriptorPool

namespace BootLoader.Uhci

open Usb

/-- `endpoint_address` of a descriptor: bit 7 says that the endpoint is one to read from. -/
def endpointAddress (inward : Bool) (number : BitVec 4) : BitVec 8 :=
  BitVec.ofBool inward ++ (0 : BitVec 3) ++ number

/-- What the controller reads in a token. -/
structure Decodes (token : BitVec 32) (pid : BlUsbPid) (address : BitVec 8) (number : BitVec 4)
    (toggle : Bool) (length : Nat) : Prop where
  pid : token.setWidth 8 = blUsbPidFormatCheck (BlUsbPid.value pid)
  address : (token.extractLsb' 8 7).toNat = address.toNat
  number : token.extractLsb' 15 4 = number
  toggle : token.getLsbD 19 = toggle
  length : ((token >>> 21).toNat + 1) % 2048 = length

variable {pid : BlUsbPid} {address endpoint : BitVec 8} {number : BitVec 4} {toggle : Bool}
  {size : Nat}

/-! ## The fields -/

theorem pid_high (pid : BlUsbPid) (i j : Nat) (hj : 8 ≤ j) :
    (blUsbPidFormatCheck (BlUsbPid.value pid)).getLsbD (j + i) = false :=
  BitVec.getLsbD_of_ge _ _ (by omega)

theorem tdToken_address (haddress : address.toNat < 128) :
    ((tdToken pid address endpoint toggle size).extractLsb' 8 7).toNat = address.toNat := by
  have hfield : (tdToken pid address endpoint toggle size).extractLsb' 8 7 =
      address.extractLsb' 0 7 := by
    ext i hi
    simp only [tdToken, BitVec.getElem_extractLsb', BitVec.getLsbD_or, BitVec.getLsbD_setWidth,
      BitVec.getLsbD_shiftLeft, pid_high pid i 8 le_rfl]
    simp [show 8 + i < 32 by omega, show i < 32 by omega, show 8 + i < 15 by omega,
      show 8 + i < 19 by omega, show 8 + i < 21 by omega]
  rw [hfield, BitVec.extractLsb'_toNat, Nat.shiftRight_zero]
  exact Nat.mod_eq_of_lt haddress

theorem tdToken_number (haddress : address.toNat < 128) :
    (tdToken pid address endpoint toggle size).extractLsb' 15 4 = endpoint.extractLsb' 0 4 := by
  ext i hi
  have hlow : address.getLsbD (15 + i - 8) = false := by
    rw [← BitVec.testBit_toNat]
    refine Nat.testBit_lt_two_pow (Nat.lt_of_lt_of_le haddress ?_)
    exact Nat.pow_le_pow_right (n := 2) (by decide) (show 7 ≤ 15 + i - 8 by omega)
  simp only [tdToken, BitVec.getElem_extractLsb', BitVec.getLsbD_or, BitVec.getLsbD_setWidth,
    BitVec.getLsbD_shiftLeft, pid_high pid i 15 (by decide), hlow]
  simp [show 15 + i < 32 by omega, show i < 32 by omega, show 15 + i < 19 by omega,
    show 15 + i < 21 by omega]

theorem endpointAddress_number (inward : Bool) (number : BitVec 4) :
    (endpointAddress inward number).extractLsb' 0 4 = number := by
  revert number inward
  decide

theorem endpointAddress_bits (inward : Bool) (number : BitVec 4) :
    (endpointAddress inward number).getLsbD 4 = false ∧
      (endpointAddress inward number).toNat / 64 = if inward then 2 else 0 := by
  revert number inward
  decide

theorem toNat_lengthField_eq (size : Nat) : (lengthField size).toNat = (size + 2047) % 2048 := by
  have hmask : (0x7ff : BitVec 32).toNat = 2 ^ 11 - 1 := rfl
  unfold lengthField
  rw [BitVec.toNat_and, hmask, Nat.and_two_pow_sub_one_eq_mod, BitVec.toNat_sub,
    BitVec.toNat_ofNat]
  simp
  omega

theorem or_two_eq_iff (k : Nat) : k ||| 2 = k ↔ 2 ≤ k % 4 := by
  have hbit : k.testBit 1 = true ↔ 2 ≤ k % 4 := by
    rw [Nat.testBit_eq_decide_div_mod_eq, decide_eq_true_iff]
    omega
  rw [← hbit]
  constructor
  · intro h
    rw [← h, Nat.testBit_or]
    exact Bool.or_true _
  · intro h
    apply Nat.eq_of_testBit_eq
    intro i
    rw [Nat.testBit_or, show (2 : Nat) = 2 ^ 1 from rfl, Nat.testBit_two_pow]
    rcases eq_or_ne 1 i with rfl | hne
    · simp [h]
    · simp [hne]

/-- Bit 7 of the endpoint's address is bit 1 of the length less one. -/
theorem tdToken_length_iff (inward : Bool) (hsize : size < 2048) :
    ((tdToken pid address (endpointAddress inward number) toggle size >>> 21).toNat + 1) % 2048 =
        size ↔
      inward = false ∨ size % 4 = 0 ∨ size % 4 = 3 := by
  rw [tdToken_length, BitVec.toNat_or, toNat_lengthField_eq, BitVec.toNat_ofNat,
    (endpointAddress_bits inward number).2]
  have hfield : (size + 2047) % 2048 < 2 ^ 11 := Nat.mod_lt _ (by decide)
  cases inward with
  | false =>
    refine iff_of_true ?_ (.inl rfl)
    simp
    omega
  | true =>
    have hor : (size + 2047) % 2048 ||| 2 < 2 ^ 11 := Nat.or_lt_two_pow hfield (by decide)
    have hkept := or_two_eq_iff ((size + 2047) % 2048)
    rw [if_pos rfl, show 2 % 2 ^ 32 = 2 from rfl]
    constructor
    · intro h
      have hsame := hkept.mp (by omega)
      exact .inr (by omega)
    · intro h
      have hlow : 2 ≤ (size + 2047) % 2048 % 4 := by
        rcases h with h | h
        · cases h
        · omega
      rw [hkept.mpr hlow]
      omega

theorem tdToken_decodes_iff (inward : Bool) (haddress : address.toNat < 128) (hsize : size < 2048) :
    Decodes (tdToken pid address (endpointAddress inward number) toggle size) pid address number
        toggle size ↔
      inward = false ∨ size % 4 = 0 ∨ size % 4 = 3 := by
  rw [← @tdToken_length_iff pid address number toggle size inward hsize]
  refine ⟨Decodes.length, fun hlength =>
    ⟨tdToken_pid .., tdToken_address haddress, ?_, ?_, hlength⟩⟩
  · rw [tdToken_number haddress, endpointAddress_number]
  · rw [tdToken_toggle, (endpointAddress_bits inward number).1, Bool.or_false]

/-! ## Packets -/

/-- The packets of a control transfer have the endpoint 0, all others the one of a descriptor. -/
def TokensDecode (inward : Bool) (number : BitVec 4) (pid : BlUsbPid) (address : BitVec 8)
    (toggle : Bool) (size : Nat) : Prop :=
  ∀ speed buffer tds tds' i,
    (blUhciInitTd speed pid address 0 toggle size buffer tds = some (tds', i) →
      Decodes (tds' i).body.token pid address 0 toggle size) ∧
    (blUhciInitTd speed pid address (endpointAddress inward number) toggle size buffer tds =
        some (tds', i) →
      Decodes (tds' i).body.token pid address number toggle size)

theorem blUhciInitTd_token {speed : BlUsbSpeed} {buffer : Option Ptr} {tds tds' : Pool BlUhciTd}
    {i : Nat}
    (h : blUhciInitTd speed pid address endpoint toggle size buffer tds = some (tds', i)) :
    (tds' i).body.token = tdToken pid address endpoint toggle size := by
  obtain ⟨-, -, rfl⟩ := take_spec h
  rw [Function.update_self]
  rfl

theorem blUhciInitTd_exists (pid : BlUsbPid) (address endpoint : BitVec 8) (toggle : Bool)
    (size : Nat) : ∃ tds i,
      blUhciInitTd .full pid address endpoint toggle size none zeroedHeap.tds = some (tds, i) := by
  have hroom := (Built.nil blUhciNumTd zeroedHeap.tds).exists_take (fun _ _ => rfl) (by decide)
    (initializedTd .full pid address endpoint toggle size none)
  obtain ⟨⟨tds, i⟩, htake⟩ := Option.ne_none_iff_exists'.mp hroom
  exact ⟨tds, i, htake⟩

theorem TokensDecode.tdToken {inward : Bool}
    (h : TokensDecode inward number pid address toggle size) :
    Decodes (tdToken pid address (endpointAddress inward number) toggle size) pid address number
      toggle size := by
  obtain ⟨tds, i, htd⟩ :=
    blUhciInitTd_exists pid address (endpointAddress inward number) toggle size
  have hdecodes := (h .full none zeroedHeap.tds tds i).2 htd
  rwa [blUhciInitTd_token htd] at hdecodes

/-- **When the tokens are right.** For an endpoint to read from, the length less one needs its bit 1
to be set. -/
theorem tokensDecode_iff (inward : Bool) (number : BitVec 4) (pid : BlUsbPid) (address : BitVec 8)
    (toggle : Bool) (size : Nat) (haddress : address.toNat < 128) (hsize : size ≤ 1280) :
    TokensDecode inward number pid address toggle size ↔
      inward = false ∨ size % 4 = 0 ∨ size % 4 = 3 := by
  rw [← @tdToken_decodes_iff pid address number toggle size inward haddress (by omega)]
  refine ⟨TokensDecode.tdToken, fun h speed buffer tds tds' i => ⟨fun htd => ?_, fun htd => ?_⟩⟩
  · rw [blUhciInitTd_token htd]
    exact (@tdToken_decodes_iff pid address 0 toggle size false haddress (by omega)).mpr (.inl rfl)
  · rwa [blUhciInitTd_token htd]

/-- Full packets from an endpoint of 64 bytes. -/
theorem fullPacket_decodes : TokensDecode true 1 .tokenIn 5 true 64 :=
  (tokensDecode_iff true 1 .tokenIn 5 true 64 (by decide) (by decide)).mpr (.inr (.inl rfl))

/-- The status of a command is 13 bytes: 15 are asked for. -/
theorem statusPacket_not_decodes : ¬ ∀ inward number pid (address : BitVec 8) toggle size,
    address.toNat < 128 → size ≤ 1280 → TokensDecode inward number pid address toggle size := by
  intro h
  have hdecodes := (h true 1 .tokenIn 5 true 13 (by decide) (by decide)).tdToken
  have hkept := (tdToken_decodes_iff true (by decide) (by decide)).mp hdecodes
  revert hkept
  decide

end BootLoader.Uhci
