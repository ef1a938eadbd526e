import BootLoader.Lib.ByteMemory
import BootLoader.Lib.Numeral
import BootLoader.Video.Print

/-!
# Hexadecimal numbers (`core/video/print.c`, `core/video/screen.c`)

A text is what the calls of `bl_print_str`, or of `bl_screen_puts`, print one after the other.
-/

open ByteMemory Numeral

namespace BootLoader.Video

variable {w : Nat}

def hexChar (digit : Byte) : Byte := if digit < 0xa then 0x30 + digit else 0x61 + digit - 0xa

/-- `(number >> bits) & 0xf`, as a `bl_uint8_t`. -/
def hexDigit (number : BitVec w) (bits : Nat) : Byte := (number >>> bits &&& 0xf).setWidth 8

/-- The loop of `BL_PRINT_HEX` for `left` more digits: `bits` is `4 * left - 4`. -/
def printHexFrom (number : BitVec w) : Nat → Bool → List Byte
  | 0, _ => []
  | left + 1, zero =>
    let digit := hexDigit number (4 * left)
    if digit = 0 ∧ !zero then printHexFrom number left zero
    else hexChar digit :: printHexFrom number left (if digit = 0 then zero else true)

/-- `BL_PRINT_HEX`, for a number of `size` bytes. -/
def blPrintHexOf (size : Nat) (number : BitVec w) : List Byte :=
  if number = 0 then [0x30] else printHexFrom number (2 * size) false

def blPrintHex (number : BitVec 32) : List Byte := blPrintHexOf 4 number
def blPrintHex64 (number : BitVec 64) : List Byte := blPrintHexOf 8 number

/-- The loop of `bl_screen_puthex`. -/
def puthexFrom (number : BitVec 64) : Nat → Bool → List Byte
  | 0, _ => []
  | left + 1, wasNotZero =>
    let digit := hexDigit number (4 * left)
    if digit = 0 ∧ !wasNotZero then puthexFrom number left wasNotZero
    else
      let alpha := if digit < 0xa then 0x30 + digit else 0x61 + (digit - 0xa)
      alpha :: puthexFrom number left (if digit = 0 then wasNotZero else true)

def blScreenPuthex (number : BitVec 64) : List Byte :=
  if number = 0 then [0x30] else puthexFrom number 16 false

/-! ## What a hexadecimal number is -/

def hexValue (c : Byte) : Option Nat :=
  if 0x30 ≤ c.toNat ∧ c.toNat ≤ 0x39 then some (c.toNat - 0x30)
  else if 0x61 ≤ c.toNat ∧ c.toNat ≤ 0x66 then some (c.toNat - 0x61 + 10)
  else none

/-- The shortest lower-case text that is read as the number. -/
structure HexText (number : Nat) (text : List Byte) : Prop where
  parsed : parse 16 hexValue text = some number
  noLeadingZero : number ≠ 0 → text.head? ≠ some 0x30
  zero : number = 0 → text = [0x30]
  shortest : ∀ other, parse 16 hexValue other = some number → text.length ≤ other.length

/-! ## Digits -/

/-- The character of a digit below 16. -/
def charOf (d : Nat) : Byte := hexChar (BitVec.ofNat 8 d)

theorem hexValue_charOf : ∀ d < 16, hexValue (charOf d) = some d := by decide

theorem charOf_zero_iff : ∀ d < 16, charOf d = 0x30 ↔ d = 0 := by decide

theorem hexValue_lt (c : Byte) (d : Nat) (h : hexValue c = some d) : d < 16 := by
  unfold hexValue at h
  split_ifs at h <;> cases h <;> omega

theorem toNat_hexDigit (number : BitVec w) (hw : 4 ≤ w) (left : Nat) :
    (hexDigit number (4 * left)).toNat = number.toNat / 16 ^ left % 16 := by
  have hmask : (0xf : BitVec w).toNat = 2 ^ 4 - 1 := by
    have hlt : 15 < 2 ^ w :=
      (show 15 < 2 ^ 4 by omega).trans_le (Nat.pow_le_pow_right (by omega) hw)
    exact Nat.mod_eq_of_lt hlt
  unfold hexDigit
  rw [BitVec.toNat_setWidth, BitVec.toNat_and, BitVec.toNat_ushiftRight, hmask,
    Nat.and_two_pow_sub_one_eq_mod, Nat.shiftRight_eq_div_pow, pow_mul, show 2 ^ 4 = 16 by rfl]
  omega

/-- The digits that the loop prints. -/
def digitsFrom (n : Nat) : Nat → Bool → List Nat
  | 0, _ => []
  | left + 1, zero =>
    let d := n / 16 ^ left % 16
    if d = 0 ∧ zero = false then digitsFrom n left zero else d :: digitsFrom n left true

variable {n left : Nat}

theorem digitsFrom_lt {zero : Bool} : ∀ d ∈ digitsFrom n left zero, d < 16 := by
  induction left generalizing zero with
  | zero => simp [digitsFrom]
  | succ left ih =>
    unfold digitsFrom
    dsimp only
    split_ifs
    · exact ih
    · intro d hd
      rcases List.mem_cons.mp hd with rfl | hd
      · exact Nat.mod_lt _ (by omega)
      · exact ih d hd

theorem length_digitsFrom (n left : Nat) : (digitsFrom n left true).length = left := by
  induction left with
  | zero => rfl
  | succ left ih => simp [digitsFrom, ih]

/-- Only zeros are left out. -/
theorem value_digitsFrom (n left : Nat) (zero : Bool) :
    value 16 (digitsFrom n left zero) = n % 16 ^ left := by
  induction left generalizing zero with
  | zero => simp [digitsFrom, Nat.mod_one]
  | succ left ih =>
    have hsplit : n % 16 ^ (left + 1) = n % 16 ^ left + 16 ^ left * (n / 16 ^ left % 16) := by
      rw [pow_succ, Nat.mod_mul]
    unfold digitsFrom
    dsimp only
    split_ifs with hskip
    · rw [ih, hsplit, hskip.1, Nat.mul_zero, Nat.add_zero]
    · rw [value_cons, length_digitsFrom, ih, hsplit, Nat.add_comm]

theorem head_digitsFrom (n left : Nat) : (digitsFrom n left false).head? ≠ some 0 := by
  induction left with
  | zero => simp [digitsFrom]
  | succ left ih =>
    unfold digitsFrom
    dsimp only
    split_ifs with hskip
    · exact ih
    · simpa using hskip

/-- Without its leading zeros a number is its numeral. -/
theorem digitsFrom_eq_numeral (h : n < 16 ^ left) (hne : n ≠ 0) :
    digitsFrom n left false = numeral 16 n := by
  have hvalue := value_digitsFrom n left false
  rw [Nat.mod_eq_of_lt h] at hvalue
  have hnil : digitsFrom n left false ≠ [] := by
    intro hempty
    rw [hempty, value_nil] at hvalue
    exact hne hvalue.symm
  rw [eq_numeral (by omega) digitsFrom_lt hnil (head_digitsFrom n left), hvalue]

/-! ## What is printed -/

theorem hexDigit_eq (number : BitVec w) (hw : 4 ≤ w) (left : Nat) :
    hexDigit number (4 * left) = BitVec.ofNat 8 (number.toNat / 16 ^ left % 16) := by
  apply BitVec.eq_of_toNat_eq
  rw [toNat_hexDigit number hw, BitVec.toNat_ofNat]
  omega

theorem hexDigit_eq_zero_iff (number : BitVec w) (hw : 4 ≤ w) (left : Nat) :
    hexDigit number (4 * left) = 0 ↔ number.toNat / 16 ^ left % 16 = 0 := by
  rw [← toNat_hexDigit number hw]
  exact ⟨fun h => by rw [h]; rfl, fun h => BitVec.eq_of_toNat_eq h⟩

theorem printHexFrom_eq (number : BitVec w) (hw : 4 ≤ w) (left : Nat) (zero : Bool) :
    printHexFrom number left zero = (digitsFrom number.toNat left zero).map charOf := by
  induction left generalizing zero with
  | zero => rfl
  | succ left ih =>
    have hzero := hexDigit_eq_zero_iff number hw left
    unfold printHexFrom digitsFrom
    simp only [hzero, ih]
    rw [hexDigit_eq number hw]
    cases zero <;> split_ifs <;> simp_all [charOf]

theorem puthexFrom_eq (number : BitVec 64) (left : Nat) (wasNotZero : Bool) :
    puthexFrom number left wasNotZero = printHexFrom number left wasNotZero := by
  have halpha : ∀ digit : Byte, 0x61 + (digit - 0xa) = 0x61 + digit - 0xa := by
    intro digit
    rw [BitVec.sub_eq_add_neg, BitVec.sub_eq_add_neg, BitVec.add_assoc]
  induction left generalizing wasNotZero with
  | zero => rfl
  | succ left ih =>
    unfold puthexFrom printHexFrom
    simp only [ih, halpha, hexChar]

theorem blPrintHexOf_eq {size : Nat} (number : BitVec w) (hw : w = 8 * size) (hsize : 0 < size) :
    blPrintHexOf size number = (numeral 16 number.toNat).map charOf := by
  unfold blPrintHexOf
  split_ifs with hzero
  · rw [hzero]
    simp [numeral]
    decide
  · have hlt : number.toNat < 16 ^ (2 * size) := by
      rw [show 16 = 2 ^ 4 by rfl, ← pow_mul, show 4 * (2 * size) = w by omega]
      exact number.isLt
    rw [printHexFrom_eq number (by omega), digitsFrom_eq_numeral hlt]
    exact fun h => hzero (BitVec.eq_of_toNat_eq (by simpa using h))

theorem blScreenPuthex_eq (number : BitVec 64) : blScreenPuthex number = blPrintHex64 number := by
  unfold blScreenPuthex blPrintHex64 blPrintHexOf
  rw [puthexFrom_eq]

theorem hexText_numeral (n : Nat) : HexText n ((numeral 16 n).map charOf) := by
  have hlt : ∀ d ∈ numeral 16 n, d < 16 := by
    unfold numeral
    split_ifs
    · simp
    · exact fun d hd => Nat.digits_lt_base (by omega) (List.mem_reverse.mp hd)
  constructor
  · rw [parse_map hexValue_charOf hlt (numeral_ne_nil 16 n), value_numeral]
  · intro hne hhead
    rw [List.head?_map, Option.map_eq_some_iff] at hhead
    obtain ⟨d, hd, hchar⟩ := hhead
    have hzero := (charOf_zero_iff d (hlt d (List.mem_of_head? hd))).mp hchar
    exact numeral_head 16 hne (hzero ▸ hd)
  · intro hzero
    rw [hzero]
    rfl
  · intro other hother
    rw [List.length_map]
    exact length_numeral_le_of_parse (by omega) hexValue_lt hother

/-- **Each of the three prints the shortest hexadecimal text**, and all of them the same one. -/
theorem hexadecimal_printed :
    (∀ number : BitVec 32, HexText number.toNat (blPrintHex number)) ∧
      (∀ number : BitVec 64, HexText number.toNat (blPrintHex64 number) ∧
        HexText number.toNat (blScreenPuthex number)) ∧
      ∀ number : BitVec 32, blPrintHex64 (number.setWidth 64) = blPrintHex number ∧
        blScreenPuthex (number.setWidth 64) = blPrintHex number := by
  have hshort : ∀ number : BitVec 32,
      blPrintHex number = (numeral 16 number.toNat).map charOf :=
    fun number => blPrintHexOf_eq number rfl (by omega)
  have hlong : ∀ number : BitVec 64,
      blPrintHex64 number = (numeral 16 number.toNat).map charOf :=
    fun number => blPrintHexOf_eq number rfl (by omega)
  have hsame : ∀ number : BitVec 32,
      blPrintHex64 (number.setWidth 64) = blPrintHex number := by
    intro number
    rw [hlong, hshort, BitVec.toNat_setWidth_of_le (by omega)]
  refine ⟨fun number => ?_, fun number => ?_, fun number => ⟨hsame number, ?_⟩⟩
  · rw [hshort]
    exact hexText_numeral _
  · rw [blScreenPuthex_eq, hlong]
    exact ⟨hexText_numeral _, hexText_numeral _⟩
  · rw [blScreenPuthex_eq]
    exact hsame number

example : blPrintHex64 0x1a0b = textOf "1a0b" := by decide

end BootLoader.Video
