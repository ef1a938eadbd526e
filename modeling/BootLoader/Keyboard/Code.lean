import BootLoader.Lib.ByteMemory

/-!
# The PS/2 keyboard driver (`modules/keyboard/ps2-kbd/ps2-keyboard.c`)

Every call reads one byte from the controller, if there is one.
-/

open ByteMemory

namespace BootLoader.Keyboard

/-! ## Scan codes -/

def blPs2KeyboardUnprintableKey : BitVec 32 := 0xff000000
def blKeyLshift : BitVec 32 := 0x12 ||| blPs2KeyboardUnprintableKey
def blKeyRshift : BitVec 32 := 0x59 ||| blPs2KeyboardUnprintableKey

def char (c : Char) : BitVec 32 := BitVec.ofNat 32 c.toNat

/-- The rows of the table up to the last one that is not 0. The characters that are numbers here:
tab, newline, quotes, the back quote, the backslash, brackets, braces and parentheses. -/
def scanCodeSet2Rows : List (BitVec 32) := [
  0, 0, 0, 0,
  0, 0, 0, 0,
  0, 0, 0, 0,
  0, 0x9, 0x60, 0,
  0, 0, blKeyLshift, 0,
  0, char 'q', char '1', 0,
  0, 0, char 'z', char 's',
  char 'a', char 'w', char '2', 0,
  0, char 'c', char 'x', char 'd',
  char 'e', char '4', char '3', 0,
  0, char ' ', char 'v', char 'f',
  char 't', char 'r', char '5', 0,
  0, char 'n', char 'b', char 'h',
  char 'g', char 'y', char '6', 0,
  0, 0, char 'm', char 'j',
  char 'u', char '7', char '8', 0,
  0, char ',', char 'k', char 'i',
  char 'o', char '0', char '9', 0,
  0, char '.', char '/', char 'l',
  char ';', char 'p', char '-', 0,
  0, 0, 0x27, 0,
  0x5b, char '=', 0, 0,
  0, blKeyRshift, 0xa, 0x5d,
  0, 0x5c, 0, 0]

def scanCodeSet2WithShiftRows : List (BitVec 32) := [
  0, 0, 0, 0,
  0, 0, 0, 0,
  0, 0, 0, 0,
  0, 0x9, 0x60, 0,
  0, 0, blKeyLshift, 0,
  0, char 'Q', char '!', 0,
  0, 0, char 'Z', char 'S',
  char 'A', char 'W', char '@', 0,
  0, char 'C', char 'X', char 'D',
  char 'E', char '$', char '#', 0,
  0, char ' ', char 'V', char 'F',
  char 'T', char 'R', char '%', 0,
  0, char 'N', char 'B', char 'H',
  char 'G', char 'Y', char '^', 0,
  0, 0, char 'M', char 'J',
  char 'U', char '&', char '*', 0,
  0, char '<', char 'K', char 'I',
  char 'O', 0x29, 0x28, 0,
  0, char '>', char '?', char 'L',
  char ':', char 'P', char '_', 0,
  0, 0, 0x22, 0,
  0x7b, char '+', 0, 0,
  0, blKeyRshift, 0xa, 0x7d,
  0, char '|', 0, 0]

def scanCodeSet2 (scanCode : Byte) : BitVec 32 := scanCodeSet2Rows.getD scanCode.toNat 0

def scanCodeSet2WithShift (scanCode : Byte) : BitVec 32 :=
  scanCodeSet2WithShiftRows.getD scanCode.toNat 0

/-! ## One call -/

/-- The static variables of `bl_ps2_keyboard_get_key`. -/
structure KeyFlags where
  keyReleased : Bool
  lshiftPressed : Bool
  rshiftPressed : Bool
  deriving DecidableEq, Repr

def blPs2KeyboardNoKey : Int := -1

/-- `bl_ps2_keyboard_get_key`, with the byte that the controller has. -/
def blPs2KeyboardGetKey (output : Option Byte) (s : KeyFlags) : KeyFlags × Int :=
  match output with
  | none => (s, blPs2KeyboardNoKey)
  | some scanCode =>
    if scanCode = 0xff then (s, blPs2KeyboardNoKey)
    else if scanCode = 0xf0 then ({ s with keyReleased := true }, blPs2KeyboardNoKey)
    else
      let key := scanCodeSet2 scanCode
      if key &&& blPs2KeyboardUnprintableKey ≠ 0 then
        let s :=
          if key = blKeyLshift then { s with lshiftPressed := !s.lshiftPressed }
          else if key = blKeyRshift then { s with rshiftPressed := !s.rshiftPressed }
          else s
        ({ s with keyReleased := false }, blPs2KeyboardNoKey)
      else if !s.keyReleased then
        (s, if s.lshiftPressed || s.rshiftPressed then (scanCodeSet2WithShift scanCode).toInt
          else key.toInt)
      else ({ s with keyReleased := false }, blPs2KeyboardNoKey)

end BootLoader.Keyboard
