import BootLoader.Keyboard.Code
import Mathlib.Data.List.Induction
import Mathlib.Logic.Function.Basic

/-!
# The shift keys

The driver turns a flag over at every byte of a shift key, so a shift key that repeats while it is
held turns its flag over as well.
-/

open ByteMemory

namespace BootLoader.Keyboard

/-! ## A keyboard -/

/-- The make code of a key. -/
abbrev Key := { code : Byte // code ≠ 0xf0 ∧ code ≠ 0xff }

def lshift : Key := ⟨0x12, by decide⟩
def rshift : Key := ⟨0x59, by decide⟩

inductive KeyEvent where
  | press (key : Key)
  /-- Of a key that is held. -/
  | again (key : Key)
  | release (key : Key)
  deriving DecidableEq

abbrev Held := Key → Bool

namespace KeyEvent

def key : KeyEvent → Key
  | press key => key
  | again key => key
  | release key => key

def sent : KeyEvent → List Byte
  | press key => [key.1]
  | again key => [key.1]
  | release key => [0xf0, key.1]

def possible (held : Held) : KeyEvent → Prop
  | press key => held key = false
  | again key => held key = true
  | release key => held key = true

def after (held : Held) : KeyEvent → Held
  | press key => Function.update held key true
  | again _ => held
  | release key => Function.update held key false

end KeyEvent

/-- The keys that are held after some events, none having been held at first. -/
def heldAfter (events : List KeyEvent) : Held :=
  events.foldl (fun held e => e.after held) fun _ => false

/-- The events of a keyboard: only what is up is pressed, and only what is held repeats or is
released. -/
def Physical (events : List KeyEvent) : Prop :=
  ∀ before e behind, events = before ++ e :: behind → e.possible (heldAfter before)

/-! ## The driver -/

def readBytes (s : KeyFlags) : List Byte → KeyFlags × List Int
  | [] => (s, [])
  | b :: bs =>
    let (s, key) := blPs2KeyboardGetKey (some b) s
    let (s, keys) := readBytes s bs
    (s, key :: keys)

/-- The flags after the driver has read what the events sent. -/
def flagsAfter (events : List KeyEvent) : KeyFlags :=
  events.foldl (fun s e => (readBytes s e.sent).1) ⟨false, false, false⟩

/-- What the calls return that read the bytes of an event. -/
def answers (before : List KeyEvent) (e : KeyEvent) : List Int :=
  (readBytes (flagsAfter before) e.sent).2

/-! ## What should be answered -/

def Printable (key : Key) : Prop :=
  scanCodeSet2 key.1 ≠ 0 ∧ scanCodeSet2 key.1 &&& blPs2KeyboardUnprintableKey = 0

/-- The character of a key, with a shift key held or without. -/
def character (shifted : Bool) (key : Key) : Int :=
  if shifted then (scanCodeSet2WithShift key.1).toInt else (scanCodeSet2 key.1).toInt

def shiftHeld (held : Held) : Bool := held lshift || held rshift

def Answered (before : List KeyEvent) : KeyEvent → Prop
  | .press key => Printable key →
    answers before (.press key) = [character (shiftHeld (heldAfter before)) key]
  | .again key => Printable key →
    answers before (.again key) = [character (shiftHeld (heldAfter before)) key]
  | .release key => answers before (.release key) = [blPs2KeyboardNoKey, blPs2KeyboardNoKey]

def AllAnswered (events : List KeyEvent) : Prop :=
  ∀ before e behind, events = before ++ e :: behind → Answered before e

/-- The key has repeated an odd number of times. -/
def oddRepeats (events : List KeyEvent) (key : Key) : Bool := events.count (.again key) % 2 = 1

/-- The flags of the shift keys say whether one is held: those that have repeated an odd number of
times are turned over. -/
def FlagsTell (before : List KeyEvent) : Prop :=
  (heldAfter before lshift != oddRepeats before lshift ||
    heldAfter before rshift != oddRepeats before rshift) = shiftHeld (heldAfter before)

/-- The event makes a key with two different characters. -/
def KeyEvent.TwoCharacters : KeyEvent → Prop
  | .press key => Printable key ∧ character true key ≠ character false key
  | .again key => Printable key ∧ character true key ≠ character false key
  | .release _ => False

/-! ## One event -/

theorem heldAfter_concat (events : List KeyEvent) (e : KeyEvent) :
    heldAfter (events ++ [e]) = e.after (heldAfter events) := by
  simp [heldAfter]

theorem flagsAfter_concat (events : List KeyEvent) (e : KeyEvent) :
    flagsAfter (events ++ [e]) = (readBytes (flagsAfter events) e.sent).1 := by
  simp [flagsAfter]

theorem unprintable_iff : ∀ code : Byte,
    scanCodeSet2 code &&& blPs2KeyboardUnprintableKey ≠ 0 ↔ code = 0x12 ∨ code = 0x59 := by
  decide +kernel

variable {key : Key} {s : KeyFlags} {events before behind : List KeyEvent} {e : KeyEvent}

theorem getKey_key (key : Key) (s : KeyFlags) : blPs2KeyboardGetKey (some key.1) s =
    if key = lshift then ({ s with keyReleased := false, lshiftPressed := !s.lshiftPressed }, -1)
    else if key = rshift then
      ({ s with keyReleased := false, rshiftPressed := !s.rshiftPressed }, -1)
    else if s.keyReleased then ({ s with keyReleased := false }, -1)
    else (s, character (s.lshiftPressed || s.rshiftPressed) key) := by
  obtain ⟨code, hrelease, herror⟩ := key
  unfold blPs2KeyboardGetKey
  simp only [if_neg hrelease, if_neg herror, Subtype.ext_iff, lshift, rshift]
  rcases eq_or_ne code 0x12 with rfl | hleft
  · rfl
  rcases eq_or_ne code 0x59 with rfl | hright
  · rfl
  have hplain : ¬(scanCodeSet2 code &&& blPs2KeyboardUnprintableKey ≠ 0) := by
    rw [unprintable_iff]
    exact fun h => h.elim hleft hright
  rw [if_neg hplain, if_neg hleft, if_neg hright]
  cases s.keyReleased <;> rfl

theorem getKey_released (s : KeyFlags) :
    blPs2KeyboardGetKey (some 0xf0) s = ({ s with keyReleased := true }, -1) := rfl

theorem readBytes_make (key : Key) (s : KeyFlags) :
    readBytes s [key.1] =
      ((blPs2KeyboardGetKey (some key.1) s).1, [(blPs2KeyboardGetKey (some key.1) s).2]) := rfl

/-- A shift key turns its flag over, another one leaves the flags alone. -/
theorem readBytes_release (key : Key) (s : KeyFlags) :
    readBytes s [0xf0, key.1] =
      (⟨false, s.lshiftPressed != decide (key = lshift),
        s.rshiftPressed != decide (key = rshift)⟩, [-1, -1]) := by
  have hne : rshift ≠ lshift := by decide
  simp only [readBytes, getKey_released, getKey_key]
  rcases eq_or_ne key lshift with rfl | hleft
  · simp [hne.symm]
  rcases eq_or_ne key rshift with rfl | hright
  · simp [hne]
  · simp [hleft, hright]

/-! ## The flags along a stream -/

/-- The flag of a shift key is whether it is held, turned over by each repeat. -/
structure FlagsMatch (events : List KeyEvent) : Prop where
  released : (flagsAfter events).keyReleased = false
  left : (flagsAfter events).lshiftPressed = (heldAfter events lshift != oddRepeats events lshift)
  right : (flagsAfter events).rshiftPressed = (heldAfter events rshift != oddRepeats events rshift)

theorem readBytes_make_flags (key : Key) (h : s.keyReleased = false) :
    (readBytes s [key.1]).1 =
      ⟨false, s.lshiftPressed != decide (key = lshift),
        s.rshiftPressed != decide (key = rshift)⟩ := by
  have hne : rshift ≠ lshift := by decide
  obtain ⟨released, left, right⟩ := s
  rw [readBytes_make, getKey_key]
  rcases eq_or_ne key lshift with rfl | hleft
  · simp [hne.symm]
  rcases eq_or_ne key rshift with rfl | hright
  · simp [hne]
  · simp_all

theorem readBytes_sent (e : KeyEvent) (h : s.keyReleased = false) :
    (readBytes s e.sent).1 =
      ⟨false, s.lshiftPressed != decide (e.key = lshift),
        s.rshiftPressed != decide (e.key = rshift)⟩ := by
  cases e with
  | press key => exact readBytes_make_flags key h
  | again key => exact readBytes_make_flags key h
  | release key => exact congrArg Prod.fst (readBytes_release key s)

theorem oddRepeats_concat (events : List KeyEvent) (e : KeyEvent) (key : Key) :
    oddRepeats (events ++ [e]) key = (oddRepeats events key != decide (e = .again key)) := by
  unfold oddRepeats
  rw [List.count_append, List.count_singleton]
  rcases eq_or_ne e (.again key) with rfl | hne
  · rcases Nat.mod_two_eq_zero_or_one (events.count (.again key)) with heven | hodd
    · simp [Nat.add_mod, heven]
    · simp [Nat.add_mod, hodd]
  · simp [hne]

/-- Each event turns over what its own key's flag should be. -/
theorem heldAfter_turned (hpossible : e.possible (heldAfter events)) (key : Key) :
    (heldAfter (events ++ [e]) key != oddRepeats (events ++ [e]) key) =
      ((heldAfter events key != oddRepeats events key) != decide (e.key = key)) := by
  rw [heldAfter_concat, oddRepeats_concat]
  rcases eq_or_ne e.key key with rfl | hne
  · cases e <;> simp_all [KeyEvent.after, KeyEvent.possible, KeyEvent.key]
  · have hsame : e.after (heldAfter events) key = heldAfter events key := by
      cases e with
      | press _ => exact Function.update_of_ne hne.symm _ _
      | again _ => rfl
      | release _ => exact Function.update_of_ne hne.symm _ _
    have hrepeat : e ≠ .again key := fun heq => hne (by rw [heq]; rfl)
    simp [hsame, hne, hrepeat]

theorem FlagsMatch.concat (h : FlagsMatch events) (hpossible : e.possible (heldAfter events)) :
    FlagsMatch (events ++ [e]) := by
  obtain ⟨hreleased, hleft, hright⟩ := h
  have hflags := readBytes_sent e hreleased
  rw [← flagsAfter_concat] at hflags
  constructor
  · rw [hflags]
  · rw [hflags, heldAfter_turned hpossible, ← hleft]
  · rw [hflags, heldAfter_turned hpossible, ← hright]

theorem Physical.flagsMatch (h : Physical (before ++ behind)) : FlagsMatch before := by
  induction before using List.reverseRecOn generalizing behind with
  | nil => exact ⟨rfl, rfl, rfl⟩
  | append_singleton before e ih =>
    rw [List.append_assoc] at h
    exact (ih h).concat (h before e behind rfl)

/-! ## What is answered -/

theorem Printable.ne_shift (h : Printable key) : key ≠ lshift ∧ key ≠ rshift := by
  have hplain := (unprintable_iff key.1).not.mp (not_not.mpr h.2)
  rw [not_or] at hplain
  exact ⟨fun heq => hplain.1 (congrArg Subtype.val heq),
    fun heq => hplain.2 (congrArg Subtype.val heq)⟩

theorem readBytes_printable (h : Printable key) (hreleased : s.keyReleased = false) :
    (readBytes s [key.1]).2 = [character (s.lshiftPressed || s.rshiftPressed) key] := by
  obtain ⟨hleft, hright⟩ := h.ne_shift
  rw [readBytes_make, getKey_key, if_neg hleft, if_neg hright, hreleased, if_neg (by simp)]

theorem character_eq_iff {a b : Bool} :
    character a key = character b key ↔
      (character true key ≠ character false key → a = b) := by
  constructor
  · intro h hne
    cases a <;> cases b <;> simp_all
  · intro h
    by_cases hne : character true key = character false key
    · cases a <;> cases b <;> simp_all
    · rw [h hne]

theorem FlagsMatch.answered_iff (h : FlagsMatch before) :
    Answered before e ↔ (e.TwoCharacters → FlagsTell before) := by
  have hmake : ∀ key, Printable key →
      ((readBytes (flagsAfter before) [key.1]).2 =
        [character (shiftHeld (heldAfter before)) key] ↔
      (Printable key ∧ character true key ≠ character false key → FlagsTell before)) := by
    intro key hprintable
    rw [readBytes_printable hprintable h.released, h.left, h.right, List.singleton_inj,
      character_eq_iff]
    exact ⟨fun hall htwo => hall htwo.2, fun hall hne => hall ⟨hprintable, hne⟩⟩
  cases e with
  | press key =>
    constructor
    · exact fun hanswer htwo => (hmake key htwo.1).mp (hanswer htwo.1) htwo
    · exact fun htell hprintable => (hmake key hprintable).mpr htell
  | again key =>
    constructor
    · exact fun hanswer htwo => (hmake key htwo.1).mp (hanswer htwo.1) htwo
    · exact fun htell hprintable => (hmake key hprintable).mpr htell
  | release key =>
    refine iff_of_true ?_ False.elim
    exact congrArg Prod.snd (readBytes_release key (flagsAfter before))

/-- **When every key gives the right character.** -/
theorem keys_answered_iff (events : List KeyEvent) (hphysical : Physical events) :
    AllAnswered events ↔
      ∀ before e behind, events = before ++ e :: behind → e.TwoCharacters → FlagsTell before := by
  constructor
  · rintro hall before e behind rfl
    exact hphysical.flagsMatch.answered_iff.mp (hall before e behind rfl)
  · rintro hall before e behind rfl
    exact hphysical.flagsMatch.answered_iff.mpr (hall before e behind rfl)

/-! ## Streams -/

theorem physical_nil : Physical [] := by
  intro before e behind h
  simp at h

theorem Physical.concat (h : Physical events) (hpossible : e.possible (heldAfter events)) :
    Physical (events ++ [e]) := by
  intro before e' behind heq
  cases behind using List.reverseRecOn with
  | nil =>
    obtain ⟨rfl, hlast⟩ := List.append_inj' heq rfl
    obtain rfl := List.singleton_inj.mp hlast
    exact hpossible
  | append_singleton behind last =>
    rw [← List.cons_append, ← List.append_assoc] at heq
    exact h before e' behind (List.append_inj' heq rfl).1

/-- While no shift key repeats, the flags tell what is held. -/
theorem flagsTell_of_no_repeats (hleft : .again lshift ∉ events) (hright : .again rshift ∉ events) :
    FlagsTell events := by
  unfold FlagsTell oddRepeats shiftHeld
  rw [List.count_eq_zero_of_not_mem hleft, List.count_eq_zero_of_not_mem hright]
  simp

/-- The key with the characters a and A. -/
def keyA : Key := ⟨0x1c, by decide⟩

/-- Shift, a, and both up again. -/
def capitalA : List KeyEvent := [.press lshift, .press keyA, .release keyA, .release lshift]

theorem capitalA_physical : Physical capitalA := by
  have hshift : Physical [.press lshift] := physical_nil.concat rfl
  have hkey : Physical [.press lshift, .press keyA] := hshift.concat rfl
  have hup : Physical [.press lshift, .press keyA, .release keyA] := hkey.concat rfl
  exact hup.concat rfl

theorem capitalA_answered : AllAnswered capitalA := by
  refine (keys_answered_iff capitalA capitalA_physical).mpr fun before e behind heq _ => ?_
  have hnone : ∀ key, KeyEvent.again key ∉ before := by
    intro key hmem
    have hall : KeyEvent.again key ∈ capitalA := heq ▸ List.mem_append_left _ hmem
    simp [capitalA] at hall
  exact flagsTell_of_no_repeats (hnone lshift) (hnone rshift)

/-- Shift is held until it repeats once, and the next key gives a small letter. -/
theorem held_shift_not_seen : ¬ ∀ events, Physical events → AllAnswered events := by
  intro h
  have hshift : Physical [.press lshift] := physical_nil.concat rfl
  have hagain : Physical [.press lshift, .again lshift] := hshift.concat rfl
  have hkey : Physical [.press lshift, .again lshift, .press keyA] := hagain.concat rfl
  have hanswer := h _ hkey [.press lshift, .again lshift] (.press keyA) [] rfl (by
    unfold Printable
    decide)
  exact absurd hanswer (by decide)

end BootLoader.Keyboard
