import BootLoader.Lib.ByteMemory

/-!
# The device's side of a bulk-only transport

A command wrapper, data for the host, a status wrapper, and then the next command. What the commands
mean is up to a target behind the transport. No command has data for the device.
-/

open ByteMemory

namespace BulkOnly

/-- What a target makes of a command block: data for the host, and a status. -/
abbrev Target (δ : Type*) := δ → List Byte → δ × List Byte × Byte

inductive Phase where
  | command
  | data (tag length : Nat) (left : List Byte) (status : Byte)
  | status (tag residue : Nat) (status : Byte)
  | halted
  deriving DecidableEq

structure Device (δ : Type*) where
  target : δ
  phase : Phase
  deriving DecidableEq

def cbwSignature : Nat := 0x43425355
def cswSignature : Nat := 0x53425355

def wrapperTag (bs : List Byte) : Nat := read32 (ofBytes bs) 4
def wrapperLength (bs : List Byte) : Nat := read32 (ofBytes bs) 8
def wrapperBlock (bs : List Byte) : List Byte := (bs.drop 15).take (ofBytes bs 14).toNat

/-- A wrapper that is valid and meaningful, of a command for unit 0 that has no data for the
device. -/
structure Wrapper (bs : List Byte) : Prop where
  whole : bs.length = 31
  signature : read32 (ofBytes bs) 0 = cbwSignature
  flags : ofBytes bs 12 = 0x80
  lun : ofBytes bs 13 = 0
  blockLength : 1 ≤ (ofBytes bs 14).toNat ∧ (ofBytes bs 14).toNat ≤ 16

instance (bs : List Byte) : Decidable (Wrapper bs) :=
  decidable_of_iff (bs.length = 31 ∧ read32 (ofBytes bs) 0 = cbwSignature ∧
      ofBytes bs 12 = 0x80 ∧ ofBytes bs 13 = 0 ∧
      1 ≤ (ofBytes bs 14).toNat ∧ (ofBytes bs 14).toNat ≤ 16)
    ⟨fun ⟨h₁, h₂, h₃, h₄, h₅⟩ => ⟨h₁, h₂, h₃, h₄, h₅⟩,
      fun ⟨h₁, h₂, h₃, h₄, h₅⟩ => ⟨h₁, h₂, h₃, h₄, h₅⟩⟩

def csw (tag residue : Nat) (status : Byte) : List Byte :=
  bytesLE 4 cswSignature ++ (bytesLE 4 tag ++ (bytesLE 4 residue ++ [status]))

@[simp] theorem length_csw (tag residue : Nat) (status : Byte) :
    (csw tag residue status).length = 13 := by simp [csw]

variable {δ : Type*}

/-- The host sends these bytes. -/
def Device.receive (exec : Target δ) (d : Device δ) (bs : List Byte) : Device δ :=
  match d.phase with
  | .command =>
    if Wrapper bs then
      let (target, data, status) := exec d.target (wrapperBlock bs)
      if wrapperLength bs = 0 then ⟨target, .status (wrapperTag bs) 0 status⟩
      else
        ⟨target, .data (wrapperTag bs) (wrapperLength bs) (data.take (wrapperLength bs)) status⟩
    else ⟨d.target, .halted⟩
  | _ => ⟨d.target, .halted⟩

/-- The host asks for `n` bytes. Fewer of them end the data. -/
def Device.send (d : Device δ) (n : Nat) : List Byte × Device δ :=
  if n = 0 then ([], d)
  else
    match d.phase with
    | .data tag length left status =>
      if left.length ≤ n then (left, ⟨d.target, .status tag (length - left.length) status⟩)
      else (left.take n, ⟨d.target, .data tag (length - n) (left.drop n) status⟩)
    | .status tag residue status =>
      if n < 13 then ((csw tag residue status).take n, ⟨d.target, .halted⟩)
      else (csw tag residue status, ⟨d.target, .command⟩)
    | _ => ([], d)

/-- A transfer that the device took part in. -/
inductive Move where
  | toDevice (bs : List Byte)
  | toHost (asked : Nat) (bs : List Byte)

/-- The moves are what the device does, from `d` to `d'`. -/
def Follows (exec : Target δ) : Device δ → List Move → Device δ → Prop
  | d, [], d' => d' = d
  | d, .toDevice bs :: moves, d' => Follows exec (d.receive exec bs) moves d'
  | d, .toHost n bs :: moves, d' => bs = (d.send n).1 ∧ Follows exec (d.send n).2 moves d'

instance decidableFollows [DecidableEq δ] (exec : Target δ) :
    (d : Device δ) → (moves : List Move) → (d' : Device δ) → Decidable (Follows exec d moves d')
  | d, [], d' => inferInstanceAs (Decidable (d' = d))
  | d, .toDevice bs :: moves, d' => decidableFollows exec (d.receive exec bs) moves d'
  | d, .toHost n bs :: moves, d' =>
    have := decidableFollows exec (d.send n).2 moves d'
    inferInstanceAs (Decidable (bs = (d.send n).1 ∧ Follows exec (d.send n).2 moves d'))

/-- What a target answers, cut to the length that was asked for. -/
def answer (exec : Target δ) (target : δ) (block : List Byte) (length : Nat) : List Byte :=
  (exec target block).2.1.take length

theorem length_answer_le (exec : Target δ) (target : δ) (block : List Byte) (length : Nat) :
    (answer exec target block length).length ≤ length := by
  rw [answer, List.length_take]
  exact Nat.min_le_left _ _

variable {exec : Target δ} {target : δ} {d' : Device δ} {bs data status : List Byte} {n : Nat}
  {moves : List Move}

theorem receive_wrapper (h : Wrapper bs) (hlength : 0 < wrapperLength bs) :
    Device.receive exec ⟨target, .command⟩ bs =
      ⟨(exec target (wrapperBlock bs)).1, .data (wrapperTag bs) (wrapperLength bs)
        (answer exec target (wrapperBlock bs) (wrapperLength bs))
        (exec target (wrapperBlock bs)).2.2⟩ := by
  simp only [Device.receive, if_pos h, if_neg hlength.ne']
  rfl

/-- **One command.** A host that sends a wrapper, asks for as many bytes as the wrapper says and
then for a status gets the target's answer and a status wrapper with the same tag, and the device
waits for the next command. -/
theorem follows_command (h : Wrapper bs) (hlength : 0 < wrapperLength bs)
    (hfollows : Follows exec ⟨target, .command⟩
      (.toDevice bs :: .toHost (wrapperLength bs) data :: .toHost 13 status :: moves) d') :
    data = answer exec target (wrapperBlock bs) (wrapperLength bs) ∧
      status = csw (wrapperTag bs) (wrapperLength bs - data.length)
        (exec target (wrapperBlock bs)).2.2 ∧
      Follows exec ⟨(exec target (wrapperBlock bs)).1, .command⟩ moves d' := by
  rw [Follows, receive_wrapper h hlength, Follows, Device.send, if_neg hlength.ne'] at hfollows
  simp only [if_pos (length_answer_le exec target (wrapperBlock bs) (wrapperLength bs))] at hfollows
  obtain ⟨hdata, hfollows⟩ := hfollows
  obtain ⟨hstatus, hfollows⟩ := hfollows
  rw [← hdata] at hstatus
  exact ⟨hdata, hstatus, hfollows⟩

end BulkOnly
