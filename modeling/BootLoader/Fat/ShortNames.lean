import BootLoader.Fat.Named
import Mathlib.Data.List.DropRight

/-!
# Short names as the format has them

The bytes put into the block are those of the name. The zero behind them is not among them, so it
has to be there from before.
-/

open ByteMemory

namespace BootLoader.Fat

open Driver

variable {env : Env} {world world' : World} {entry : BlFatDirEntry} {block : Nat} {s : Mem}

/-- `sizeof(entry->name) + sizeof('.')`; a character constant is an `int`. -/
def shortNameAllocation : Nat := 11 + 4

/-! ## What the format says -/

def unpadded (bytes : List Byte) : List Byte := bytes.rdropWhile (· = blFatNamePadding)

def regularName (entry : BlFatDirEntry) : List Byte :=
  let extension := bytesAt entry 8 3
  unpadded (bytesAt entry 0 8) ++
    if extension.all (· = blFatNamePadding) then [] else 0x2e :: unpadded extension

/-- The memory from 0 on is the C string `str`, and its zero is one of the first `size` bytes. -/
structure HoldsString (s : Mem) (size : Nat) (str : List Byte) : Prop where
  bytes : ∀ k (h : k < str.length), s k = str[k]
  noZero : 0 ∉ str
  terminated : s str.length = 0
  inside : str.length < size

/-! ## The backward scans -/

theorem bytesAt_succ (entry : BlFatDirEntry) (off n : Nat) :
    bytesAt entry off (n + 1) = bytesAt entry off n ++ [entry (off + n)] := by
  simp [bytesAt, List.range_succ]

@[simp] theorem bytesAt_length (entry : BlFatDirEntry) (off n : Nat) :
    (bytesAt entry off n).length = n := by
  simp [bytesAt]

theorem unpadded_bytesAt (entry : BlFatDirEntry) (off n : Nat) :
    unpadded (bytesAt entry off n) = bytesAt entry off (unpaddedLength entry off n) := by
  induction n with
  | zero => rfl
  | succ n ih =>
    rw [bytesAt_succ, unpaddedLength, unpadded]
    split
    · rename_i hpad
      rw [List.rdropWhile_concat_pos _ _ _ (by simp [hpad])]
      exact ih
    · rename_i hpad
      rw [List.rdropWhile_concat_neg _ _ _ (by simp [hpad]), bytesAt_succ]

theorem unpaddedLength_le (entry : BlFatDirEntry) (off n : Nat) :
    unpaddedLength entry off n ≤ n := by
  have hprefix := List.rdropWhile_prefix (· = blFatNamePadding) (bytesAt entry off n)
  have hlen := hprefix.length_le
  rwa [← unpadded, unpadded_bytesAt, bytesAt_length, bytesAt_length] at hlen

theorem all_padding_iff (entry : BlFatDirEntry) (off n : Nat) :
    (bytesAt entry off n).all (· = blFatNamePadding) = true ↔ unpaddedLength entry off n = 0 := by
  rw [← bytesAt_length entry off (unpaddedLength entry off n), ← unpadded_bytesAt,
    List.length_eq_zero_iff, unpadded, List.rdropWhile_eq_nil_iff]
  simp

theorem shortName_eq (entry : BlFatDirEntry) : shortName entry = regularName entry := by
  rw [shortName, regularName]
  simp only [unpadded_bytesAt, all_padding_iff]
  split
  · rw [List.append_nil]
  · rfl

theorem regularName_length (entry : BlFatDirEntry) :
    (regularName entry).length < shortNameAllocation := by
  have hname := unpaddedLength_le entry 0 8
  have hextension := unpaddedLength_le entry 8 3
  rw [← shortName_eq, shortName, shortNameAllocation]
  split
  · simp only [bytesAt_length]
    omega
  · simp only [List.length_append, List.length_cons, bytesAt_length]
    omega

/-! ## What the block holds -/

theorem short_name_block
    (h : blFatShortNameToRegularName env world entry = (world', some (block, s))) :
    s = fun k => (regularName entry).getD k (world.bytes block k) := by
  have hbytes : (world.alloc env).1.bytes = world.bytes := by
    rw [World.alloc]
    split <;> rfl
  rw [blFatShortNameToRegularName, shortName_eq] at h
  split at h
  · simp at h
  · rename_i world₁ block₁ halloc
    rw [halloc] at hbytes
    simp only [Prod.mk.injEq, Option.some.injEq] at h hbytes
    obtain ⟨-, rfl, rfl⟩ := h
    rw [hbytes]

/-- **Short names.** The block holds the name as a C string exactly when no counted byte of the
name is zero, and the byte of the block behind the name was zero before. -/
theorem short_name_string_iff
    (h : blFatShortNameToRegularName env world entry = (world', some (block, s))) :
    HoldsString s shortNameAllocation (regularName entry) ↔
      0 ∉ regularName entry ∧ world.bytes block (regularName entry).length = 0 := by
  have hs := short_name_block h
  have hend : s (regularName entry).length = world.bytes block (regularName entry).length := by
    simp [hs]
  constructor
  · intro hholds
    exact ⟨hholds.noZero, hend ▸ hholds.terminated⟩
  · rintro ⟨hzero, hstale⟩
    refine ⟨?_, hzero, hend.trans hstale, regularName_length entry⟩
    intro k hk
    simp [hs, hk]

/-! ## A reused block -/

/-- Every block still holds an older name, of six letters and its zero. -/
def reusedWorld : World :=
  { zeroWorld with bytes := fun _ => ofPieces [(0, [0x4b, 0x45, 0x52, 0x4e, 0x45, 0x4c])] }

theorem reusedName_string_iff :
    HoldsString (fun k => (shortName (entryOf bootName 0 2)).getD k (reusedWorld.bytes 0 k))
        shortNameAllocation (regularName (entryOf bootName 0 2)) ↔
      0 ∉ regularName (entryOf bootName 0 2) ∧
        reusedWorld.bytes 0 (regularName (entryOf bootName 0 2)).length = 0 :=
  short_name_string_iff
    (@rfl _ (blFatShortNameToRegularName servedEnv reusedWorld (entryOf bootName 0 2)))

theorem reusedName_no_string :
    ¬ ∀ env world entry world' block s,
      blFatShortNameToRegularName env world entry = (world', some (block, s)) →
      HoldsString s shortNameAllocation (regularName entry) := by
  intro h
  have hterminated := (h servedEnv reusedWorld (entryOf bootName 0 2) _ _ _ rfl).terminated
  revert hterminated
  decide +kernel

end BootLoader.Fat
