import BootLoader.Partition.Order

/-!
# What is recorded of a GPT

The entries of the table one after another, and what `bl_gpt_iterate` makes of them. It takes the
last sector of a partition for the one behind it.
-/

open ByteMemory

namespace BootLoader.Partition

open Driver Storage

variable {env : Env} {disk : Mem}

/-! ## The table -/

/-- The first byte of entry `i` on the disk. -/
def tableEntryOff (disk : Mem) (i : Nat) : Nat :=
  512 * (gptPartitionsLba disk).toNat + i * gptPartitionEntrySize disk

/-- Its type GUID is not all zero. -/
def EntryUsed (disk : Mem) (i : Nat) : Prop :=
  ∃ k < 16, disk (tableEntryOff disk i + k) ≠ 0

instance (disk : Mem) (i : Nat) : Decidable (EntryUsed disk i) :=
  inferInstanceAs (Decidable (∃ k < 16, _))

/-- The partition from the first to the last LBA of entry `i`, both included. -/
def tablePartition (disk : Mem) (i : Nat) : BlPartition :=
  let firstLba := BitVec.ofNat 64 (read64 disk (tableEntryOff disk i + 32))
  let lastLba := BitVec.ofNat 64 (read64 disk (tableEntryOff disk i + 40))
  ⟨firstLba, lastLba - firstLba + 1⟩

/-- The partitions of the table, in its order. -/
def tablePartitions (disk : Mem) : List BlPartition :=
  ((List.range (gptPartitionsCount disk)).filter fun i => EntryUsed disk i).map
    (tablePartition disk)

/-- Each entry is read where it is, and each one in use becomes a partition before the others. -/
structure TableRecorded (env : Env) (d : Disk) : Prop where
  status : (blGptIterate env d).2 = .success
  read : ∀ i < gptPartitionsCount env.disk, gptEntryOff env.disk i = tableEntryOff env.disk i
  partitions : values (blGptIterate env d).1 = (tablePartitions env.disk).reverse ++ values d

/-! ## What the code makes of it -/

theorem nonEmpty_eq (entry : Nat → Option BlPartition) (left i : Nat) :
    nonEmpty entry left i = (List.range' i left).filterMap entry := by
  induction left generalizing i with
  | zero => rfl
  | succ left ih =>
    rw [nonEmpty, ih, List.range'_succ, List.filterMap_cons]
    cases entry i <;> rfl

theorem recorded_eq (entry : Nat → Option BlPartition) (count : Nat) :
    recorded entry count = ((List.range count).filterMap entry).reverse := by
  rw [recorded, nonEmpty_eq, List.range_eq_range']

theorem gptEntryOff_eq_iff (disk : Mem) (i : Nat) (hi : i < gptPartitionsCount disk) :
    gptEntryOff disk i = tableEntryOff disk i ↔
      (gptPartitionsLba disk).toNat + i * gptPartitionEntrySize disk / 512 < 2 ^ 64 := by
  have hcount : gptPartitionsCount disk < 2 ^ 32 := read32_lt disk _
  have hsize : gptPartitionEntrySize disk < 2 ^ 32 := read32_lt disk _
  have hoffset : i * gptPartitionEntrySize disk < 2 ^ 64 := by
    calc i * gptPartitionEntrySize disk ≤ 2 ^ 32 * gptPartitionEntrySize disk :=
          Nat.mul_le_mul_right _ (by omega)
      _ < 2 ^ 64 := by omega
  have hlba := (gptPartitionsLba disk).isLt
  unfold gptEntryOff tableEntryOff
  generalize i * gptPartitionEntrySize disk = offset at hoffset ⊢
  have hsector : (gptPartitionsLba disk + BitVec.ofNat 64 offset / 512).toNat =
      ((gptPartitionsLba disk).toNat + offset / 512) % 2 ^ 64 := by
    rw [BitVec.toNat_add, BitVec.toNat_udiv, BitVec.toNat_ofNat, Nat.mod_eq_of_lt hoffset]
    rfl
  simp only [hsector, BitVec.toNat_ofNat, Nat.mod_eq_of_lt hoffset]
  omega

theorem gptEntry_eq {i : Nat} (h : gptEntryOff disk i = tableEntryOff disk i) :
    gptEntry disk i = if EntryUsed disk i then
      some ⟨(tablePartition disk i).lba, (tablePartition disk i).sectors - 1⟩ else none := by
  have hempty : ((List.range 16).all fun k => disk (tableEntryOff disk i + k) = 0) = true ↔
      ¬ EntryUsed disk i := by
    simp [EntryUsed]
  unfold gptEntry
  rw [h]
  by_cases hused : EntryUsed disk i
  · rw [if_neg (mt hempty.mp (not_not.mpr hused)), if_pos hused]
    simp only [tablePartition, BitVec.add_sub_cancel]
  · rw [if_pos (hempty.mpr hused), if_neg hused]

theorem tablePartitions_eq_nil_iff :
    tablePartitions disk = [] ↔ ∀ i < gptPartitionsCount disk, ¬ EntryUsed disk i := by
  simp [tablePartitions, List.filter_eq_nil_iff]

/-- The last LBA is counted out of every partition. -/
theorem gptPartitions_eq
    (h : ∀ i < gptPartitionsCount disk, gptEntryOff disk i = tableEntryOff disk i) :
    gptPartitions disk = ((tablePartitions disk).map fun p => ⟨p.lba, p.sectors - 1⟩).reverse := by
  rw [gptPartitions, recorded_eq, tablePartitions, List.map_map, ← List.filterMap_eq_map,
    List.filterMap_filter]
  congr 1
  refine List.filterMap_congr fun i hi => ?_
  rw [gptEntry_eq (h i (List.mem_range.mp hi))]
  simp

/-- **What is recorded of a GPT.** With every request served, the table is recorded as it is
exactly when its entries have sector numbers of 64 bits and none of them is in use. -/
theorem table_recorded_iff (h : AllServed env) (hgpt : IsGpt env.disk) (d : Disk) :
    TableRecorded env d ↔ ∀ i < gptPartitionsCount env.disk,
      (gptPartitionsLba env.disk).toNat + i * gptPartitionEntrySize env.disk / 512 < 2 ^ 64 ∧
        ¬ EntryUsed env.disk i := by
  obtain ⟨hok, hvalues⟩ := h.gpt d
  rw [if_pos hgpt] at hvalues
  constructor
  · intro hrecorded i hi
    have hread := hrecorded.read
    have hsame := hrecorded.partitions
    rw [hvalues, gptPartitions_eq hread, List.append_left_inj, List.reverse_inj] at hsame
    refine ⟨(gptEntryOff_eq_iff env.disk i hi).mp (hread i hi), fun hused => ?_⟩
    have hmem : tablePartition env.disk i ∈ tablePartitions env.disk :=
      List.mem_map_of_mem (List.mem_filter.mpr ⟨List.mem_range.mpr hi, decide_eq_true hused⟩)
    have hsectors := congrArg BlPartition.sectors
      (List.map_inj_left.mp (hsame.trans (List.map_id _).symm) _ hmem)
    have hnat := congrArg BitVec.toNat hsectors
    rw [id, BitVec.toNat_sub, show (1 : BitVec 64).toNat = 1 by rfl] at hnat
    omega
  · intro hempty
    have hread : ∀ i < gptPartitionsCount env.disk,
        gptEntryOff env.disk i = tableEntryOff env.disk i := fun i hi =>
      (gptEntryOff_eq_iff env.disk i hi).mpr (hempty i hi).1
    have hnone : tablePartitions env.disk = [] :=
      tablePartitions_eq_nil_iff.mpr fun i hi => (hempty i hi).2
    refine ⟨hok.mpr hgpt, hread, ?_⟩
    rw [hvalues, gptPartitions_eq hread, hnone]
    rfl

def oneGptEnv : Env := ⟨fun _ => true, fun _ => .success, oneGptEntry⟩

theorem oneGptEnv_served : AllServed oneGptEnv := ⟨fun _ => rfl, fun _ => rfl⟩

theorem oneGptEntry_recorded_iff :
    TableRecorded oneGptEnv ⟨emptyWorld, []⟩ ↔ ∀ i < gptPartitionsCount oneGptEnv.disk,
      (gptPartitionsLba oneGptEnv.disk).toNat + i * gptPartitionEntrySize oneGptEnv.disk / 512 <
          2 ^ 64 ∧ ¬ EntryUsed oneGptEnv.disk i :=
  table_recorded_iff oneGptEnv_served (by decide +kernel) ⟨emptyWorld, []⟩

/-- The partition from the sector 34 to the sector 133 has 100 sectors, and 99 are recorded. -/
theorem oneGptEntry_sector_missing :
    ¬ ∀ env d, AllServed env → IsGpt env.disk → gptPartitionsCount env.disk < 2 ^ 31 →
      128 ≤ gptPartitionEntrySize env.disk → TableRecorded env d := by
  intro h
  have hrecorded := h oneGptEnv ⟨emptyWorld, []⟩ oneGptEnv_served (by decide +kernel)
    (by decide +kernel) (by decide +kernel)
  have hcode : values (blGptIterate oneGptEnv ⟨emptyWorld, []⟩).1 = [⟨34, 99⟩] := by
    decide +kernel
  have htable : tablePartitions oneGptEnv.disk = [⟨34, 100⟩] := by decide +kernel
  have hsame := hrecorded.partitions
  rw [hcode, htable] at hsame
  exact absurd hsame (by decide)

end BootLoader.Partition
