import Mathlib.Data.List.Basic

/-!
# Disks and their partitions (`core/storage/storage.c`)

A disk is known by its place in the list of disks, a partition by its place in the list of its disk.
-/

namespace BootLoader.Storage

structure BlPartition where
  lba : BitVec 64
  sectors : BitVec 64
  deriving DecidableEq

structure BlStorageDevice where
  partitions : List BlPartition
  deriving DecidableEq

/-- The walk along a list: the place number `i` is reached. -/
def walk {α : Type*} (index : Int) : Nat → List α → Option Nat
  | _, [] => none
  | i, _ :: as => if (i : Int) = index then some i else walk index (i + 1) as

def blStorageDeviceGet (disks : List BlStorageDevice) (index : Int) : Option Nat :=
  if index < 0 then none else walk index 0 disks

def blStoragePartitionGet (disk : BlStorageDevice) (index : Int) : Option Nat :=
  if index < 0 then none else walk index 0 disk.partitions

theorem walk_eq_some {α : Type*} {index : Int} {i k : Nat} {as : List α} :
    walk index i as = some k ↔ index = k ∧ i ≤ k ∧ k < i + as.length := by
  induction as generalizing i with
  | nil => simp [walk]
  | cons a as ih =>
    rw [walk, List.length_cons]
    split_ifs with hi
    · constructor
      · intro h
        obtain rfl := Option.some.inj h
        exact ⟨hi.symm, Nat.le_refl _, by omega⟩
      · rintro ⟨hk, -, -⟩
        exact congrArg some (by omega)
    · rw [ih]
      constructor
      · rintro ⟨hk, hle, hlt⟩
        exact ⟨hk, by omega, by omega⟩
      · rintro ⟨hk, hle, hlt⟩
        exact ⟨hk, by omega, by omega⟩

theorem blStorageDeviceGet_eq_some {disks : List BlStorageDevice} {index : Int} {k : Nat} :
    blStorageDeviceGet disks index = some k ↔ index = k ∧ k < disks.length := by
  unfold blStorageDeviceGet
  split_ifs with hneg
  · simp only [false_iff]
    omega
  · rw [walk_eq_some]
    simp

theorem blStoragePartitionGet_eq_some {disk : BlStorageDevice} {index : Int} {k : Nat} :
    blStoragePartitionGet disk index = some k ↔ index = k ∧ k < disk.partitions.length := by
  unfold blStoragePartitionGet
  split_ifs with hneg
  · simp only [false_iff]
    omega
  · rw [walk_eq_some]
    simp

end BootLoader.Storage
