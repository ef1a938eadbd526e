import BootLoader.Ext.Inodes

/-!
# Which superblocks are accepted

`bl_ext_check_ext` tests the magic number, the size of an inode and the extents flag. The counts
that are divided by, the shift and the place of the group descriptors are taken as they are.
-/

open ByteMemory

namespace BootLoader.Ext

open Driver

variable {sblock : Mem} {lba : BitVec 64} {type : BlExtType}

/-! ## What a volume needs -/

/-- The size of the table of the group descriptors, as it is asked for. -/
def groupsSize (info : BlExtInfo) : Nat := info.groupsCount * sizeofGroupDescriptor % 2 ^ 32

def groupsLba (info : BlExtInfo) : BitVec 64 :=
  info.lba + BitVec.ofNat 64 (info.blockSize / blStorageSectorSize)

/-- Nothing that is computed from the superblock divides by zero, is cut off or goes behind the
groups, and the descriptors are read from the block behind the superblock's. -/
structure Usable (sblock : Mem) (info : BlExtInfo) : Prop where
  blocksPerGroup : info.blocksPerGroup ≠ 0
  inodesPerGroup : info.inodesPerGroup ≠ 0
  blockSize : info.blockSize = 1024 * 2 ^ sblockLogBlockSize sblock
  groupsCount : info.groupsCount =
    (info.blocksCount + info.blocksPerGroup - 1) / info.blocksPerGroup
  groupsSize : groupsSize info = info.groupsCount * sizeofGroupDescriptor
  groupsLba : groupsLba info = info.lba +
    BitVec.ofNat 64 ((sblockFirstDataBlock sblock + 1) * (info.blockSize / blStorageSectorSize))
  inodes : ∀ n : BitVec 32, 1 ≤ n.toNat → n.toNat ≤ sblockInodesCount sblock →
    blExtInodeBlockGroup info n < info.groupsCount

/-- There are groups, no more of them than there can be descriptors, with room for every inode; the
size of a block has 32 bits, and the superblock is in block 0. -/
structure PlainSuperBlock (sblock : Mem) : Prop where
  blocksPerGroup : sblockBlocksPerGroup sblock ≠ 0
  inodesPerGroup : sblockInodesPerGroup sblock ≠ 0
  blockSize : sblockLogBlockSize sblock < 22
  groups : groupsCount sblock < 2 ^ 27
  firstDataBlock : sblockFirstDataBlock sblock = 0
  inodes : sblockInodesCount sblock ≤ groupsCount sblock * sblockInodesPerGroup sblock

/-! ## Field by field -/

theorem blExtBlockSize_eq_iff (log : Nat) : blExtBlockSize log = 1024 * 2 ^ log ↔ log < 22 := by
  unfold blExtBlockSize
  constructor
  · intro h
    by_contra hlog
    have hle : 2 ^ 22 ≤ 2 ^ log := Nat.pow_le_pow_right Nat.two_pos (by omega)
    have hlt := Nat.mod_lt (1024 * 2 ^ (log % 32)) (show 0 < 2 ^ 32 by decide)
    omega
  · intro h
    have hle : 2 ^ log ≤ 2 ^ 21 := Nat.pow_le_pow_right Nat.two_pos (by omega)
    rw [Nat.mod_eq_of_lt (show log < 32 by omega), Nat.mod_eq_of_lt (by omega)]

theorem groupsCount_eq_ceil (h : sblockBlocksPerGroup sblock ≠ 0) :
    groupsCount sblock =
      (sblockBlocksCount sblock + sblockBlocksPerGroup sblock - 1) /
        sblockBlocksPerGroup sblock := by
  unfold groupsCount
  generalize sblockBlocksPerGroup sblock = d at h ⊢
  generalize sblockBlocksCount sblock = n
  have hpos : 0 < d := Nat.pos_of_ne_zero h
  have hdiv := Nat.div_add_mod n d
  have hmod := Nat.mod_lt n hpos
  symm
  split_ifs with hrest
  · refine Nat.div_eq_of_lt_le ?_ ?_ <;> rw [Nat.mul_comm] <;> simp only [Nat.mul_add] <;> omega
  · refine Nat.div_eq_of_lt_le ?_ ?_ <;> rw [Nat.mul_comm] <;> simp only [Nat.mul_add] <;> omega

theorem groupsLba_eq_iff (lba : BitVec 64) {size first : Nat} (hsize : 512 ≤ size)
    (hlt : size < 2 ^ 32) (hfirst : first < 2 ^ 32) :
    lba + BitVec.ofNat 64 (size / 512) = lba + BitVec.ofNat 64 ((first + 1) * (size / 512)) ↔
      first = 0 := by
  have hpos : 0 < size / 512 := Nat.div_pos hsize (by omega)
  have hbound : (first + 1) * (size / 512) < 2 ^ 64 := by
    calc (first + 1) * (size / 512) ≤ 2 ^ 32 * (size / 512) := Nat.mul_le_mul_right _ (by omega)
      _ < 2 ^ 64 := by omega
  constructor
  · intro h
    have hnat := congrArg BitVec.toNat (BitVec.add_right_inj lba |>.mp h)
    rw [BitVec.toNat_ofNat, BitVec.toNat_ofNat, Nat.mod_eq_of_lt (by omega),
      Nat.mod_eq_of_lt hbound, Nat.add_mul, Nat.one_mul] at hnat
    have hzero : first * (size / 512) = 0 := by omega
    exact (Nat.mul_eq_zero.mp hzero).resolve_right hpos.ne'
  · rintro rfl
    rw [Nat.zero_add, Nat.one_mul]

theorem inodes_in_groups_iff {count perGroup inodes : Nat} (hper : perGroup ≠ 0)
    (hinodes : inodes < 2 ^ 32) :
    (∀ n : BitVec 32, 1 ≤ n.toNat → n.toNat ≤ inodes → (n - 1).toNat / perGroup < count) ↔
      inodes ≤ count * perGroup := by
  have hpos : 0 < perGroup := Nat.pos_of_ne_zero hper
  constructor
  · intro h
    rcases Nat.eq_zero_or_pos inodes with rfl | hsome
    · exact Nat.zero_le _
    · have hlast : (BitVec.ofNat 32 inodes).toNat = inodes := by
        rw [BitVec.toNat_ofNat, Nat.mod_eq_of_lt hinodes]
      have hgroup := h (BitVec.ofNat 32 inodes) (by omega) (by omega)
      rw [toNat_sub_one (by omega), hlast, Nat.div_lt_iff_lt_mul hpos] at hgroup
      omega
  · intro h n hn hle
    rw [toNat_sub_one hn, Nat.div_lt_iff_lt_mul hpos]
    omega

/-! ## The check -/

def superBlockRead (env : Env) (lba : BitVec 64) (stack : Mem) : Mem :=
  env.delivered stack
    (lba + BitVec.ofNat 64 (blExtSuperBlockOffset / blStorageSectorSize)).toNat sizeofSuperBlock

/-- With every request served the check comes to its end, but for a division by zero. The
descriptors are in their block then. -/
theorem blExtCheckExt_served {env : Env} (hreads : ∀ n, env.reads n = .success)
    (hallocs : ∀ n, env.allocs n = true) (w : World) {stack : Mem}
    (h : checkSuperBlock (superBlockRead env lba stack) = .ok type) :
    if sblockBlocksPerGroup (superBlockRead env lba stack) = 0 then
      blExtCheckExt env lba stack w = none
    else
      let info := volumeInfo (superBlockRead env lba stack) lba type w.next
      ∃ w', blExtCheckExt env lba stack w = some (w', .success, some info) ∧
        ∀ i < groupsSize info, w'.bytes info.groups i =
          env.disk (512 * (groupsLba info).toNat + i) := by
  have hsuper : checkSuperBlock (env.delivered stack
      (lba + BitVec.ofNat 64 (blExtSuperBlockOffset / blStorageSectorSize)).toNat
        sizeofSuperBlock) = .ok type := h
  obtain ⟨w₁, halloc, -, -⟩ := alloc_served (w := { w with reads := w.reads + 1 }) (hallocs _)
  have hcheck : blExtCheckExt env lba stack w =
      if sblockBlocksPerGroup (superBlockRead env lba stack) = 0 then none
      else
        let info := volumeInfo (superBlockRead env lba stack) lba type w.next
        let r := w₁.read env w.next (groupsLba info).toNat (groupsSize info)
        if r.2 ≠ .success then some (r.1, r.2, none) else some (r.1, .success, some info) := by
    simp only [blExtCheckExt, readVar_eq, hreads, ne_eq, not_true_eq_false, if_false, if_true,
      hsuper, halloc]
    rfl
  rw [hcheck]
  split_ifs with hzero
  · rfl
  · obtain ⟨w₂, hread, -, -, hdata⟩ := read_served (w := w₁) w.next
      (groupsLba (volumeInfo (superBlockRead env lba stack) lba type w.next)).toNat
      (groupsSize (volumeInfo (superBlockRead env lba stack) lba type w.next)) (hreads _)
    exact ⟨w₂, by simp only [hread]; rfl, hdata⟩

theorem usable_iff (sblock : Mem) (lba : BitVec 64) (type : BlExtType) (groups : Nat) :
    Usable sblock (volumeInfo sblock lba type groups) ↔ PlainSuperBlock sblock := by
  have hfirst : sblockFirstDataBlock sblock < 2 ^ 32 := read32_lt sblock 20
  have hinodes : sblockInodesCount sblock < 2 ^ 32 := read32_lt sblock 0
  have hsize : ∀ log, blExtBlockSize log < 2 ^ 32 := fun log => Nat.mod_lt _ (by decide)
  constructor
  · intro husable
    have hlog := (blExtBlockSize_eq_iff _).mp husable.blockSize
    have hcut := husable.groupsSize
    refine ⟨husable.blocksPerGroup, husable.inodesPerGroup, hlog, ?_, ?_,
      (inodes_in_groups_iff husable.inodesPerGroup hinodes).mp husable.inodes⟩
    · have hlt : groupsSize (volumeInfo sblock lba type groups) < 2 ^ 32 :=
        Nat.mod_lt _ (by decide)
      rw [hcut] at hlt
      simp only [volumeInfo, sizeofGroupDescriptor] at hlt
      omega
    · refine (groupsLba_eq_iff lba ?_ (hsize _) hfirst).mp husable.groupsLba
      rw [(blExtBlockSize_eq_iff _).mpr hlog]
      have hpow := Nat.two_pow_pos (sblockLogBlockSize sblock)
      omega
  · rintro ⟨hblocks, hper, hlog, hgroups, hzero, hroom⟩
    refine ⟨hblocks, hper, (blExtBlockSize_eq_iff _).mpr hlog, groupsCount_eq_ceil hblocks, ?_, ?_,
      (inodes_in_groups_iff hper hinodes).mpr hroom⟩
    · refine Nat.mod_eq_of_lt ?_
      simp only [volumeInfo, sizeofGroupDescriptor]
      omega
    · refine (groupsLba_eq_iff lba ?_ (hsize _) hfirst).mpr hzero
      rw [(blExtBlockSize_eq_iff _).mpr hlog]
      have hpow := Nat.two_pow_pos (sblockLogBlockSize sblock)
      omega

/-- One group of 8192 blocks of 1024 bytes: the superblock is in block 1. -/
def smallBlocks : Mem := ofPieces
  [(1024, bytesLE 4 0x800 ++ bytesLE 4 0x2000), (1044, bytesLE 4 1), (1056, bytesLE 4 0x2000),
    (1064, bytesLE 4 0x800), (1080, bytesLE 2 0xef53), (1112, bytesLE 2 0x80)]

def smallBlocksEnv : Env := ⟨fun _ => true, fun _ => .success, smallBlocks⟩

end BootLoader.Ext
