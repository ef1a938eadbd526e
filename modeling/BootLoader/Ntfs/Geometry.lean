import BootLoader.Fs.Mounts
import Mathlib.Data.Nat.Prime.Basic
import Mathlib.Tactic.Positivity

/-!
# Where records and clusters are

Places are computed by shifts: the logarithm of a quotient of sizes, in sectors of the volume. The
disk is read in sectors of 512 bytes.
-/

open ByteMemory

namespace BootLoader.Ntfs

open Driver Utils

variable {env : Env} {fuel : Nat} {w w' : World} {vbr stack : Mem} {info : BlNtfsInfo}
  {lba : BitVec 64} {uninit : Ptr} {mftRoot a b : Nat}

/-! ## Where they are -/

/-- The signed byte says how large a record is: in clusters, or as a power of two. -/
structure RecordSizeRight (vbr : Mem) (info : BlNtfsInfo) : Prop where
  clusters : 0 < (vbrClustersPerMftRecord vbr).toInt →
    info.mftRecordSize = (vbrClustersPerMftRecord vbr).toInt.toNat * info.clusterSize
  power : (vbrClustersPerMftRecord vbr).toInt < 0 →
    info.mftRecordSize = 2 ^ (-(vbrClustersPerMftRecord vbr).toInt).toNat
  nonzero : info.mftRecordSize ≠ 0

/-- Sectors have 64-bit numbers, so a cluster behind them has no place. -/
def ClustersLocated (info : BlNtfsInfo) : Prop :=
  ∀ n : BitVec 64, info.lba.toNat + n.toNat * info.clusterSize / 512 < 2 ^ 64 →
    (blNtfsLcnToLba info n).toNat = info.lba.toNat + n.toNat * info.clusterSize / 512

/-- The first byte of the record that a reference names, on the disk. -/
def recordPosition (vbr : Mem) (info : BlNtfsInfo) (ref : BitVec 64) : Nat :=
  512 * info.lba.toNat + (vbrMftLcn vbr).toNat * info.clusterSize +
    ref.toNat % 2 ^ 48 * info.mftRecordSize

/-- `bl_ntfs_read_mft` reads every record from its place. -/
def RecordsLocated (vbr : Mem) (info : BlNtfsInfo) : Prop :=
  ∀ ref, 512 * (blNtfsMftRecordLba info ref).toNat = recordPosition vbr info ref

structure GeometryRight (vbr : Mem) (info : BlNtfsInfo) : Prop where
  recordSize : RecordSizeRight vbr info
  clusters : ClustersLocated info
  records : RecordsLocated vbr info

/-- A record has at least a sector and less than 64 KiB, and is so many sectors as a power of two
says. -/
def RecordSizePlain (vbr : Mem) : Prop :=
  (∃ k : Nat, (vbrClustersPerMftRecord vbr).toInt = 2 ^ k ∧
      2 ^ k * (vbrSectorsPerCluster vbr * 512) < 2 ^ 16) ∨
    ∃ k : Nat, 9 ≤ k ∧ k < 16 ∧ (vbrClustersPerMftRecord vbr).toInt = -(k : Int)

/-- Sectors are the disk's, a record is a power of two of them, and the last of the `2 ^ 48` records
begins at a sector that has a number. -/
structure GeometryPlain (vbr : Mem) (lba : BitVec 64) : Prop where
  sector : vbrBytesPerSector vbr = 512
  record : RecordSizePlain vbr
  space : lba.toNat + (vbrMftLcn vbr).toNat * vbrSectorsPerCluster vbr +
    (2 ^ 48 - 1) * (vbrMftRecordSize vbr (vbrSectorsPerCluster vbr * 512) / 512) < 2 ^ 64

/-! ## Where they are read -/

theorem blNtfsLcnToLba_toNat (hsector : info.sectorSize = 2 ^ a)
    (hcluster : info.clusterSize = 2 ^ b * 2 ^ a) (hb : b < 32) (n : BitVec 64) :
    (blNtfsLcnToLba info n).toNat = (info.lba.toNat + n.toNat * 2 ^ b) % 2 ^ 64 := by
  have hshift : shiftCount (blLog2 (info.clusterSize / info.sectorSize)) = b := by
    rw [hcluster, hsector, Nat.mul_div_cancel _ (Nat.two_pow_pos a), blLog2_two_pow hb,
      shiftCount_of_lt (by omega)]
  rw [blNtfsLcnToLba, hshift, BitVec.toNat_add, BitVec.toNat_shiftLeft, Nat.shiftLeft_eq,
    Nat.add_mod_mod]

/-- The shift that takes the number of a record to its sectors. -/
def recordShift (info : BlNtfsInfo) : Nat :=
  shiftCount (blLog2 (info.mftRecordSize / info.sectorSize))

theorem blNtfsMftRecordLba_toNat (info : BlNtfsInfo) (ref : BitVec 64) :
    (blNtfsMftRecordLba info ref).toNat =
      (info.mftLba.toNat + ref.toNat % 2 ^ 48 * 2 ^ recordShift info) % 2 ^ 64 := by
  have href : (mftRecord ref).toNat = ref.toNat % 2 ^ 48 := by
    rw [mftRecord, BitVec.toNat_and]
    exact Nat.and_two_pow_sub_one_eq_mod _ 48
  rw [blNtfsMftRecordLba, ← recordShift, BitVec.toNat_add, BitVec.toNat_shiftLeft, href,
    Nat.shiftLeft_eq, Nat.add_mod_mod]

theorem recordShift_lt (info : BlNtfsInfo) : recordShift info < 64 := by
  unfold recordShift shiftCount
  omega

/-- Without a logarithm the shift is by 63. -/
theorem recordShift_cases (hsize : info.mftRecordSize < 2 ^ 32) :
    recordShift info = 63 ∨
      info.mftRecordSize / info.sectorSize = 2 ^ recordShift info ∧ recordShift info < 32 := by
  by_cases hlog : blLog2 (info.mftRecordSize / info.sectorSize) = -1
  · refine .inl ?_
    rw [recordShift, hlog]
    rfl
  · obtain ⟨k, hk⟩ := two_pow_of_blLog2 hlog
    have hlt : k < 32 := by
      refine (Nat.pow_lt_pow_iff_right (Nat.lt_succ_self 1)).mp ?_
      rw [← hk]
      exact lt_of_le_of_lt (Nat.div_le_self _ _) hsize
    have hshift : recordShift info = k := by
      rw [recordShift, hk, blLog2_two_pow hlt, shiftCount_of_lt (by omega)]
    rw [hshift]
    exact .inr ⟨hk, hlt⟩

theorem recordShift_lt_seven (h : 512 * 2 ^ recordShift info < 2 ^ 16) : recordShift info < 7 := by
  by_contra hle
  have hpow : 2 ^ 7 ≤ 2 ^ recordShift info := Nat.pow_le_pow_right Nat.two_pos (by omega)
  omega

/-- The records lie one after another only in sectors of 512 bytes. -/
theorem sector_of_recordSize (hsector : info.sectorSize = 2 ^ a)
    (hsize : info.mftRecordSize < 2 ^ 16)
    (hshift : 512 * 2 ^ recordShift info = info.mftRecordSize) : a = 9 := by
  have hlt := recordShift_lt_seven (hshift.trans_lt hsize)
  rcases recordShift_cases (lt_trans hsize (by decide)) with h63 | ⟨hquotient, -⟩
  · omega
  · rw [hsector, ← hshift, show 512 = 2 ^ 9 by rfl, ← pow_add] at hquotient
    by_cases hle : a ≤ 9 + recordShift info
    · rw [Nat.pow_div hle Nat.two_pos] at hquotient
      have hexponents := Nat.pow_right_injective le_rfl hquotient
      omega
    · have hpos := Nat.two_pow_pos (recordShift info)
      rw [Nat.div_eq_of_lt (Nat.pow_lt_pow_right (Nat.lt_succ_self 1) (by omega))] at hquotient
      omega

theorem mul_clusterSize (hcluster : info.clusterSize = 2 ^ b * 2 ^ 9) (n : Nat) :
    n * info.clusterSize = 512 * (n * 2 ^ b) := by
  rw [hcluster]
  ring

theorem recordsLocated_iff (hsector : info.sectorSize = 2 ^ a)
    (hcluster : info.clusterSize = 2 ^ b * 2 ^ a) (hsize : info.mftRecordSize < 2 ^ 16)
    (hmft : info.mftLba.toNat = (info.lba.toNat + (vbrMftLcn vbr).toNat * 2 ^ b) % 2 ^ 64) :
    RecordsLocated vbr info ↔ a = 9 ∧ (∃ k < 7, info.mftRecordSize = 512 * 2 ^ k) ∧
      info.lba.toNat + (vbrMftLcn vbr).toNat * 2 ^ b +
        (2 ^ 48 - 1) * (info.mftRecordSize / 512) < 2 ^ 64 := by
  unfold RecordsLocated recordPosition
  simp only [blNtfsMftRecordLba_toNat]
  have hshiftLt := recordShift_lt info
  have hmftLt := info.mftLba.isLt
  have hpow : 2 ^ recordShift info ≤ 2 ^ 63 := Nat.pow_le_pow_right Nat.two_pos (by omega)
  constructor
  · intro h
    have hzero := h 0
    have hone := h 1
    have hlast := h (BitVec.ofNat 64 (2 ^ 48 - 1))
    simp only [show (0 : BitVec 64).toNat = 0 by rfl, show (1 : BitVec 64).toNat = 1 by rfl,
      show (BitVec.ofNat 64 (2 ^ 48 - 1)).toNat = 2 ^ 48 - 1 by rfl, Nat.zero_mod, Nat.zero_mul,
      Nat.add_zero, Nat.mod_eq_of_lt hmftLt, show 1 % 2 ^ 48 = 1 by rfl, Nat.one_mul,
      show (2 ^ 48 - 1) % 2 ^ 48 = 2 ^ 48 - 1 by rfl] at hzero hone hlast
    -- The second record is behind the first one, so nothing wraps between them.
    have hshift : 512 * 2 ^ recordShift info = info.mftRecordSize := by omega
    obtain rfl := sector_of_recordSize hsector hsize hshift
    refine ⟨rfl, ⟨recordShift info, recordShift_lt_seven (hshift.trans_lt hsize), hshift.symm⟩, ?_⟩
    · have hlt := Nat.mod_lt (info.mftLba.toNat + (2 ^ 48 - 1) * 2 ^ recordShift info)
        (Nat.two_pow_pos 64)
      have hquotient : info.mftRecordSize / 512 = 2 ^ recordShift info := by
        rw [← hshift, Nat.mul_div_cancel_left _ (by decide)]
      rw [mul_clusterSize hcluster, ← hshift] at hlast
      rw [hquotient]
      omega
  · rintro ⟨rfl, ⟨k, hk, hrecord⟩, hspace⟩ ref
    have hquotient : info.mftRecordSize / 512 = 2 ^ k := by
      rw [hrecord, Nat.mul_div_cancel_left _ (by decide)]
    have hshift : recordShift info = k := by
      rw [recordShift, hsector, show 2 ^ 9 = 512 by rfl, hquotient, blLog2_two_pow (by omega),
        shiftCount_of_lt (by omega)]
    rw [hquotient] at hspace
    have href : ref.toNat % 2 ^ 48 * 2 ^ k ≤ (2 ^ 48 - 1) * 2 ^ k :=
      Nat.mul_le_mul_right _ (by omega)
    have hrecordBytes : ref.toNat % 2 ^ 48 * info.mftRecordSize =
        512 * (ref.toNat % 2 ^ 48 * 2 ^ k) := by
      rw [hrecord]
      ring
    rw [hshift, hmft, Nat.mod_eq_of_lt (show info.lba.toNat + _ < 2 ^ 64 by omega),
      Nat.mod_eq_of_lt (by omega), mul_clusterSize hcluster, hrecordBytes]
    ring

/-! ## The boot sector -/

theorem vbr_logs (h : vbrInvalid vbr = false) :
    (∃ a, vbrBytesPerSector vbr = 2 ^ a) ∧ ∃ b < 8, vbrSectorsPerCluster vbr = 2 ^ b := by
  simp only [vbrInvalid, decide_eq_false_iff_not, not_or] at h
  obtain ⟨-, -, hsector, hcluster⟩ := h
  obtain ⟨b, hb⟩ := two_pow_of_blLog2 hcluster
  refine ⟨two_pow_of_blLog2 hsector, b, ?_, hb⟩
  refine (Nat.pow_lt_pow_iff_right (Nat.lt_succ_self 1)).mp ?_
  rw [← hb]
  exact (vbr 13).isLt

theorem vbrMftRecordSize_lt (vbr : Mem) (clusterSize : Nat) :
    vbrMftRecordSize vbr clusterSize < 2 ^ 16 := by
  unfold vbrMftRecordSize
  dsimp only
  split_ifs
  · exact Nat.mod_lt _ (by decide)
  · exact Nat.mod_lt _ (by decide)

theorem vbrMftRecordSize_clusters {k size : Nat}
    (hk : (vbrClustersPerMftRecord vbr).toInt = 2 ^ k) (hfits : 2 ^ k * size < 2 ^ 16) :
    vbrMftRecordSize vbr size = 2 ^ k * size := by
  have hpos : 0 < (vbrClustersPerMftRecord vbr).toInt := by
    rw [hk]
    positivity
  have hnat : (vbrClustersPerMftRecord vbr).toInt.toNat = 2 ^ k := by
    rw [hk]
    norm_cast
  rw [vbrMftRecordSize]
  simp only [hpos, if_true, hnat]
  exact Nat.mod_eq_of_lt hfits

theorem vbrMftRecordSize_power {k : Nat} (hk : (vbrClustersPerMftRecord vbr).toInt = -k)
    (hhigh : k < 16) (size : Nat) : vbrMftRecordSize vbr size = 2 ^ k := by
  have hnot : ¬ (vbrClustersPerMftRecord vbr).toInt > 0 := by omega
  have hnat : (-(vbrClustersPerMftRecord vbr).toInt).toNat = k := by omega
  rw [vbrMftRecordSize]
  simp only [hnot, if_false, hnat]
  rw [Nat.mod_eq_of_lt (show k < 32 by omega)]
  exact Nat.mod_eq_of_lt (Nat.pow_lt_pow_right (Nat.lt_succ_self 1) hhigh)

theorem recordSizePlain_iff (hcluster : vbrSectorsPerCluster vbr = 2 ^ b)
    (hclusters : info.clusterSize = vbrSectorsPerCluster vbr * 512)
    (hsize : info.mftRecordSize = vbrMftRecordSize vbr info.clusterSize) :
    (RecordSizeRight vbr info ∧ ∃ k < 7, info.mftRecordSize = 512 * 2 ^ k) ↔
      RecordSizePlain vbr := by
  have hlt := vbrMftRecordSize_lt vbr info.clusterSize
  rw [← hsize] at hlt
  constructor
  · rintro ⟨hright, k, hk, hrecord⟩
    rcases lt_trichotomy (vbrClustersPerMftRecord vbr).toInt 0 with hneg | hzero | hpos
    · have hpower := hright.power hneg
      rw [hrecord, show 512 = 2 ^ 9 by rfl, ← pow_add] at hpower
      have hexponent := Nat.pow_right_injective le_rfl hpower
      exact .inr ⟨9 + k, by omega, by omega, by omega⟩
    · have hone : info.mftRecordSize = 1 := by simp [hsize, vbrMftRecordSize, hzero]
      omega
    · have hmul := hright.clusters hpos
      obtain ⟨c, hc⟩ := Int.eq_ofNat_of_zero_le hpos.le
      rw [hclusters, hcluster, hc, Int.toNat_natCast, hrecord, ← mul_assoc] at hmul
      have hdvd : c ∣ 2 ^ k := ⟨2 ^ b, by omega⟩
      obtain ⟨m, -, hm⟩ := (Nat.dvd_prime_pow Nat.prime_two).mp hdvd
      refine .inl ⟨m, by rw [hc, hm]; norm_cast, ?_⟩
      rw [hcluster, ← hm, ← mul_assoc, ← hmul, ← hrecord]
      exact hlt
  · rintro (⟨k, hk, hfits⟩ | ⟨k, hlow, hhigh, hk⟩)
    · have hrecord : info.mftRecordSize = 2 ^ k * info.clusterSize :=
        hsize.trans (vbrMftRecordSize_clusters hk (hclusters ▸ hfits))
      have hnat : (vbrClustersPerMftRecord vbr).toInt.toNat = 2 ^ k := by
        rw [hk]
        norm_cast
      have hpos : 0 < (vbrClustersPerMftRecord vbr).toInt := by
        rw [hk]
        positivity
      have hsectors : info.mftRecordSize = 512 * 2 ^ (k + b) := by
        rw [hrecord, hclusters, hcluster, pow_add]
        ring
      refine ⟨⟨fun _ => by rw [hrecord, hnat], fun hneg => absurd hneg (by omega), ?_⟩,
        k + b, ?_, hsectors⟩
      · rw [hsectors]
        positivity
      · by_contra hle
        have hpow : 2 ^ 7 ≤ 2 ^ (k + b) := Nat.pow_le_pow_right Nat.two_pos (by omega)
        omega
    · have hnat : (-(vbrClustersPerMftRecord vbr).toInt).toNat = k := by omega
      have hrecord : info.mftRecordSize = 2 ^ k :=
        hsize.trans (vbrMftRecordSize_power (by omega) hhigh _)
      refine ⟨⟨fun hpos => absurd hpos (by omega), fun _ => by rw [hrecord, hnat], ?_⟩,
        k - 9, by omega, ?_⟩
      · rw [hrecord]
        positivity
      · rw [hrecord, show 512 = 2 ^ 9 by rfl, ← pow_add, Nat.add_sub_cancel' hlow]

theorem clustersLocated (hsector : info.sectorSize = 2 ^ 9)
    (hcluster : info.clusterSize = 2 ^ b * 2 ^ 9) (hb : b < 32) : ClustersLocated info := by
  intro n hn
  have hsectors : n.toNat * info.clusterSize / 512 = n.toNat * 2 ^ b := by
    rw [mul_clusterSize hcluster, Nat.mul_div_cancel_left _ (by decide)]
  rw [hsectors] at hn ⊢
  rw [blNtfsLcnToLba_toNat hsector hcluster hb, Nat.mod_eq_of_lt hn]

/-- What is stored of an accepted boot sector is right exactly when its sectors are the disk's, its
records are so large, and all of them have a sector number. -/
theorem volumeInfo_right_iff (h : vbrInvalid vbr = false) (lba : BitVec 64) (iroot : Ptr) :
    GeometryRight vbr (volumeInfo vbr lba iroot) ↔ GeometryPlain vbr lba := by
  obtain ⟨⟨a, ha⟩, b, hb, hcluster⟩ := vbr_logs h
  have hsector : (volumeInfo vbr lba iroot).sectorSize = 2 ^ a := ha
  have hsize : (volumeInfo vbr lba iroot).clusterSize = 2 ^ b * 2 ^ a := by
    rw [← hcluster, ← ha]
    rfl
  have hmft : (volumeInfo vbr lba iroot).mftLba.toNat =
      (lba.toNat + (vbrMftLcn vbr).toNat * 2 ^ b) % 2 ^ 64 :=
    blNtfsLcnToLba_toNat hsector hsize (by omega) (vbrMftLcn vbr)
  have hrecords : RecordsLocated vbr (volumeInfo vbr lba iroot) ↔ _ :=
    recordsLocated_iff hsector hsize (vbrMftRecordSize_lt vbr _) hmft
  constructor
  · rintro ⟨hright, -, hlocated⟩
    obtain ⟨rfl, hpower, hspace⟩ := hrecords.mp hlocated
    have hclusters : (volumeInfo vbr lba iroot).clusterSize = vbrSectorsPerCluster vbr * 512 :=
      hsize.trans (congrArg (· * 512) hcluster.symm)
    refine ⟨ha, (recordSizePlain_iff hcluster hclusters rfl).mp ⟨hright, hpower⟩, ?_⟩
    rw [← hclusters, hcluster]
    exact hspace
  · rintro ⟨hsector512, hplain, hspace⟩
    obtain rfl : a = 9 := Nat.pow_right_injective le_rfl (ha.symm.trans hsector512)
    have hclusters : (volumeInfo vbr lba iroot).clusterSize = vbrSectorsPerCluster vbr * 512 :=
      hsize.trans (congrArg (· * 512) hcluster.symm)
    obtain ⟨hright, hpower⟩ := (recordSizePlain_iff hcluster hclusters rfl).mpr hplain
    rw [← hclusters, hcluster] at hspace
    exact ⟨hright, clustersLocated hsector hsize (by omega), hrecords.mpr ⟨rfl, hpower, hspace⟩⟩

def vbrRead (env : Env) (lba : BitVec 64) (stack : Mem) : Mem :=
  env.delivered stack lba.toNat sizeofVbr

/-- **Geometry.** What an accepted boot sector comes to is right exactly when its sectors are the
disk's, its records have between a sector and 64 KiB, in powers of two, and all of them have a
sector number. -/
theorem geometry_right_iff (h : blNtfsCheckNtfs env fuel lba stack uninit w =
      some (w', .success, some (mftRoot, info))) :
    GeometryRight (vbrRead env lba stack) info ↔ GeometryPlain (vbrRead env lba stack) lba := by
  generalize hout : (w', BlStatus.success, some (mftRoot, info)) = out at h
  cases Fs.blNtfsCheckNtfs_checked (p := ⟨lba, stack, uninit, fuel⟩) h with
  | unread => simp at hout
  | invalid => simp at hout
  | noRecord => simp at hout
  | recordUnread => simp at hout
  | noIndex => simp at hout
  | checked hrecord =>
    simp only [Prod.mk.injEq, true_and, Option.some.injEq] at hout
    obtain ⟨-, -, rfl⟩ := hout
    exact volumeInfo_right_iff hrecord.vbr lba _

/-- A volume with one cluster to a sector and its MFT at cluster 4, whose root directory's record,
with an index root, is at the byte `root`. -/
def ntfsVolume (bytesPerSector clusters root : Nat) : Mem := ofPieces
  [(3, blNtfsOem ++ bytesLE 2 bytesPerSector ++ [1]), (48, bytesLE 8 4),
    (64, [BitVec.ofNat 8 clusters]), (510, bytesLE 2 0xaa55), (root + 20, bytesLE 2 56),
    (root + 56, bytesLE 4 0x90 ++ bytesLE 4 80 ++ [0, 4]), (root + 76, bytesLE 2 32),
    (root + 80, [0x24, 0, 0x49, 0, 0x33, 0, 0x30, 0]), (root + 88, bytesLE 4 0x30)]

def ntfsEnv (bytesPerSector clusters root : Nat) : Env :=
  ⟨fun _ => true, fun _ => .success, ntfsVolume bytesPerSector clusters root⟩

def noBlocks : World := ⟨0, fun _ _ => 0, fun _ => false, 0, 0, []⟩

theorem ntfsVolume_checked : ∃ w', blNtfsCheckNtfs (ntfsEnv 512 2 7168) 1 0 (fun _ => 0) ⟨0, 0⟩
    noBlocks = some (w', .success, some (0, ⟨0, 512, 512, 4, 1024, ⟨0, 88⟩⟩)) := ⟨_, rfl⟩

theorem ntfsVolume_right_iff :
    GeometryRight (vbrRead (ntfsEnv 512 2 7168) 0 fun _ => 0) ⟨0, 512, 512, 4, 1024, ⟨0, 88⟩⟩ ↔
      GeometryPlain (vbrRead (ntfsEnv 512 2 7168) 0 fun _ => 0) 0 := by
  obtain ⟨w', h⟩ := ntfsVolume_checked
  exact geometry_right_iff h

/-- With sectors of 1024 bytes the MFT's first record is looked for at sector 4 of the disk, not at
sector 8. -/
theorem largeSectors_not_right :
    ¬ ∀ env fuel lba stack uninit w w' mftRoot info,
      blNtfsCheckNtfs env fuel lba stack uninit w = some (w', .success, some (mftRoot, info)) →
        GeometryRight (vbrRead env lba stack) info := by
  intro h
  have hchecked : ∃ w', blNtfsCheckNtfs (ntfsEnv 1024 1 4608) 1 0 (fun _ => 0) ⟨0, 0⟩
      noBlocks = some (w', .success, some (0, ⟨0, 1024, 1024, 4, 1024, ⟨0, 88⟩⟩)) := ⟨_, rfl⟩
  obtain ⟨w', hchecked⟩ := hchecked
  have hrecords := (h _ _ _ _ _ _ _ _ _ hchecked).records 0
  exact absurd hrecords (by decide +kernel)

end BootLoader.Ntfs
