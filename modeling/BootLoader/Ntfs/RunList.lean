import BootLoader.Ntfs.Code
import Mathlib.Algebra.Order.Ring.Int

/-!
# Run lists

`bl_ntfs_vcn_to_lcn` against what a run list says.
-/

open ByteMemory

namespace BootLoader.Ntfs

/-! ## What a run list says -/

/-- A run of `length` clusters, `delta` clusters after the start of the run before it, and the
number of bytes that each of the two takes. -/
structure DataRun where
  length : Nat
  lengthBytes : Nat
  delta : Int
  deltaBytes : Nat
  length_pos : 0 < length
  length_lt : length < 256 ^ lengthBytes
  lengthBytes_range : 1 ≤ lengthBytes ∧ lengthBytes ≤ 8
  deltaBytes_range : 1 ≤ deltaBytes ∧ deltaBytes ≤ 8
  delta_range : -2 ^ (8 * deltaBytes - 1) ≤ delta ∧ delta < 2 ^ (8 * deltaBytes - 1)

def DataRun.encode (r : DataRun) : List Byte :=
  BitVec.ofNat 8 (r.lengthBytes + 16 * r.deltaBytes) ::
    (bytesLE r.lengthBytes r.length ++
      bytesLE r.deltaBytes (r.delta % 256 ^ r.deltaBytes).toNat)

def encodeRuns : List DataRun → List Byte
  | [] => [0]
  | r :: rest => r.encode ++ encodeRuns rest

def totalLength : List DataRun → Nat
  | [] => 0
  | r :: rest => r.length + totalLength rest

/-- The cluster of VCN `v`, the run before the list having started at `prev`. -/
def lcnOf (prev : Int) : List DataRun → Nat → Option Int
  | [], _ => none
  | r :: rest, v =>
    if v < r.length then some (prev + r.delta + v)
    else lcnOf (prev + r.delta) rest (v - r.length)

/-- All clusters are numbered from 0 to below `2 ^ 63`. -/
def OnVolume (prev : Int) : List DataRun → Prop
  | [] => True
  | r :: rest =>
    0 ≤ prev + r.delta ∧ prev + r.delta + r.length < 2 ^ 63 ∧ OnVolume (prev + r.delta) rest

/-- How `bl_ntfs_vcn_to_lcn` should return a cluster, or that there is none. -/
def lcnWord : Option Int → BitVec 64
  | none => -1
  | some lcn => BitVec.ofInt 64 lcn

def Translated (m : Mem) (attr : Nat) (runs : List DataRun) (v : BitVec 64) : Prop :=
  blNtfsVcnToLcn m attr v = some (lcnWord (lcnOf 0 runs v.toNat))

/-! ## When the code reads it right -/

/-- The mask of a field is that of its width modulo 4, so the field is read right when its value
needs no more bytes than that; and no field is read as signed. -/
structure DataRun.Plain (r : DataRun) : Prop where
  length_lt : r.length < 256 ^ (r.lengthBytes % 4)
  delta_nonneg : 0 ≤ r.delta
  delta_lt : r.delta < 256 ^ (r.deltaBytes % 4)
  deltaBytes_ne : r.deltaBytes ≠ 8

/-- The runs up to the one of VCN `v` are plain. -/
def PlainUpTo : List DataRun → Nat → Prop
  | [], _ => True
  | r :: rest, v => r.Plain ∧ (r.length < v → PlainUpTo rest (v - r.length))

/-- VCN `v` does not begin right after a run, unless the next run goes on where that one ends. -/
def FollowsOn : List DataRun → Nat → Prop
  | [], _ => True
  | r :: rest, v =>
    if v < r.length then True
    else if v = r.length then ∃ next post, rest = next :: post ∧ next.delta = r.length
    else FollowsOn rest (v - r.length)

variable {m : Mem} {r : DataRun} {rest runs : List DataRun} {a v : Nat}

theorem blNtfsReadBytes_eq {n : Nat} (h : 1 ≤ n ∧ n ≤ 7) :
    blNtfsReadBytes m a n = BitVec.ofNat 64 (readLE m a (n % 4)) := by
  have hle : 256 ^ (n % 4) ≤ 256 ^ 8 := Nat.pow_le_pow_right (by omega) (by omega)
  have hmask : ∀ w : BitVec 64, (w &&& BitVec.ofNat 64 (2 ^ (8 * n % 32) - 1)).toNat =
      w.toNat % 256 ^ (n % 4) := by
    intro w
    rw [show 8 * n % 32 = 8 * (n % 4) by omega, pow_mul, show 2 ^ 8 = 256 by rfl]
    rw [BitVec.toNat_and, BitVec.toNat_ofNat, Nat.mod_eq_of_lt (by omega),
      show 256 ^ (n % 4) = 2 ^ (8 * (n % 4)) by rw [pow_mul]; rfl, Nat.and_two_pow_sub_one_eq_mod]
  rw [blNtfsReadBytes, if_neg (by omega)]
  apply BitVec.eq_of_toNat_eq
  have hlt := lt_of_lt_of_le (readLE_lt m a (n % 4)) hle
  rw [hmask, BitVec.toNat_ofNat, Nat.mod_eq_of_lt (read64_lt m a), readLE_mod m a (by omega),
    BitVec.toNat_ofNat]
  exact (Nat.mod_eq_of_lt hlt).symm

/-! ## One run -/

theorem DataRun.read (h : HasBytes m a (encodeRuns (r :: rest))) :
    (m a).toNat = r.lengthBytes + 16 * r.deltaBytes ∧
      readLE m (1 + a) r.lengthBytes = r.length ∧
      readLE m (1 + a + r.lengthBytes) r.deltaBytes = (r.delta % 256 ^ r.deltaBytes).toNat ∧
      HasBytes m (a + (1 + r.lengthBytes + r.deltaBytes)) (encodeRuns rest) := by
  obtain ⟨hlo, hhi⟩ := r.lengthBytes_range
  obtain ⟨hdlo, hdhi⟩ := r.deltaBytes_range
  rw [encodeRuns, hasBytes_append, DataRun.encode, HasBytes, hasBytes_append] at h
  obtain ⟨⟨hhead, hlength, hdelta⟩, hrest⟩ := h
  rw [Nat.add_comm a 1] at hlength hdelta
  refine ⟨?_, ?_, ?_, ?_⟩
  · rw [hhead, BitVec.toNat_ofNat]
    omega
  · rw [readLE_of_hasBytes hlength, Nat.mod_eq_of_lt r.length_lt]
  · rw [length_bytesLE] at hdelta
    rw [readLE_of_hasBytes hdelta]
    refine Nat.mod_eq_of_lt ?_
    have hpos : (0 : Int) < 256 ^ r.deltaBytes := pow_pos (by omega) _
    have hlt := Int.emod_lt_of_pos r.delta hpos
    rw [Int.toNat_lt (Int.emod_nonneg _ hpos.ne')]
    push_cast
    exact hlt
  · simp only [List.length_cons, List.length_append, length_bytesLE] at hrest
    rwa [show a + (1 + r.lengthBytes + r.deltaBytes) =
      a + (r.lengthBytes + r.deltaBytes + 1) by omega]

/-- A plain run moves `cluster` and `offset` on by its own length and delta. -/
theorem DataRun.Plain.step {vcn cluster offset : BitVec 64} {fuel : Nat} (hr : r.Plain)
    (h : HasBytes m a (encodeRuns (r :: rest)))
    (hspace : a + (1 + r.lengthBytes + r.deltaBytes) < 2 ^ 32) :
    vcnToLcnFrom m vcn (fuel + 1) a cluster offset =
      if vcn ≤ cluster + BitVec.ofNat 64 r.length then
        some (offset + BitVec.ofInt 64 r.delta + vcn - cluster)
      else vcnToLcnFrom m vcn fuel (a + (1 + r.lengthBytes + r.deltaBytes))
        (cluster + BitVec.ofNat 64 r.length) (offset + BitVec.ofInt 64 r.delta) := by
  obtain ⟨hhead, hlength, hdelta, -⟩ := r.read h
  obtain ⟨hlo, hhi⟩ := r.lengthBytes_range
  obtain ⟨hdlo, hdhi⟩ := r.deltaBytes_range
  have hlen : r.lengthBytes ≠ 8 := by
    intro heq
    have hlt := hr.length_lt
    have hpos := r.length_pos
    rw [heq, show 8 % 4 = 0 by rfl, pow_zero] at hlt
    omega
  have hdne := hr.deltaBytes_ne
  have hrunLength : (m a).toNat &&& 7 = r.lengthBytes := by
    rw [hhead, show 7 = 2 ^ 3 - 1 by rfl, Nat.and_two_pow_sub_one_eq_mod]
    omega
  have hrunOffset : (m a).toNat >>> 4 &&& 7 = r.deltaBytes := by
    rw [hhead, Nat.shiftRight_eq_div_pow, show 7 = 2 ^ 3 - 1 by rfl,
      Nat.and_two_pow_sub_one_eq_mod]
    omega
  have hlengthRead : readLE m (1 + a) (r.lengthBytes % 4) = r.length := by
    rw [← readLE_mod m _ (Nat.mod_le _ _), hlength, Nat.mod_eq_of_lt hr.length_lt]
  have hdeltaRead : BitVec.ofNat 64 (readLE m (1 + a + r.lengthBytes) (r.deltaBytes % 4)) =
      BitVec.ofInt 64 r.delta := by
    have hle : (256 : Int) ^ (r.deltaBytes % 4) ≤ 256 ^ r.deltaBytes :=
      pow_le_pow_right₀ (by omega) (Nat.mod_le _ _)
    rw [← readLE_mod m _ (Nat.mod_le _ _), hdelta,
      Int.emod_eq_of_lt hr.delta_nonneg (lt_of_lt_of_le hr.delta_lt hle), Nat.mod_eq_of_lt,
      ← BitVec.ofInt_natCast, Int.toNat_of_nonneg hr.delta_nonneg]
    rw [Int.toNat_lt hr.delta_nonneg]
    exact_mod_cast hr.delta_lt
  have hne : (m a).toNat ≠ 0 := by omega
  simp only [vcnToLcnFrom, if_neg hne, hrunLength, hrunOffset,
    blNtfsReadBytes_eq (m := m) (a := 1 + a) (n := r.lengthBytes) ⟨hlo, by omega⟩,
    blNtfsReadBytes_eq (m := m) (a := 1 + a + r.lengthBytes) (n := r.deltaBytes)
      ⟨hdlo, by omega⟩, hlengthRead, hdeltaRead, BitVec.add_sub_cancel, Nat.mod_eq_of_lt hspace]

/-! ## The walk -/

theorem length_encodeRuns (r : DataRun) (rest : List DataRun) : (encodeRuns (r :: rest)).length =
    1 + r.lengthBytes + r.deltaBytes + (encodeRuns rest).length := by
  simp only [encodeRuns, DataRun.encode, List.length_append, List.length_cons, length_bytesLE]
  omega

theorem length_le_encodeRuns (runs : List DataRun) : runs.length < (encodeRuns runs).length := by
  induction runs with
  | nil => simp [encodeRuns]
  | cons r rest ih =>
    rw [length_encodeRuns, List.length_cons]
    omega

/-- What the walk makes of a list of plain runs: a run also answers for the cluster after its
last one. -/
def lcnWalked (prev : Int) : List DataRun → Nat → Option Int
  | [], _ => none
  | r :: rest, v =>
    if v ≤ r.length then some (prev + r.delta + v)
    else lcnWalked (prev + r.delta) rest (v - r.length)

theorem vcnToLcnFrom_eq {fuel S : Nat} {prev : Int} (h : HasBytes m a (encodeRuns runs))
    (hspace : a + (encodeRuns runs).length ≤ 2 ^ 32) (hfuel : runs.length < fuel)
    (hS : S + totalLength runs < 2 ^ 63) (hSv : S ≤ v) (hv : v < 2 ^ 64)
    (hplain : PlainUpTo runs (v - S)) :
    vcnToLcnFrom m (BitVec.ofNat 64 v) fuel a (BitVec.ofNat 64 S) (BitVec.ofInt 64 prev) =
      some (lcnWord (lcnWalked prev runs (v - S))) := by
  induction runs generalizing a fuel S prev with
  | nil =>
    obtain ⟨fuel, rfl⟩ : ∃ f, fuel = f + 1 := ⟨fuel - 1, by omega⟩
    have hend : m a = 0 := h.1
    simp [vcnToLcnFrom, hend, lcnWalked, lcnWord]
  | cons r rest ih =>
    obtain ⟨fuel, rfl⟩ : ∃ f, fuel = f + 1 := ⟨fuel - 1, by omega⟩
    rw [totalLength] at hS
    obtain ⟨hr, hrest⟩ := hplain
    have hlength := length_encodeRuns r rest
    have hmore := length_le_encodeRuns rest
    have hcover : BitVec.ofNat 64 v ≤ BitVec.ofNat 64 S + BitVec.ofNat 64 r.length ↔
        v - S ≤ r.length := by
      rw [← BitVec.ofNat_add, BitVec.ofNat_le_ofNat, Nat.mod_eq_of_lt hv,
        Nat.mod_eq_of_lt (by omega)]
      omega
    rw [hr.step h (by omega), ← BitVec.ofInt_add, lcnWalked]
    simp only [hcover]
    split_ifs with hle
    · have hsplit : BitVec.ofNat 64 v =
          BitVec.ofInt 64 ((v - S : Nat) : Int) + BitVec.ofNat 64 S := by
        rw [BitVec.ofInt_natCast, ← BitVec.ofNat_add, Nat.sub_add_cancel hSv]
      rw [hsplit, ← BitVec.add_assoc, BitVec.add_sub_cancel, ← BitVec.ofInt_add]
      rfl
    · rw [← BitVec.ofNat_add, ih (r.read h).2.2.2 (by omega) (by simpa using hfuel) (by omega)
        (by omega) (by simpa [Nat.sub_add_eq] using hrest (by omega)), Nat.sub_add_eq]

theorem lcnWord_some_inj {x y : Int} (hx : 0 ≤ x ∧ x < 2 ^ 63) (hy : 0 ≤ y ∧ y < 2 ^ 63) :
    lcnWord (some x) = lcnWord (some y) ↔ x = y := by
  refine ⟨fun h => ?_, fun h => h ▸ rfl⟩
  have hnat := congrArg BitVec.toNat h
  simp only [lcnWord, BitVec.toNat_ofInt] at hnat
  omega

theorem lcnWord_some_ne_none {x : Int} (hx : 0 ≤ x ∧ x < 2 ^ 63) :
    lcnWord (some x) ≠ lcnWord none := by
  intro h
  have hnat := congrArg BitVec.toNat h
  simp only [lcnWord, BitVec.toNat_ofInt] at hnat
  have hall : (-1 : BitVec 64).toNat = 2 ^ 64 - 1 := by decide
  omega

/-- The walk answers right just where no run is mistaken for the one before it. -/
theorem lcnWalked_eq_iff {prev : Int} (hvol : OnVolume prev runs) :
    lcnWord (lcnWalked prev runs v) = lcnWord (lcnOf prev runs v) ↔ FollowsOn runs v := by
  induction runs generalizing prev v with
  | nil => simp [lcnWalked, lcnOf, FollowsOn]
  | cons r rest ih =>
    obtain ⟨hlow, hhigh, hvol⟩ := hvol
    rw [lcnWalked, lcnOf, FollowsOn]
    rcases lt_trichotomy v r.length with hlt | rfl | hgt
    · simp [hlt, hlt.le]
    · rw [if_pos le_rfl, if_neg (lt_irrefl _), if_neg (lt_irrefl _), if_pos rfl, Nat.sub_self]
      have hend : 0 ≤ prev + r.delta + r.length ∧ prev + r.delta + r.length < 2 ^ 63 := by omega
      cases rest with
      | nil => simpa [lcnOf] using lcnWord_some_ne_none hend
      | cons next post =>
        have hpos := next.length_pos
        obtain ⟨hlow', hhigh', -⟩ := hvol
        rw [lcnOf, if_pos hpos, lcnWord_some_inj hend (by omega)]
        constructor
        · intro heq
          exact ⟨next, post, rfl, by omega⟩
        · rintro ⟨_, _, hsame, hdelta⟩
          obtain ⟨rfl, rfl⟩ := List.cons.inj hsame
          omega
    · rw [if_neg (by omega), if_neg (by omega), if_neg (by omega), if_neg (by omega)]
      exact ih hvol

/-! ## The whole translation -/

theorem mftRecord_toNat (v : BitVec 64) : (mftRecord v).toNat = v.toNat % 2 ^ 48 := by
  rw [mftRecord, BitVec.toNat_and]
  exact Nat.and_two_pow_sub_one_eq_mod _ 48

/-- VCN by VCN, as long as the runs read are plain. -/
theorem blNtfsVcnToLcn_plain {attr : Nat} (henc : HasBytes m (dataRuns m attr) (encodeRuns runs))
    (hspace : dataRuns m attr + (encodeRuns runs).length ≤ 2 ^ 32)
    (htotal : totalLength runs < 2 ^ 63) (hvol : OnVolume 0 runs) (v : BitVec 64)
    (hv : v.toNat < 2 ^ 48) (hplain : PlainUpTo runs v.toNat) :
    Translated m attr runs v ↔ FollowsOn runs v.toNat := by
  have hlen := length_le_encodeRuns runs
  have hmft : mftRecord v = BitVec.ofNat 64 v.toNat := by
    apply BitVec.eq_of_toNat_eq
    rw [mftRecord_toNat, Nat.mod_eq_of_lt hv, BitVec.toNat_ofNat, Nat.mod_eq_of_lt v.isLt]
  have hwalk : blNtfsVcnToLcn m attr v = some (lcnWord (lcnWalked 0 runs v.toNat)) := by
    have hfuel : runs.length < runFuel := by
      simp only [runFuel]
      omega
    have hfrom : vcnToLcnFrom m (BitVec.ofNat 64 v.toNat) runFuel (dataRuns m attr)
        (BitVec.ofNat 64 0) (BitVec.ofInt 64 0) = some (lcnWord (lcnWalked 0 runs (v.toNat - 0))) :=
      vcnToLcnFrom_eq henc hspace hfuel (by omega) (Nat.zero_le v.toNat) v.isLt
        (by simpa using hplain)
    rw [blNtfsVcnToLcn, hmft]
    simpa using hfrom
  rw [Translated, hwalk, Option.some.injEq]
  exact lcnWalked_eq_iff hvol

theorem lcnOf_past {prev : Int} (h : totalLength runs ≤ v) : lcnOf prev runs v = none := by
  induction runs generalizing prev v with
  | nil => rfl
  | cons r rest ih =>
    rw [totalLength] at h
    rw [lcnOf, if_neg (by omega)]
    exact ih (by omega)

/-- **Run lists.** All VCNs are translated right only when there is no run at all: the VCN is cut
to 48 bits. Below `2 ^ 48`, and with plain runs, a VCN is translated right just when it does not
begin right after a run that the next one does not go on from. -/
theorem blNtfsVcnToLcn_translated_iff {attr : Nat}
    (henc : HasBytes m (dataRuns m attr) (encodeRuns runs))
    (hspace : dataRuns m attr + (encodeRuns runs).length ≤ 2 ^ 32)
    (htotal : totalLength runs < 2 ^ 63) (hvol : OnVolume 0 runs) :
    ((∀ v, Translated m attr runs v) ↔ runs = []) ∧
      ∀ v : BitVec 64, v.toNat < 2 ^ 48 → PlainUpTo runs v.toNat →
        (Translated m attr runs v ↔ FollowsOn runs v.toNat) := by
  refine ⟨⟨fun h => ?_, fun h v => ?_⟩, blNtfsVcnToLcn_plain henc hspace htotal hvol⟩
  · by_contra hne
    obtain ⟨r, rest, rfl⟩ := List.exists_cons_of_ne_nil hne
    have hpos := r.length_pos
    -- VCN 0 and VCN `2 ^ 64 - 2 ^ 48` are the same to the code, and only one of them has a cluster.
    have hfirst := h 0
    have hpast := h (BitVec.ofNat 64 (2 ^ 64 - 2 ^ 48))
    have hsame : mftRecord (BitVec.ofNat 64 (2 ^ 64 - 2 ^ 48)) = mftRecord 0 := by decide
    rw [Translated, blNtfsVcnToLcn] at hfirst hpast
    have hnone : lcnOf 0 (r :: rest) (BitVec.ofNat 64 (2 ^ 64 - 2 ^ 48)).toNat = none :=
      lcnOf_past (by rw [BitVec.toNat_ofNat]; omega)
    have hzero : lcnOf 0 (r :: rest) (0 : BitVec 64).toNat = some r.delta := by
      simp [lcnOf, hpos]
    rw [hsame, hfirst, Option.some.injEq, hnone, hzero] at hpast
    have hrange := hvol.1
    have hhigh := hvol.2.1
    exact lcnWord_some_ne_none (by omega) hpast
  · subst h
    have hend : m (dataRuns m attr) = 0 := henc.1
    simp [Translated, blNtfsVcnToLcn, runFuel, vcnToLcnFrom, hend, lcnOf, lcnWord]

theorem oneByte_range : 1 ≤ 1 ∧ 1 ≤ 8 := by decide

theorem hundred_range :
    -2 ^ (8 * 1 - 1) ≤ (100 : Int) ∧ (100 : Int) < 2 ^ (8 * 1 - 1) := by decide

/-- One cluster at 100, then one at 200. -/
def twoRuns : List DataRun :=
  [⟨1, 1, 100, 1, Nat.one_pos, by decide, oneByte_range, oneByte_range, hundred_range⟩,
    ⟨1, 1, 100, 1, Nat.one_pos, by decide, oneByte_range, oneByte_range, hundred_range⟩]

/-- The attribute at 0, its runs at 64. -/
def attributeOf (runs : List DataRun) : Mem := ofPieces [(32, [64]), (64, encodeRuns runs)]

theorem blNtfsVcnToLcn_translated_iff_first : Translated (attributeOf twoRuns) 0 twoRuns 0 := by
  have henc : HasBytes (attributeOf twoRuns) (dataRuns (attributeOf twoRuns) 0)
      (encodeRuns twoRuns) :=
    ⟨rfl, rfl, rfl, rfl, rfl, rfl, rfl, trivial⟩
  have hvol : OnVolume 0 twoRuns := by simp [OnVolume, twoRuns]
  have hplain : PlainUpTo twoRuns (0 : BitVec 64).toNat :=
    ⟨⟨by decide, by decide, by decide, by decide⟩, fun h => absurd h (by decide)⟩
  have hfollows : FollowsOn twoRuns (0 : BitVec 64).toNat := by simp [FollowsOn, twoRuns]
  exact ((blNtfsVcnToLcn_translated_iff henc (by decide) (by decide) hvol).2 0 (by decide)
    hplain).mpr hfollows

/-- VCN 1 is the cluster at 200, and the answer is 101. -/
theorem twoRuns_not_translated :
    HasBytes (attributeOf twoRuns) (dataRuns (attributeOf twoRuns) 0) (encodeRuns twoRuns) ∧
      blNtfsVcnToLcn (attributeOf twoRuns) 0 1 = some 101 ∧
      ¬ Translated (attributeOf twoRuns) 0 twoRuns 1 := by
  refine ⟨⟨rfl, rfl, rfl, rfl, rfl, rfl, rfl, trivial⟩, rfl, ?_⟩
  unfold Translated
  decide

end BootLoader.Ntfs
