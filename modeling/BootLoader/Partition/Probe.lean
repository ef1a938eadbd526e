import BootLoader.Partition.Code

/-!
# What probing leaves behind

For every pattern of failing reads and allocations, and for both orders of the two handlers.
-/

open ByteMemory

namespace BootLoader.Partition

open Driver Storage

variable {env : Env} {reading : Bool} {entry : Nat → Option BlPartition} {left i : Nat}
  {d d' : Disk} {handlers : List Handler}

/-! ## The loop over the entries -/

/-- The entries from the number `i` on that are not empty. -/
def nonEmpty (entry : Nat → Option BlPartition) : Nat → Nat → List BlPartition
  | 0, _ => []
  | left + 1, i => (entry i).toList ++ nonEmpty entry left (i + 1)

/-- Every read and allocation of the loop is served, from these numbers on. -/
def Served (env : Env) (reading : Bool) (entry : Nat → Option BlPartition) :
    Nat → Nat → Nat → Nat → Prop
  | 0, _, _, _ => True
  | left + 1, i, reads, allocs =>
    (reading = true → env.reads reads = .success) ∧
      let reads := if reading then reads + 1 else reads
      match entry i with
      | none => Served env reading entry left (i + 1) reads allocs
      | some _ =>
        env.allocs allocs = true ∧ Served env reading entry left (i + 1) reads (allocs + 1)

/-- The first read or allocation that fails comes before any entry is recorded. -/
def FailsFirst (env : Env) (reading : Bool) (entry : Nat → Option BlPartition) :
    Nat → Nat → Nat → Nat → Prop
  | 0, _, _, _ => False
  | left + 1, i, reads, allocs =>
    reading = true ∧ env.reads reads ≠ .success ∨
      (reading = true → env.reads reads = .success) ∧
        let reads := if reading then reads + 1 else reads
        match entry i with
        | none => FailsFirst env reading entry left (i + 1) reads allocs
        | some _ => env.allocs allocs = false

/-- The list and the blocks in use are the same. -/
structure Unchanged (d d' : Disk) : Prop where
  partitions : d'.partitions = d.partitions
  used : d'.world.used = d.world.used

theorem Unchanged.refl (d : Disk) : Unchanged d d := ⟨rfl, rfl⟩

theorem Unchanged.trans {d'' : Disk} (h : Unchanged d d') (h' : Unchanged d' d'') :
    Unchanged d d'' :=
  ⟨h'.partitions.trans h.partitions, h'.used.trans h.used⟩

/-- What the loop comes to: all is recorded, nothing is, or something that stays behind. -/
inductive Outcome (env : Env) (reading : Bool) (entry : Nat → Option BlPartition) (left i : Nat)
    (d : Disk) (out : Disk × BlStatus) : Prop
  | all (h : Served env reading entry left i d.world.reads d.world.allocs)
      (status : out.2 = .success)
      (partitions : out.1.partitions.map Prod.snd =
        (nonEmpty entry left i).reverse ++ d.partitions.map Prod.snd)
  | nothing (h : FailsFirst env reading entry left i d.world.reads d.world.allocs)
      (status : out.2 ≠ .success) (unchanged : Unchanged d out.1)
  | some (hserved : ¬Served env reading entry left i d.world.reads d.world.allocs)
      (hfails : ¬FailsFirst env reading entry left i d.world.reads d.world.allocs)
      (status : out.2 ≠ .success) (grown : d.partitions.length < out.1.partitions.length)

theorem FailsFirst.not_served {reads allocs : Nat}
    (h : FailsFirst env reading entry left i reads allocs) :
    ¬Served env reading entry left i reads allocs := by
  induction left generalizing i reads allocs with
  | zero => exact h.elim
  | succ left ih =>
    rintro ⟨hserve, hrest⟩
    rcases h with ⟨hr, hfail⟩ | ⟨-, h⟩
    · exact hfail (hserve hr)
    · cases hentry : entry i with
      | none =>
        simp only [hentry] at h hrest
        exact ih h hrest
      | some p =>
        simp only [hentry] at h hrest
        rw [hrest.1] at h
        contradiction

theorem Outcome.grows {out : Disk × BlStatus} (h : Outcome env reading entry left i d out) :
    d.partitions.length ≤ out.1.partitions.length := by
  cases h with
  | all _ _ partitions =>
    have hlength := congrArg List.length partitions
    simp only [List.length_map, List.length_append] at hlength
    omega
  | nothing _ _ unchanged => rw [unchanged.partitions]
  | some _ _ _ grown => exact grown.le

/-- What the read of an entry does, if there is one. -/
structure EntryRead (env : Env) (reading : Bool) (d d₁ : Disk) (status : BlStatus) : Prop where
  unchanged : Unchanged d d₁
  allocs : d₁.world.allocs = d.world.allocs
  reads : d₁.world.reads = if reading then d.world.reads + 1 else d.world.reads
  status_iff : status = .success ↔ (reading = true → env.reads d.world.reads = .success)

theorem entryRead (env : Env) (reading : Bool) (d : Disk) :
    EntryRead env reading d (if reading then d.read env else (d, .success)).1
      (if reading then d.read env else (d, .success)).2 := by
  cases reading with
  | true => exact ⟨⟨rfl, rfl⟩, rfl, rfl, by simp [Disk.read]⟩
  | false => exact ⟨⟨rfl, rfl⟩, rfl, rfl, by simp⟩

section

variable {d₁ d₂ : Disk} {p : BlPartition} {out : Disk × BlStatus}

theorem EntryRead.not_failed (hread : EntryRead env reading d d₁ .success) :
    ¬(reading = true ∧ env.reads d.world.reads ≠ .success) :=
  fun h => h.2 (hread.status_iff.mp rfl h.1)

theorem EntryRead.fails_iff (hread : EntryRead env reading d d₁ .success)
    (hentry : entry i = some p) :
    FailsFirst env reading entry (left + 1) i d.world.reads d.world.allocs ↔
      env.allocs d₁.world.allocs = false := by
  simp only [FailsFirst, hentry, hread.allocs, and_iff_right (hread.status_iff.mp rfl),
    hread.not_failed, false_or]

/-- An empty entry leaves the outcome to the others. -/
theorem Outcome.skip (hread : EntryRead env reading d d₁ .success) (hentry : entry i = none)
    (h : Outcome env reading entry left (i + 1) d₁ out) :
    Outcome env reading entry (left + 1) i d out := by
  have hserve := hread.status_iff.mp rfl
  have hlist : nonEmpty entry (left + 1) i = nonEmpty entry left (i + 1) := by
    simp [nonEmpty, hentry]
  have hserved : Served env reading entry (left + 1) i d.world.reads d.world.allocs ↔
      Served env reading entry left (i + 1) d₁.world.reads d₁.world.allocs := by
    simp only [Served, hentry, hread.reads, hread.allocs, and_iff_right hserve]
  have hfails : FailsFirst env reading entry (left + 1) i d.world.reads d.world.allocs ↔
      FailsFirst env reading entry left (i + 1) d₁.world.reads d₁.world.allocs := by
    simp only [FailsFirst, hentry, hread.reads, hread.allocs, and_iff_right hserve,
      hread.not_failed, false_or]
  cases h with
  | all h status partitions =>
    exact .all (hserved.mpr h) status (by rw [partitions, hlist, hread.unchanged.partitions])
  | nothing h status unchanged =>
    exact .nothing (hfails.mpr h) status (hread.unchanged.trans unchanged)
  | some hnot hlate status grown =>
    exact .some (fun hs => hnot (hserved.mp hs)) (fun hf => hlate (hfails.mp hf)) status
      (hread.unchanged.partitions ▸ grown)

/-- Where an entry has been recorded, a later failure leaves it behind. -/
theorem Outcome.record (hread : EntryRead env reading d d₁ .success)
    (hentry : entry i = Option.some p) (halloc : env.allocs d₁.world.allocs = true)
    (hpartitions : d₂.partitions = (d₁.world.next, p) :: d₁.partitions)
    (hallocs : d₂.world.allocs = d₁.world.allocs + 1) (hreads : d₂.world.reads = d₁.world.reads)
    (h : Outcome env reading entry left (i + 1) d₂ out) :
    Outcome env reading entry (left + 1) i d out := by
  have hserved : Served env reading entry (left + 1) i d.world.reads d.world.allocs ↔
      Served env reading entry left (i + 1) d₂.world.reads d₂.world.allocs := by
    have halloc' := halloc
    rw [hread.allocs] at halloc'
    simp only [Served, hentry, hreads, hread.reads, hallocs, hread.allocs, halloc',
      and_iff_right (hread.status_iff.mp rfl), true_and]
  have hno : ¬FailsFirst env reading entry (left + 1) i d.world.reads d.world.allocs := by
    rw [hread.fails_iff hentry, halloc]
    simp
  have hgrown : d.partitions.length < out.1.partitions.length := by
    refine Nat.lt_of_lt_of_le ?_ h.grows
    rw [hpartitions, hread.unchanged.partitions]
    exact Nat.lt_succ_self _
  cases h with
  | all h status partitions =>
    refine .all (hserved.mpr h) status ?_
    rw [partitions, hpartitions, hread.unchanged.partitions]
    simp [nonEmpty, hentry]
  | nothing h status _ => exact .some (fun hs => h.not_served (hserved.mp hs)) hno status hgrown
  | some hnot _ status _ => exact .some (fun hs => hnot (hserved.mp hs)) hno status hgrown

end

theorem Disk.record_served {p : BlPartition} (halloc : env.allocs d.world.allocs = true) :
    ∃ d', d.record env p = (d', .success) ∧
      d'.partitions = (d.world.next, p) :: d.partitions ∧
      d'.world.allocs = d.world.allocs + 1 ∧ d'.world.reads = d.world.reads := by
  unfold Disk.record World.alloc
  rw [if_pos halloc]
  exact ⟨_, rfl, rfl, rfl, rfl⟩

theorem Disk.record_refused {p : BlPartition} (halloc : env.allocs d.world.allocs = false) :
    ∃ d', d.record env p = (d', .memoryAllocationFailed) ∧ Unchanged d d' := by
  unfold Disk.record World.alloc
  rw [if_neg (by simp [halloc])]
  exact ⟨_, rfl, rfl, rfl⟩

theorem recordEntries_outcome (env : Env) (reading : Bool) (entry : Nat → Option BlPartition)
    (left i : Nat) (d : Disk) :
    Outcome env reading entry left i d (recordEntries env reading entry left i d) := by
  induction left generalizing i d with
  | zero => exact .all trivial rfl (by simp [recordEntries, nonEmpty])
  | succ left ih =>
    rw [recordEntries]
    have hread := entryRead env reading d
    generalize (if reading then d.read env else (d, .success)) = r at hread
    obtain ⟨d₁, status⟩ := r
    dsimp only at hread ⊢
    by_cases hok : status = .success
    · subst hok
      rw [if_neg (not_not.mpr rfl)]
      cases hentry : entry i with
      | none => exact (ih (i + 1) d₁).skip hread hentry
      | some p =>
        dsimp only
        cases halloc : env.allocs d₁.world.allocs with
        | false =>
          obtain ⟨d₂, hrecord, hsame⟩ := d₁.record_refused (p := p) halloc
          rw [hrecord]
          exact .nothing ((hread.fails_iff hentry).mpr halloc) (by simp)
            (hread.unchanged.trans hsame)
        | true =>
          obtain ⟨d₂, hrecord, hpartitions, hallocs, hreads⟩ := d₁.record_served (p := p) halloc
          rw [hrecord]
          exact (ih (i + 1) d₂).record hread hentry halloc hpartitions hallocs hreads
    · rw [if_pos hok]
      refine .nothing (.inl ?_) hok hread.unchanged
      by_contra hno
      exact hok (hread.status_iff.mpr fun hr => by_contra fun hne => hno ⟨hr, hne⟩)

theorem recordEntries_unchanged_iff (env : Env) (reading : Bool) (entry : Nat → Option BlPartition)
    (left i : Nat) (d : Disk) :
    ((recordEntries env reading entry left i d).2 ≠ .success →
        Unchanged d (recordEntries env reading entry left i d).1) ↔
      Served env reading entry left i d.world.reads d.world.allocs ∨
        FailsFirst env reading entry left i d.world.reads d.world.allocs := by
  cases recordEntries_outcome env reading entry left i d with
  | all h hst _ => exact iff_of_true (fun hne => absurd hst hne) (.inl h)
  | nothing h _ hun => exact iff_of_true (fun _ => hun) (.inr h)
  | some h h' hst hlt =>
    refine iff_of_false (fun hun => ?_) (fun hor => hor.elim h h')
    rw [(hun hst).partitions] at hlt
    exact Nat.lt_irrefl _ hlt

/-! ## All or nothing -/

inductive Kind where
  | gpt
  | mbr

def Kind.iterate : Kind → Handler
  | .gpt => blGptIterate
  | .mbr => blMbrIterate

/-- If the handler comes to its entries, all of them are recorded or the first failure comes before
any is. -/
def Kind.Atomic (env : Env) (d : Disk) : Kind → Prop
  | .gpt =>
    env.reads d.world.reads = .success → mbrSignature env.disk = blMbrSignature →
      hasProtectiveEntry env.disk = true → env.reads (d.world.reads + 1) = .success →
      gptSignatureValid env.disk = true →
        Served env true (gptEntry env.disk) (gptPartitionsCount env.disk) 0 (d.world.reads + 2)
            d.world.allocs ∨
          FailsFirst env true (gptEntry env.disk) (gptPartitionsCount env.disk) 0
            (d.world.reads + 2) d.world.allocs
  | .mbr =>
    env.reads d.world.reads = .success → mbrSignature env.disk = blMbrSignature →
      Served env false (mbrEntry env.disk) 4 0 (d.world.reads + 1) d.world.allocs ∨
        FailsFirst env false (mbrEntry env.disk) 4 0 (d.world.reads + 1) d.world.allocs

theorem read_spec (env : Env) (d : Disk) :
    ∃ d₁, d.read env = (d₁, env.reads d.world.reads) ∧ (∀ d', Unchanged d₁ d' ↔ Unchanged d d') ∧
      d₁.world.reads = d.world.reads + 1 ∧ d₁.world.allocs = d.world.allocs :=
  ⟨_, rfl, fun _ => ⟨fun h => ⟨h.partitions, h.used⟩, fun h => ⟨h.partitions, h.used⟩⟩, rfl, rfl⟩

theorem blMbrIterate_atomic_iff (env : Env) (d : Disk) :
    ((blMbrIterate env d).2 ≠ .success → Unchanged d (blMbrIterate env d).1) ↔
      Kind.mbr.Atomic env d := by
  obtain ⟨d₁, hd₁, hsame, hreads, hallocs⟩ := read_spec env d
  have hearly := (hsame d₁).mp (Unchanged.refl d₁)
  unfold blMbrIterate Kind.Atomic
  simp only [hd₁]
  by_cases hread : env.reads d.world.reads = .success
  · by_cases hsignature : mbrSignature env.disk = blMbrSignature
    · rw [if_neg (not_not.mpr hread), if_neg (not_not.mpr hsignature), ← hsame,
        recordEntries_unchanged_iff, hreads, hallocs]
      simp only [hread, hsignature, forall_const]
    · rw [if_neg (not_not.mpr hread), if_pos hsignature]
      exact iff_of_true (fun _ => hearly) fun _ hok => absurd hok hsignature
  · rw [if_pos hread]
    exact iff_of_true (fun _ => hearly) fun hok => absurd hok hread

theorem blGptIterate_atomic_iff (env : Env) (d : Disk) :
    ((blGptIterate env d).2 ≠ .success → Unchanged d (blGptIterate env d).1) ↔
      Kind.gpt.Atomic env d := by
  obtain ⟨d₁, hd₁, hsame, hreads, hallocs⟩ := read_spec env d
  obtain ⟨d₂, hd₂, hsame₂, hreads₂, hallocs₂⟩ := read_spec env d₁
  rw [hreads] at hd₂ hreads₂
  have hearly := (hsame d₁).mp (Unchanged.refl d₁)
  have hearly₂ := hearly.trans ((hsame₂ d₂).mp (Unchanged.refl d₂))
  unfold blGptIterate Kind.Atomic
  simp only [hd₁, hd₂]
  split_ifs with hread hsignature hprotective hread' hvalid
  · exact iff_of_true (fun _ => hearly) fun hok => absurd hok hread
  · exact iff_of_true (fun _ => hearly) fun _ hok => absurd hok hsignature
  · exact iff_of_true (fun _ => hearly) fun _ _ hok => by simp [hok] at hprotective
  · exact iff_of_true (fun _ => hearly₂) fun _ _ _ hok => absurd hok hread'
  · exact iff_of_true (fun _ => hearly₂) fun _ _ _ _ hok => by simp [hok] at hvalid
  · rw [← hsame, ← hsame₂, recordEntries_unchanged_iff, hreads₂, hallocs₂, hallocs]
    simp only [Bool.not_eq_true, Bool.not_eq_false'] at hprotective hvalid
    simp only [not_not.mp hread, not_not.mp hsignature, not_not.mp hread', hprotective, hvalid,
      forall_const]

/-- Every handler that the probe comes to records all or nothing. -/
def ProbeAtomic (env : Env) : List Kind → Disk → Prop
  | [], _ => True
  | k :: ks, d =>
    k.Atomic env d ∧ ((k.iterate env d).2 ≠ .success → ProbeAtomic env ks (k.iterate env d).1)

/-- The partitions come from one handler, the first that succeeds, and else nothing changed. -/
def FromOne (env : Env) (ks : List Kind) (d : Disk) : Prop :=
  (∃ before k after d₁, ks = before ++ k :: after ∧
    blPartitionTableProbe env (before.map Kind.iterate) d = (d₁, .unproperDisk) ∧
    Unchanged d d₁ ∧ (k.iterate env d₁).2 = .success ∧
    blPartitionTableProbe env (ks.map Kind.iterate) d = k.iterate env d₁) ∨
  ∃ d₁, blPartitionTableProbe env (ks.map Kind.iterate) d = (d₁, .unproperDisk) ∧ Unchanged d d₁

theorem Kind.atomic_iff (k : Kind) (env : Env) (d : Disk) :
    ((k.iterate env d).2 ≠ .success → Unchanged d (k.iterate env d).1) ↔ k.Atomic env d := by
  cases k with
  | gpt => exact blGptIterate_atomic_iff env d
  | mbr => exact blMbrIterate_atomic_iff env d

theorem probe_cons (iterate : Handler) (handlers : List Handler) :
    blPartitionTableProbe env (iterate :: handlers) d =
      if (iterate env d).2 = .success then iterate env d
      else blPartitionTableProbe env handlers (iterate env d).1 := by
  rw [blPartitionTableProbe]
  generalize iterate env d = r
  obtain ⟨d₁, status⟩ := r
  cases status <;> rfl

theorem FromOne.cons {k : Kind} {ks : List Kind} (hfail : (k.iterate env d).2 ≠ .success)
    (hun : Unchanged d (k.iterate env d).1) (h : FromOne env ks (k.iterate env d).1) :
    FromOne env (k :: ks) d := by
  rcases h with ⟨before, k', after, d₁, rfl, hbefore, hun', hok, hprobe⟩ | ⟨d₁, hprobe, hun'⟩
  · refine .inl ⟨k :: before, k', after, d₁, rfl, ?_, hun.trans hun', hok, ?_⟩
    · rw [List.map_cons, probe_cons, if_neg hfail, hbefore]
    · rw [List.map_cons, probe_cons, if_neg hfail, hprobe]
  · refine .inr ⟨d₁, ?_, hun.trans hun'⟩
    rw [List.map_cons, probe_cons, if_neg hfail, hprobe]

/-- **When probing is all or nothing**: each handler exactly under its condition, and then the whole
probe. -/
theorem probe_atomic (env : Env) (ks : List Kind) (d : Disk) :
    (∀ k : Kind, ((k.iterate env d).2 ≠ .success → Unchanged d (k.iterate env d).1) ↔
      k.Atomic env d) ∧
    (ProbeAtomic env ks d → FromOne env ks d) := by
  refine ⟨fun k => k.atomic_iff env d, ?_⟩
  induction ks generalizing d with
  | nil => exact fun _ => .inr ⟨d, rfl, Unchanged.refl d⟩
  | cons k ks ih =>
    rintro ⟨hatomic, hrest⟩
    by_cases hok : (k.iterate env d).2 = .success
    · refine .inl ⟨[], k, ks, d, rfl, rfl, Unchanged.refl d, hok, ?_⟩
      rw [List.map_cons, probe_cons, if_pos hok]
    · exact .cons hok ((k.atomic_iff env d).mpr hatomic hok) (ih _ (hrest hok))

/-- Two MBR entries of type 7, from the sectors 63 and 163 on. -/
def twoEntries : Mem
  | 450 => 7
  | 454 => 63
  | 458 => 100
  | 466 => 7
  | 470 => 163
  | 474 => 100
  | 510 => 0x55
  | 511 => 0xaa
  | _ => 0

def emptyWorld : World := ⟨0, fun _ _ => 0, fun _ => false, 0, 0, []⟩

def allServed : Env := ⟨fun _ => true, fun _ => .success, twoEntries⟩

theorem twoEntries_atomic :
    (∀ k : Kind, ((k.iterate allServed ⟨emptyWorld, []⟩).2 ≠ .success →
        Unchanged ⟨emptyWorld, []⟩ (k.iterate allServed ⟨emptyWorld, []⟩).1) ↔
      k.Atomic allServed ⟨emptyWorld, []⟩) ∧
    FromOne allServed [.gpt, .mbr] ⟨emptyWorld, []⟩ := by
  have h := probe_atomic allServed [.gpt, .mbr] ⟨emptyWorld, []⟩
  refine ⟨h.1, h.2 ⟨fun _ _ hprotective => ?_, fun _ => ⟨fun _ _ => .inl ?_, fun hfail => ?_⟩⟩⟩
  · exact absurd hprotective (by decide)
  · simp only [Served, allServed, mbrEntry, mbrPartitionType, mbrEntryOff, twoEntries,
      blMbrPartitionTypeNone]
    simp
  · exact absurd hfail (by decide +kernel)

def oneBlock : Env := ⟨fun n => n = 0, fun _ => .success, twoEntries⟩

theorem oneBlock_not_atomic : ¬ ∀ env d (k : Kind),
    (k.iterate env d).2 ≠ .success → Unchanged d (k.iterate env d).1 := by
  intro h
  have hun := (h oneBlock ⟨emptyWorld, []⟩ .mbr (by decide +kernel)).partitions
  have hone : (blMbrIterate oneBlock ⟨emptyWorld, []⟩).1.partitions = [(0, ⟨63, 100⟩)] := by
    decide +kernel
  rw [show Kind.mbr.iterate = blMbrIterate from rfl, hone] at hun
  contradiction

end BootLoader.Partition
