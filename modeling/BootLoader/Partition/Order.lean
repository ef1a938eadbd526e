import BootLoader.Partition.Probe

/-!
# The order of the handlers

With every read and allocation served, the list of partitions is a function of the disk and the
order in which the handlers registered.
-/

open ByteMemory

namespace BootLoader.Partition

open Driver Storage

/-- The partitions, the last one recorded first. -/
def recorded (entry : Nat → Option BlPartition) (count : Nat) : List BlPartition :=
  (nonEmpty entry count 0).reverse

def gptPartitions (disk : Mem) : List BlPartition :=
  recorded (gptEntry disk) (gptPartitionsCount disk)

def mbrPartitions (disk : Mem) : List BlPartition := recorded (mbrEntry disk) 4

/-- A protective MBR entry, and a valid GPT header. -/
def IsGpt (disk : Mem) : Prop :=
  mbrSignature disk = blMbrSignature ∧ hasProtectiveEntry disk = true ∧
    gptSignatureValid disk = true

instance (disk : Mem) : Decidable (IsGpt disk) := inferInstanceAs (Decidable (_ ∧ _ ∧ _))

/-- What the disk says: without the MBR signature there are no MBR entries. -/
def partitionsOf (disk : Mem) : List BlPartition :=
  if IsGpt disk then gptPartitions disk
  else if mbrSignature disk = blMbrSignature then mbrPartitions disk
  else []

/-- Every read and every allocation is served. -/
structure AllServed (env : Env) : Prop where
  reads : ∀ n, env.reads n = .success
  allocs : ∀ n, env.allocs n = true

def values (d : Disk) : List BlPartition := d.partitions.map Prod.snd

variable {env : Env} {d : Disk}

theorem AllServed.served (h : AllServed env) (reading : Bool) (entry : Nat → Option BlPartition)
    (left i reads allocs : Nat) : Served env reading entry left i reads allocs := by
  induction left generalizing i reads allocs with
  | zero => trivial
  | succ left ih =>
    refine ⟨fun _ => h.reads _, ?_⟩
    cases entry i with
    | none => exact ih _ _ _
    | some p => exact ⟨h.allocs _, ih _ _ _⟩

theorem AllServed.recordEntries (h : AllServed env) (reading : Bool)
    (entry : Nat → Option BlPartition) (left : Nat) (d : Disk) :
    (recordEntries env reading entry left 0 d).2 = .success ∧
      values (recordEntries env reading entry left 0 d).1 = recorded entry left ++ values d := by
  have hserved := h.served reading entry left 0 d.world.reads d.world.allocs
  cases recordEntries_outcome env reading entry left 0 d with
  | all _ hst hps => exact ⟨hst, hps⟩
  | nothing hfails => exact absurd hserved hfails.not_served
  | some hnot => exact absurd hserved hnot

theorem AllServed.read (h : AllServed env) (d : Disk) :
    ∃ d₁, d.read env = (d₁, .success) ∧ values d₁ = values d := by
  obtain ⟨d₁, hd₁, hsame, -⟩ := read_spec env d
  rw [h.reads] at hd₁
  exact ⟨d₁, hd₁, congrArg (List.map Prod.snd) ((hsame d₁).mp (Unchanged.refl d₁)).partitions⟩

/-- What the MBR handler answers, and records. -/
theorem AllServed.mbr (h : AllServed env) (d : Disk) :
    ((blMbrIterate env d).2 = .success ↔ mbrSignature env.disk = blMbrSignature) ∧
      values (blMbrIterate env d).1 =
        (if mbrSignature env.disk = blMbrSignature then mbrPartitions env.disk else []) ++
          values d := by
  obtain ⟨d₁, hd₁, hvalues⟩ := h.read d
  unfold blMbrIterate
  simp only [hd₁, ne_eq, not_true_eq_false, if_false]
  by_cases hsignature : mbrSignature env.disk = blMbrSignature
  · obtain ⟨hok, hrecorded⟩ := h.recordEntries false (mbrEntry env.disk) 4 d₁
    rw [if_neg (not_not.mpr hsignature), if_pos hsignature, hrecorded, hvalues]
    exact ⟨iff_of_true hok hsignature, rfl⟩
  · rw [if_pos hsignature, if_neg hsignature]
    exact ⟨iff_of_false (by simp) hsignature, hvalues⟩

/-- What the GPT handler answers, and records. -/
theorem AllServed.gpt (h : AllServed env) (d : Disk) :
    ((blGptIterate env d).2 = .success ↔ IsGpt env.disk) ∧
      values (blGptIterate env d).1 =
        (if IsGpt env.disk then gptPartitions env.disk else []) ++ values d := by
  obtain ⟨d₁, hd₁, hvalues⟩ := h.read d
  obtain ⟨d₂, hd₂, hvalues₂⟩ := h.read d₁
  unfold blGptIterate
  simp only [hd₁, hd₂, ne_eq, not_true_eq_false, if_false]
  by_cases hgpt : IsGpt env.disk
  · obtain ⟨hok, hrecorded⟩ :=
      h.recordEntries true (gptEntry env.disk) (gptPartitionsCount env.disk) d₂
    rw [if_neg (not_not.mpr hgpt.1), hgpt.2.1, hgpt.2.2, if_pos hgpt]
    simp only [Bool.not_true, Bool.false_eq_true, if_false]
    rw [hrecorded, hvalues₂, hvalues]
    exact ⟨iff_of_true hok hgpt, rfl⟩
  · rw [if_neg hgpt, List.nil_append]
    by_cases hsignature : mbrSignature env.disk = blMbrSignature
    · rw [if_neg (not_not.mpr hsignature)]
      cases hprotective : hasProtectiveEntry env.disk with
      | false => exact ⟨iff_of_false (by simp) hgpt, hvalues⟩
      | true =>
        cases hvalid : gptSignatureValid env.disk with
        | false => exact ⟨iff_of_false (by simp) hgpt, hvalues₂.trans hvalues⟩
        | true => exact absurd ⟨hsignature, hprotective, hvalid⟩ hgpt
    · rw [if_pos hsignature]
      exact ⟨iff_of_false (by simp) hgpt, hvalues⟩

theorem probe_two (first second : Handler) (d : Disk) :
    (blPartitionTableProbe env [first, second] d).1 =
      if (first env d).2 = .success then (first env d).1
      else (second env (first env d).1).1 := by
  rw [probe_cons, probe_cons]
  split_ifs <;> rfl

def gptLast : List Handler :=
  blPartitionTableRegister (blPartitionTableRegister [] blMbrIterate) blGptIterate

def mbrLast : List Handler :=
  blPartitionTableRegister (blPartitionTableRegister [] blGptIterate) blMbrIterate

theorem AllServed.gptLast (h : AllServed env) (hd : values d = []) :
    values (blPartitionTableProbe env gptLast d).1 = partitionsOf env.disk := by
  obtain ⟨hok, hvalues⟩ := h.gpt d
  obtain ⟨-, hvalues'⟩ := h.mbr (blGptIterate env d).1
  rw [show Partition.gptLast = [blGptIterate, blMbrIterate] from rfl, probe_two]
  unfold partitionsOf
  by_cases hgpt : IsGpt env.disk
  · rw [if_pos (hok.mpr hgpt), hvalues, if_pos hgpt, if_pos hgpt, hd, List.append_nil]
  · rw [if_neg (mt hok.mp hgpt), hvalues', hvalues, if_neg hgpt, if_neg hgpt, hd,
      List.append_nil, List.append_nil]

/-- The MBR handler takes every disk that has its signature. -/
theorem AllServed.mbrLast (h : AllServed env) (hd : values d = []) :
    values (blPartitionTableProbe env mbrLast d).1 =
      if mbrSignature env.disk = blMbrSignature then mbrPartitions env.disk else [] := by
  obtain ⟨hok, hvalues⟩ := h.mbr d
  obtain ⟨-, hvalues'⟩ := h.gpt (blMbrIterate env d).1
  rw [show Partition.mbrLast = [blMbrIterate, blGptIterate] from rfl, probe_two]
  by_cases hsignature : mbrSignature env.disk = blMbrSignature
  · rw [if_pos (hok.mpr hsignature), hvalues, if_pos hsignature, hd, List.append_nil]
  · have hgpt : ¬IsGpt env.disk := fun hgpt => hsignature hgpt.1
    rw [if_neg (mt hok.mp hsignature), hvalues', hvalues, if_neg hsignature, if_neg hgpt, hd]
    rfl

/-- **When the order does not count**: the disk has no GPT, or its two tables say the same. -/
theorem probe_order_iff (h : AllServed env) (hd : d.partitions = []) :
    (values (blPartitionTableProbe env gptLast d).1 = partitionsOf env.disk ∧
        values (blPartitionTableProbe env mbrLast d).1 = partitionsOf env.disk) ↔
      ¬IsGpt env.disk ∨ gptPartitions env.disk = mbrPartitions env.disk := by
  have hvalues : values d = [] := congrArg (List.map Prod.snd) hd
  rw [h.gptLast hvalues, h.mbrLast hvalues, and_iff_right rfl]
  unfold partitionsOf
  by_cases hgpt : IsGpt env.disk
  · rw [if_pos hgpt, if_pos hgpt.1, or_iff_right (not_not.mpr hgpt)]
    exact eq_comm
  · rw [if_neg hgpt]
    exact iff_of_true rfl (.inl hgpt)

theorem twoEntries_order :
    (values (blPartitionTableProbe allServed gptLast ⟨emptyWorld, []⟩).1 =
          partitionsOf allServed.disk ∧
        values (blPartitionTableProbe allServed mbrLast ⟨emptyWorld, []⟩).1 =
          partitionsOf allServed.disk) ↔
      ¬IsGpt allServed.disk ∨ gptPartitions allServed.disk = mbrPartitions allServed.disk :=
  probe_order_iff ⟨fun _ => rfl, fun _ => rfl⟩ rfl

/-- A protective entry, and a GPT with one partition, from the sector 34 on. -/
def oneGptEntry : Mem
  | 450 => 0xee
  | 454 => 1
  | 458 => 99
  | 510 => 0x55
  | 511 => 0xaa
  | 512 => 0x45
  | 513 => 0x46
  | 514 => 0x49
  | 515 => 0x20
  | 516 => 0x50
  | 517 => 0x41
  | 518 => 0x52
  | 519 => 0x54
  | 584 => 2
  | 592 => 1
  | 596 => 128
  | 1024 => 1
  | 1056 => 34
  | 1064 => 133
  | _ => 0

/-- With the MBR handler first the protective entry is the partition. -/
theorem oneGptEntry_order_counts :
    ¬ ∀ env d, AllServed env → d.partitions = [] →
      values (blPartitionTableProbe env gptLast d).1 = partitionsOf env.disk ∧
        values (blPartitionTableProbe env mbrLast d).1 = partitionsOf env.disk := by
  intro h
  have hserved : AllServed ⟨fun _ => true, fun _ => .success, oneGptEntry⟩ :=
    ⟨fun _ => rfl, fun _ => rfl⟩
  have hmbr := (h _ ⟨emptyWorld, []⟩ hserved rfl).2
  have hfirst : values (blPartitionTableProbe ⟨fun _ => true, fun _ => .success, oneGptEntry⟩
      mbrLast ⟨emptyWorld, []⟩).1 = [⟨1, 99⟩] := by decide +kernel
  have hdisk : partitionsOf oneGptEntry = [⟨34, 99⟩] := by decide +kernel
  rw [hfirst, hdisk] at hmbr
  exact absurd hmbr (by decide)

end BootLoader.Partition
