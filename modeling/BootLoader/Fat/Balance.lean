import BootLoader.Driver.Ledger
import BootLoader.Fat.Named
import BootLoader.Lib.Runs

/-!
# The blocks of a FAT lookup

The iterator holds one block, the name of its entry. A label behind a name makes it forget that
block, and a node without file data is looked at after it was freed.
-/

open ByteMemory Runs

namespace BootLoader.Fat

open Driver

variable {env : Env} {read : GenericRead} {filename : List Byte} {directory : Bool}
  {world w₀ w w' : World} {it it' : BlFatIterator} {fuel : Nat} {held : List Nat}

/-! ## The reads of blocks -/

/-- The reads of `_node` when a node is made, each in the world it happens in: once the file data
were asked for, and again under `_exit` if there are none. -/
def nodeReads (env : Env) (world : World) : List (World × Nat) :=
  match world.alloc env with
  | (_, none) => []
  | (world, some block) =>
    match world.alloc env with
    | (world, none) => [(world, block), (world.free block, block)]
    | (world, some _) => [(world, block)]

/-- All reads of heap blocks by the loop: names, to compare them, and the node. -/
def lookupReads (env : Env) (read : GenericRead) (filename : List Byte) (directory : Bool) :
    Nat → World → BlFatIterator → List (World × Nat)
  | 0, _, _ => []
  | fuel + 1, world, it =>
    let (world, it, status) := blFatIteratorNext env read world it
    if it.empty then []
    else if status ≠ .success then []
    else if directory ∧ it.type ≠ .directory then []
    else
      (it.filename.map fun name => (world, name.1)).toList ++
        if it.type ≠ .unknown ∧ namesFile it filename then nodeReads env world
        else lookupReads env read filename directory fuel world it

/-! ## Where the loop goes -/

/-- Before an entry: how many names were made so far, and whether the last entry had one. -/
structure Place where
  entry : Nat
  names : Nat
  named : Bool

def EntryAt (read : GenericRead) (n : Nat) (entry : BlFatDirEntry) : Prop :=
  read (n * 32) = (.success, entry) ∧ entry 0 ≠ blFatAvailableEntryFlag

/-- The loop gets behind an entry: a label, or one with another name. -/
inductive Passes (env : Env) (read : GenericRead) (filename : List Byte) (directory : Bool)
    (world : World) : Place → Place → Prop
  | label (p : Place) (entry : BlFatDirEntry) (hentry : EntryAt read p.entry entry)
      (hvolume : isVolume entry = true) (hdirectory : directory = false) :
    Passes env read filename directory world p ⟨p.entry + 1, p.names, false⟩
  | name (p : Place) (entry : BlFatDirEntry) (hentry : EntryAt read p.entry entry)
      (hvolume : isVolume entry = false) (hserved : env.allocs (world.allocs + p.names) = true)
      (hrefused : refused directory entry = false)
      (hother : readsAs filename entry (world.bytes (world.next + p.names)) = false) :
    Passes env read filename directory world p ⟨p.entry + 1, p.names + 1, true⟩

/-- A label comes right behind a name. -/
def LabelBehindName (read : GenericRead) (p : Place) : Prop :=
  p.named = true ∧ ∃ entry, EntryAt read p.entry entry ∧ isVolume entry = true

/-- The entry has the name, there is a block for its node and none for the file data. -/
def HalfNode (env : Env) (read : GenericRead) (filename : List Byte) (directory : Bool)
    (world : World) (p : Place) : Prop :=
  ∃ entry, EntryAt read p.entry entry ∧ isVolume entry = false ∧
    env.allocs (world.allocs + p.names) = true ∧ refused directory entry = false ∧
    readsAs filename entry (world.bytes (world.next + p.names)) = true ∧
    env.allocs (world.allocs + p.names + 1) = true ∧
    env.allocs (world.allocs + p.names + 2) = false

/-! ## One entry -/

def nameBlocks (it : BlFatIterator) : List Nat := (it.filename.map Prod.fst).toList

def nodeBlocks : Option Node → List Nat
  | none => []
  | some node => [node.fdataBlock, node.block]

/-- The loop, in `w`, is at the place `p`. -/
structure AtPlace (world : World) (p : Place) (w : World) (it : BlFatIterator) : Prop where
  next_eq : w.next = world.next + p.names
  allocs_eq : w.allocs = world.allocs + p.names
  bytes_eq : w.bytes = world.bytes
  entry_eq : it.entry = p.entry + 1
  named_eq : it.filename.isSome = p.named
  empty_eq : it.empty = false

theorem ledger_freeFilename (h : Ledger w₀ w (nameBlocks it ++ held)) :
    Ledger w₀ (freeFilename w it) held := by
  unfold nameBlocks at h
  unfold freeFilename
  cases hname : it.filename with
  | none =>
    rw [hname] at h
    exact h
  | some name =>
    rw [hname] at h
    exact Ledger.free h

/-- What reading one entry comes to, of the blocks and of the place. -/
inductive EntryRead (env : Env) (read : GenericRead) (world w₀ w : World) (it : BlFatIterator)
    (p : Place) (held : List Nat) : World × BlFatIterator × BlStatus → Prop
  | fails (status : BlStatus) (hstatus : status ≠ .success)
      (hno : ∀ entry, ¬ EntryAt read p.entry entry) :
    EntryRead env read world w₀ w it p held (w, it, status)
  | ends (hno : ∀ entry, ¬ EntryAt read p.entry entry) :
    EntryRead env read world w₀ w it p held (w, { it with empty := true }, .success)
  | label (entry : BlFatDirEntry) (it' : BlFatIterator) (hentry : EntryAt read p.entry entry)
      (hvolume : isVolume entry = true) (htype : it'.type = .unknown) (hname : it'.filename = none)
      (hempty : it'.empty = false) (hat : AtPlace world ⟨p.entry + 1, p.names, false⟩ w it') :
    EntryRead env read world w₀ w it p held (w, it', .success)
  | unnamed (entry : BlFatDirEntry) (w' : World) (it' : BlFatIterator)
      (hentry : EntryAt read p.entry entry) (hvolume : isVolume entry = false)
      (hserved : env.allocs (world.allocs + p.names) = false) (hname : it'.filename = none)
      (hempty : it'.empty = false) (hledger : Ledger w₀ w' held) :
    EntryRead env read world w₀ w it p held (w', it', .failure)
  | name (entry : BlFatDirEntry) (w' : World) (it' : BlFatIterator) (m : Mem)
      (hentry : EntryAt read p.entry entry) (hvolume : isVolume entry = false)
      (hserved : env.allocs (world.allocs + p.names) = true)
      (htype : it'.type = entryType entry) (hname : it'.filename = some (w.next, m))
      (hreads : ∀ filename, namesFile it' filename =
        readsAs filename entry (world.bytes (world.next + p.names)))
      (hat : AtPlace world ⟨p.entry + 1, p.names + 1, true⟩ w' it')
      (hledger : Ledger w₀ w' (w.next :: held)) :
    EntryRead env read world w₀ w it p held (w', it', .success)

theorem blFatIteratorNext_cases {p : Place} (hat : AtPlace world p w it)
    (h : Ledger w₀ w (nameBlocks it ++ held)) :
    EntryRead env read world w₀ w it p held (blFatIteratorNext env read w it) := by
  have hread : (it.entry - 1) * 32 = p.entry * 32 := by rw [hat.entry_eq, Nat.add_sub_cancel]
  unfold blFatIteratorNext
  rw [hread]
  rcases hentry : read (p.entry * 32) with ⟨status, entry⟩
  dsimp only
  by_cases hstatus : status = .success
  · subst hstatus
    rw [if_neg (not_not.mpr rfl)]
    by_cases hend : entry 0 = blFatAvailableEntryFlag
    · rw [if_pos hend]
      refine .ends ?_
      rintro e ⟨he, hne⟩
      obtain rfl := (Prod.mk.inj (hentry.symm.trans he)).2
      exact hne hend
    · rw [if_neg hend]
      have hhere : EntryAt read p.entry entry := ⟨hentry, hend⟩
      by_cases hvolume : attributes entry &&& blFatDirEntryAttrVolume = 0
      · rw [if_pos hvolume]
        have hnotvolume : isVolume entry = false := by simpa [isVolume] using hvolume
        obtain ⟨hnext, hbytes, hallocs⟩ := freeFilename_same w it
        rw [hat.allocs_eq] at hallocs
        unfold blFatShortNameToRegularName
        rcases (ledger_freeFilename h).alloc env with
          ⟨hserved, w', halloc, hledger⟩ |
          ⟨hserved, w', halloc, hbytes', hallocs', -, hnext', hledger⟩
        · rw [halloc]
          rw [hallocs] at hserved
          exact .unnamed entry w' _ hhere hnotvolume hserved rfl hat.empty_eq hledger
        · rw [halloc]
          rw [hallocs] at hserved
          rw [hnext] at hledger
          refine .name entry w' _ _ hhere hnotvolume hserved ?_ (by rw [hnext]) ?_ ?_ hledger
          · simp [entryType, hnotvolume, isDirectory]
          · intro filename
            simp [namesFile, readsAs, hnotvolume, hbytes', hbytes, hnext, hat.bytes_eq, hat.next_eq]
          · refine ⟨?_, ?_, ?_, by rw [hat.entry_eq], rfl, hat.empty_eq⟩
            · rw [hnext', hnext, hat.next_eq, Nat.add_assoc]
            · rw [hallocs', hallocs, Nat.add_assoc]
            · rw [hbytes', hbytes, hat.bytes_eq]
      · rw [if_neg hvolume]
        refine .label entry _ hhere (by simpa [isVolume] using hvolume) rfl rfl hat.empty_eq ?_
        exact ⟨hat.next_eq, hat.allocs_eq, hat.bytes_eq, by rw [hat.entry_eq], rfl, hat.empty_eq⟩
  · rw [if_pos hstatus]
    refine .fails status hstatus ?_
    rintro e ⟨he, -⟩
    exact hstatus (Prod.mk.inj (hentry.symm.trans he)).1

/-! ## The node -/

theorem newNode_ledger (env : Env) (cluster : BitVec 32) (h : Ledger w₀ w held) :
    ∃ w' status node, newNode env cluster w = (w', status, node) ∧
      Ledger w₀ w' (nodeBlocks node ++ held) ∧
      ((∀ r ∈ nodeReads env w, r.1.used r.2 = true) ↔
        ¬ (env.allocs w.allocs = true ∧ env.allocs (w.allocs + 1) = false)) := by
  unfold newNode nodeReads
  rcases h.alloc env with ⟨hnone, w₁, hw₁, h₁⟩ | ⟨hsome, w₁, hw₁, -, hallocs, -, -, h₁⟩
  · rw [hw₁]
    exact ⟨w₁, _, none, rfl, h₁, by simp [hnone]⟩
  · rw [hw₁]
    dsimp only
    rcases h₁.alloc env with ⟨hnone, w₂, hw₂, h₂⟩ | ⟨hserved, w₂, hw₂, -, -, -, -, h₂⟩
    · rw [hw₂]
      rw [hallocs] at hnone
      refine ⟨w₂.free w.next, _, none, rfl, h₂.free, iff_of_false ?_ ?_⟩
      · intro hused
        have hfreed := hused (w₂.free w.next, w.next) (by simp)
        simp [World.free] at hfreed
      · exact not_not.mpr ⟨hsome, hnone⟩
    · rw [hw₂]
      rw [hallocs] at hserved
      refine ⟨w₂, _, some ⟨w.next, w₁.next, ⟨0, cluster⟩⟩, rfl, h₂, iff_of_true ?_ ?_⟩
      · intro r hr
        obtain rfl := List.mem_singleton.mp hr
        exact h₂.used w.next (by simp)
      · rintro ⟨-, hnot⟩
        rw [hserved] at hnot
        exact absurd hnot (by decide)

/-! ## The loop -/

/-- What a loop that ended left behind, seen from a place on its way. -/
structure Left (env : Env) (read : GenericRead) (filename : List Byte) (directory : Bool)
    (world w₀ : World) (p : Place) (held : List Nat) (reads : List (World × Nat)) (w' : World)
    (it' : BlFatIterator) (node : Option Node) : Prop where
  ledger : ∃ lost, Ledger w₀ w' (nameBlocks it' ++ (nodeBlocks node ++ (lost ++ held))) ∧
    (lost = [] ↔ ¬ Reaches (Passes env read filename directory world) (LabelBehindName read) p)
  reads_used : (∀ r ∈ reads, r.1.used r.2 = true) ↔
    ¬ Reaches (Passes env read filename directory world)
      (HalfNode env read filename directory world) p

theorem EntryAt.unique {n : Nat} {e e' : BlFatDirEntry} (h : EntryAt read n e)
    (h' : EntryAt read n e') : e = e' :=
  (Prod.mk.inj (h.1.symm.trans h'.1)).2

/-! Behind a label and behind a name. -/

section

variable {p q : Place} {entry : BlFatDirEntry} (hentry : EntryAt read p.entry entry)

include hentry

theorem passes_iff_of_volume (hvolume : isVolume entry = true) :
    Passes env read filename directory world p q ↔
      directory = false ∧ q = ⟨p.entry + 1, p.names, false⟩ := by
  constructor
  · rintro (⟨e, he, -, hdir⟩ | ⟨e, he, hnot, -, -, -⟩)
    · exact ⟨hdir, rfl⟩
    · rw [he.unique hentry, hvolume] at hnot
      exact absurd hnot (by decide)
  · rintro ⟨hdir, rfl⟩
    exact .label p entry hentry hvolume hdir

theorem labelBehindName_iff_of_volume (hvolume : isVolume entry = true) :
    LabelBehindName read p ↔ p.named = true :=
  and_iff_left ⟨entry, hentry, hvolume⟩

theorem not_halfNode_of_volume (hvolume : isVolume entry = true) :
    ¬ HalfNode env read filename directory world p := by
  rintro ⟨e, he, hnot, -⟩
  rw [he.unique hentry, hvolume] at hnot
  exact absurd hnot (by decide)

theorem passes_iff_of_named (hvolume : isVolume entry = false) :
    Passes env read filename directory world p q ↔
      env.allocs (world.allocs + p.names) = true ∧ refused directory entry = false ∧
        readsAs filename entry (world.bytes (world.next + p.names)) = false ∧
        q = ⟨p.entry + 1, p.names + 1, true⟩ := by
  constructor
  · rintro (⟨e, he, hlabel, -⟩ | ⟨e, he, -, hserved, hrefused, hother⟩)
    · rw [he.unique hentry, hvolume] at hlabel
      exact absurd hlabel (by decide)
    · rw [he.unique hentry] at hrefused hother
      exact ⟨hserved, hrefused, hother, rfl⟩
  · rintro ⟨hserved, hrefused, hother, rfl⟩
    exact .name p entry hentry hvolume hserved hrefused hother

theorem not_labelBehindName_of_named (hvolume : isVolume entry = false) :
    ¬ LabelBehindName read p := by
  rintro ⟨-, e, he, hlabel⟩
  rw [he.unique hentry, hvolume] at hlabel
  exact absurd hlabel (by decide)

theorem halfNode_iff_of_named (hvolume : isVolume entry = false) :
    HalfNode env read filename directory world p ↔
      env.allocs (world.allocs + p.names) = true ∧ refused directory entry = false ∧
        readsAs filename entry (world.bytes (world.next + p.names)) = true ∧
        env.allocs (world.allocs + p.names + 1) = true ∧
        env.allocs (world.allocs + p.names + 2) = false := by
  constructor
  · rintro ⟨e, he, -, h⟩
    rw [he.unique hentry] at h
    exact h
  · exact fun h => ⟨entry, hentry, hvolume, h⟩

end

/-- The loop ends at this place. -/
theorem left_of_stuck {p : Place} {reads : List (World × Nat)} {node : Option Node}
    (lost : List Nat) (hstuck : ∀ q, ¬ Passes env read filename directory world p q)
    (hledger : Ledger w₀ w' (nameBlocks it' ++ (nodeBlocks node ++ (lost ++ held))))
    (hlost : lost = [] ↔ ¬ LabelBehindName read p)
    (hreads : (∀ r ∈ reads, r.1.used r.2 = true) ↔
      ¬ HalfNode env read filename directory world p) :
    Left env read filename directory world w₀ p held reads w' it' node where
  ledger := ⟨lost, hledger, by rw [reaches_iff_of_stuck hstuck, hlost]⟩
  reads_used := by rw [reaches_iff_of_stuck hstuck, hreads]

/-- There is no entry at this place. -/
theorem left_of_noEntry {p : Place} (hno : ∀ entry, ¬ EntryAt read p.entry entry)
    (hledger : Ledger w₀ w' (nameBlocks it' ++ held)) :
    Left env read filename directory world w₀ p held [] w' it' none := by
  refine left_of_stuck [] ?_ hledger (by simp [LabelBehindName, hno]) (by simp [HalfNode, hno])
  rintro q (⟨entry, hentry⟩ | ⟨entry, hentry⟩)
  · exact hno entry hentry
  · exact hno entry hentry

/-- The loop passes from `p` to `q`, the first losing the blocks `lost`. -/
theorem Left.before {p q : Place} {reads first : List (World × Nat)} {node : Option Node}
    (lost : List Nat)
    (h : Left env read filename directory world w₀ q (lost ++ held) reads w' it' node)
    (hpass : Passes env read filename directory world p q)
    (honly : ∀ c, Passes env read filename directory world p c → c = q)
    (hlost : lost = [] ↔ ¬ LabelBehindName read p)
    (hhalf : ¬ HalfNode env read filename directory world p)
    (hfirst : ∀ r ∈ first, r.1.used r.2 = true) :
    Left env read filename directory world w₀ p held (first ++ reads) w' it' node where
  ledger := by
    obtain ⟨rest, hledger, hrest⟩ := h.ledger
    refine ⟨rest ++ lost, by rwa [List.append_assoc], ?_⟩
    rw [reaches_iff_of_step hpass honly, List.append_eq_nil_iff, hrest, hlost, not_or, and_comm]
  reads_used := by
    rw [reaches_iff_of_step hpass honly, or_iff_right hhalf, ← h.reads_used]
    simp only [List.mem_append, or_imp, forall_and]
    exact and_iff_right hfirst

theorem iterateFrom_left {p : Place} {status : BlStatus} {node : Option Node}
    (hat : AtPlace world p w it) (h : Ledger w₀ w (nameBlocks it ++ held))
    (hrun : iterateFrom env read filename directory fuel w it = some (w', it', status, node)) :
    Left env read filename directory world w₀ p held
      (lookupReads env read filename directory fuel w it) w' it' node := by
  induction fuel generalizing w it p held with
  | zero => cases hrun
  | succ fuel ih =>
    have hnext : EntryRead env read world w₀ w it p held (blFatIteratorNext env read w it) :=
      blFatIteratorNext_cases hat h
    unfold lookupReads
    rw [iterateFrom] at hrun
    generalize blFatIteratorNext env read w it = out at hnext hrun
    cases hnext with
    | fails status hstatus hno =>
      simp only [hat.empty_eq, Bool.false_eq_true, if_false, if_pos hstatus, Option.some.injEq,
        Prod.mk.injEq] at hrun ⊢
      obtain ⟨rfl, rfl, -, rfl⟩ := hrun
      exact left_of_noEntry hno h
    | ends hno =>
      simp only [if_true, Option.some.injEq, Prod.mk.injEq] at hrun ⊢
      obtain ⟨rfl, rfl, -, rfl⟩ := hrun
      exact left_of_noEntry hno h
    | label entry it₁ hentry hvolume htype hname hempty hat₁ =>
      have hhalf : ¬ HalfNode env read filename directory world p :=
        not_halfNode_of_volume hentry hvolume
      have hlost : nameBlocks it = [] ↔ ¬ LabelBehindName read p := by
        rw [labelBehindName_iff_of_volume hentry hvolume, ← hat.named_eq, nameBlocks]
        cases it.filename <;> simp
      have hledger : Ledger w₀ w (nameBlocks it₁ ++ (nameBlocks it ++ held)) := by
        rw [nameBlocks, hname]
        exact h
      simp only [hempty, Bool.false_eq_true, if_false, ne_eq, not_true_eq_false, htype, hname,
        reduceCtorEq, not_false_eq_true, and_true, false_and, Option.map_none, Option.toList_none,
        List.nil_append] at hrun ⊢
      cases directory with
      | true =>
        simp only [if_true, Option.some.injEq, Prod.mk.injEq] at hrun ⊢
        obtain ⟨rfl, rfl, -, rfl⟩ := hrun
        refine left_of_stuck (nameBlocks it) (fun q => ?_) hledger hlost (by simp [hhalf])
        rw [passes_iff_of_volume hentry hvolume]
        simp
      | false =>
        simp only [Bool.false_eq_true, if_false] at hrun ⊢
        refine Left.before (nameBlocks it) (ih hat₁ hledger hrun)
          (.label p entry hentry hvolume rfl) (fun q hq => ?_) hlost hhalf (by simp : ∀ r ∈ [], _)
        exact ((passes_iff_of_volume hentry hvolume).mp hq).2
    | unnamed entry w₁ it₁ hentry hvolume hserved hname hempty hledger =>
      simp only [hempty, Bool.false_eq_true, if_false, ne_eq, reduceCtorEq, not_false_eq_true,
        if_true, Option.some.injEq, Prod.mk.injEq] at hrun ⊢
      obtain ⟨rfl, rfl, -, rfl⟩ := hrun
      refine left_of_stuck [] (fun q => ?_) (by rwa [nameBlocks, hname]) ?_ ?_
      · simp [passes_iff_of_named hentry hvolume, hserved]
      · simp [not_labelBehindName_of_named hentry hvolume]
      · simp [halfNode_iff_of_named hentry hvolume, hserved]
    | name entry w₁ it₁ m hentry hvolume hserved htype hname hreads hat₁ hledger =>
      have hlabel := not_labelBehindName_of_named hentry hvolume
      have hknown : entryType entry ≠ .unknown := by
        rw [entryType, hvolume]
        cases isDirectory entry <;> simp
      have hledger₁ : Ledger w₀ w₁ (nameBlocks it₁ ++ held) := by
        rw [nameBlocks, hname]
        exact hledger
      have hused : ∀ r ∈ [(w₁, w.next)], r.1.used r.2 = true := by
        intro r hr
        obtain rfl := List.mem_singleton.mp hr
        exact hledger.used w.next List.mem_cons_self
      simp only [hat₁.empty_eq, Bool.false_eq_true, if_false, ne_eq, not_true_eq_false, htype,
        hname, hreads, hknown, not_false_eq_true, true_and, ← refused_iff directory entry,
        Option.map_some, Option.toList_some] at hrun ⊢
      cases hrefused : refused directory entry with
      | true =>
        simp only [hrefused, if_true, Option.some.injEq, Prod.mk.injEq] at hrun ⊢
        obtain ⟨rfl, rfl, -, rfl⟩ := hrun
        refine left_of_stuck [] (fun q => ?_) hledger₁ (by simp [hlabel]) ?_
        · simp [passes_iff_of_named hentry hvolume, hrefused]
        · simp [halfNode_iff_of_named hentry hvolume, hrefused]
      | false =>
        simp only [hrefused, Bool.false_eq_true, if_false] at hrun ⊢
        cases hmatch : readsAs filename entry (world.bytes (world.next + p.names)) with
        | true =>
          obtain ⟨w₂, status', node', hnode, hledger₂, hreads₂⟩ :=
            newNode_ledger env it₁.cluster hledger₁
          simp only [hmatch, if_true, hnode, Option.some.injEq, Prod.mk.injEq] at hrun ⊢
          obtain ⟨rfl, rfl, -, rfl⟩ := hrun
          have hperm := hledger₂.perm (List.perm_append_comm_assoc _ _ _)
          refine left_of_stuck [] (fun q => ?_) hperm (by simp [hlabel]) ?_
          · simp [passes_iff_of_named hentry hvolume, hmatch]
          · rw [halfNode_iff_of_named hentry hvolume, hat₁.allocs_eq] at *
            simp only [List.mem_append, or_imp, forall_and, hserved, hrefused, hmatch, true_and]
            rw [hreads₂]
            exact and_iff_right hused
        | false =>
          simp only [hmatch, Bool.false_eq_true, if_false] at hrun ⊢
          refine Left.before [] (ih hat₁ hledger₁ hrun)
            (.name p entry hentry hvolume hserved hrefused hmatch) (fun q hq => ?_)
            (by simp [hlabel]) ?_ hused
          · exact ((passes_iff_of_named hentry hvolume).mp hq).2.2.2
          · simp [halfNode_iff_of_named hentry hvolume, hmatch]

/-! ## The lookup -/

def callbackReads (env : Env) (read : GenericRead) (filename : List Byte) (directory : Bool)
    (uninit : BitVec 32) (fuel : Nat) (world : World) : List (World × Nat) :=
  if blFatCheckRegularName filename ≠ .success then []
  else lookupReads env read filename directory fuel world (blFatIteratorInit uninit)

/-- Of the blocks handed out the node's remain, the others are freed once, and none is read after
that. -/
structure Balanced (world world' : World) (reads : List (World × Nat)) (node : Option Node) :
    Prop where
  ledger : Ledger world world' (nodeBlocks node)
  reads_used : ∀ r ∈ reads, r.1.used r.2 = true

/-- **When a lookup is balanced**: no label comes right behind a name on the way, and the file data
of the node that is made get their block. -/
theorem blFatIterateDirectoryCallback_balanced_iff {uninit : BitVec 32} {world' : World}
    {status : BlStatus} {node : Option Node}
    (hrun : blFatIterateDirectoryCallback env read filename directory uninit fuel world =
      some (world', status, node)) :
    Balanced world world' (callbackReads env read filename directory uninit fuel world) node ↔
      blFatCheckRegularName filename ≠ .success ∨
        ¬ Reaches (Passes env read filename directory world) (LabelBehindName read) ⟨0, 0, false⟩ ∧
        ¬ Reaches (Passes env read filename directory world)
          (HalfNode env read filename directory world) ⟨0, 0, false⟩ := by
  unfold blFatIterateDirectoryCallback at hrun
  unfold callbackReads
  dsimp only at hrun
  by_cases hname : blFatCheckRegularName filename = .success
  · rw [if_neg (not_not.mpr hname)] at hrun ⊢
    obtain ⟨⟨w, it, status', node'⟩, hloop, hout⟩ := Option.map_eq_some_iff.mp hrun
    obtain ⟨rfl, -, rfl⟩ : freeFilename w it = world' ∧ status' = status ∧ node' = node := by
      simpa using hout
    have hat : AtPlace world ⟨0, 0, false⟩ world (blFatIteratorInit uninit) :=
      ⟨rfl, rfl, rfl, rfl, rfl, rfl⟩
    have hstart : Ledger world world (nameBlocks (blFatIteratorInit uninit) ++ []) :=
      Ledger.start world
    have hleft := iterateFrom_left hat hstart hloop
    obtain ⟨lost, hledger, hlost⟩ := hleft.ledger
    rw [List.append_nil] at hledger
    simp only [hname, ne_eq, not_true_eq_false, false_or]
    rw [← hlost, ← hleft.reads_used, ← (ledger_freeFilename hledger).append_iff]
    exact ⟨fun h => ⟨h.ledger, h.reads_used⟩, fun h => ⟨h.1, h.2⟩⟩
  · rw [if_pos hname] at hrun ⊢
    obtain ⟨rfl, -, rfl⟩ : world = world' ∧ _ = status ∧ none = node := by simpa using hrun
    exact iff_of_true ⟨Ledger.start world, by simp⟩ (.inl hname)

theorem bootDirectory_balanced :
    ∃ world' status node, blFatIterateDirectoryCallback servedEnv (readOf bootDirectory)
        bootFilename true 0 2 zeroWorld = some (world', status, node) ∧
      (Balanced zeroWorld world' (callbackReads servedEnv (readOf bootDirectory) bootFilename true
          0 2 zeroWorld) node ↔
        blFatCheckRegularName bootFilename ≠ .success ∨
          ¬ Reaches (Passes servedEnv (readOf bootDirectory) bootFilename true zeroWorld)
            (LabelBehindName (readOf bootDirectory)) ⟨0, 0, false⟩ ∧
          ¬ Reaches (Passes servedEnv (readOf bootDirectory) bootFilename true zeroWorld)
            (HalfNode servedEnv (readOf bootDirectory) bootFilename true zeroWorld)
              ⟨0, 0, false⟩) :=
  ⟨_, _, _, rfl, blFatIterateDirectoryCallback_balanced_iff rfl⟩

/-- A file, and the volume label behind it. -/
def labelBehindFile : List BlFatDirEntry :=
  [entryOf (List.replicate 11 0x41) 0 5, entryOf (List.replicate 11 0x42) 0x08 0]

theorem labelBehindFile_not_balanced :
    ¬ ∀ env read filename directory uninit fuel world world' status node,
      blFatIterateDirectoryCallback env read filename directory uninit fuel world =
          some (world', status, node) →
        Balanced world world' (callbackReads env read filename directory uninit fuel world)
          node := by
  intro h
  have hused : (blFatIterateDirectoryCallback servedEnv (readOf labelBehindFile) bootFilename
      false 0 3 zeroWorld).map (fun out => (out.1.used 0, out.1.next, out.2.2)) =
      some (true, 1, none) := by decide +kernel
  obtain ⟨⟨world', status, node⟩, hrun, hout⟩ := Option.map_eq_some_iff.mp hused
  obtain ⟨hused, hnext, rfl⟩ : world'.used 0 = true ∧ world'.next = 1 ∧ node = none := by
    simpa using hout
  have hledger := (h _ _ _ _ _ _ _ _ _ _ hrun).ledger
  have hunused := hledger.unused 0 (Nat.le_refl 0) (by omega) List.not_mem_nil
  rw [hused] at hunused
  exact absurd hunused (by decide)

end BootLoader.Fat
