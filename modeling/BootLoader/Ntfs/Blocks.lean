import BootLoader.Driver.Ledger
import BootLoader.Ntfs.Search
import Mathlib.Data.List.ReduceOption

/-!
# The blocks of a lookup

What is handed out on the way down is freed on the way, but for a record above a child that could
not be read. Of the node that is returned, the MFT record is freed too.
-/

open ByteMemory

namespace BootLoader.Ntfs

open Driver

variable {env : Env} {info : BlNtfsInfo} {mftDir : Nat} {strcmp : Mem → Nat → Int}
  {w₀ w w' : World} {held : List Nat} {index : Option Nat} {entry : Ptr} {fuel fuel' : Nat}

/-! ## Reading a child -/

/-- What the allocation of an index record leaves held: it, or nothing. -/
theorem blNtfsGetIndexAllocation_ledger {m : Mem} {attr : Nat} {data : Option (BitVec 64)}
    {found : Option Nat} (h : Ledger w₀ w held)
    (hrun : blNtfsGetIndexAllocation env info w m attr data = some (w', found)) :
    Ledger w₀ w' (found.toList ++ held) := by
  unfold blNtfsGetIndexAllocation at hrun
  split_ifs at hrun
  · obtain ⟨rfl, rfl⟩ := by simpa using hrun
    exact h
  · cases data with
    | none =>
      obtain ⟨rfl, rfl⟩ := by simpa using hrun
      exact h
    | some vcn =>
      dsimp only at hrun
      cases hlcn : blNtfsVcnToLcn m attr vcn with
      | none => simp [hlcn] at hrun
      | some lcn =>
        simp only [hlcn] at hrun
        rcases h.alloc env with ⟨-, w₁, hw₁, h₁⟩ | ⟨-, w₁, hw₁, -, -, -, -, h₁⟩
        · rw [hw₁] at hrun
          obtain ⟨rfl, rfl⟩ := by simpa using hrun
          exact h₁
        · rw [hw₁] at hrun
          dsimp only at hrun
          have h₂ := h₁.read env w.next (blNtfsLcnToLba info lcn).toNat (indexRecordSize w₁ info)
          split_ifs at hrun
          · obtain ⟨rfl, rfl⟩ := by simpa using hrun
            exact h₂.free
          · obtain ⟨rfl, rfl⟩ := by simpa using hrun
            exact h₂

theorem allocation_ledger {record attr : Nat} {data : Option (BitVec 64)} {found : Option Ptr}
    (h : Ledger w₀ w held) (hrun : mftRecordAttributeFrom env info w record
      blNtfsAttrIndexAllocation data fuel attr = some (w', found)) :
    Ledger w₀ w' ((found.map Ptr.block).toList ++ held) := by
  induction fuel generalizing attr with
  | zero => cases hrun
  | succ fuel ih =>
    rw [mftRecordAttributeFrom] at hrun
    dsimp only at hrun
    by_cases hend : blNtfsAttributeEnd (w.bytes record) attr = true
    · rw [if_pos hend] at hrun
      obtain ⟨rfl, rfl⟩ := by simpa using hrun
      exact h
    · rw [if_neg hend] at hrun
      by_cases htype : attrType (w.bytes record) attr = blNtfsAttrIndexAllocation
      · rw [if_neg (not_not.mpr htype)] at hrun
        by_cases hresident : attrNonresident (w.bytes record) attr = true
        · rw [if_pos hresident, if_pos rfl] at hrun
          obtain ⟨⟨w₁, index⟩, hindex, hout⟩ := Option.map_eq_some_iff.mp hrun
          obtain ⟨rfl, rfl⟩ := Prod.mk.inj hout
          have hledger := blNtfsGetIndexAllocation_ledger h hindex
          cases index <;> exact hledger
        · rw [if_neg hresident, if_neg (by decide), if_neg (by decide)] at hrun
          obtain ⟨rfl, rfl⟩ := by simpa using hrun
          exact h
      · rw [if_pos htype] at hrun
        exact ih hrun

theorem blNtfsReadChildNode_ledger {child : Option Nat} (h : Ledger w₀ w held)
    (hrun : blNtfsReadChildNode env info fuel w entry mftDir = some (w', child)) :
    Ledger w₀ w' (child.toList ++ held) := by
  unfold blNtfsReadChildNode at hrun
  dsimp only at hrun
  split_ifs at hrun
  · obtain ⟨rfl, rfl⟩ := by simpa using hrun
    exact h
  · obtain ⟨⟨w₁, found⟩, hfound, hout⟩ := Option.map_eq_some_iff.mp hrun
    obtain ⟨rfl, rfl⟩ := Prod.mk.inj hout
    exact allocation_ledger h hfound

theorem mftRecordAttributeFrom_unique {record type attr : Nat} {data : Option (BitVec 64)}
    {a b : World × Option Ptr}
    (ha : mftRecordAttributeFrom env info w record type data fuel attr = some a)
    (hb : mftRecordAttributeFrom env info w record type data fuel' attr = some b) : a = b := by
  induction fuel generalizing fuel' attr with
  | zero => cases ha
  | succ fuel ih =>
    obtain _ | fuel' := fuel'
    · cases hb
    · rw [mftRecordAttributeFrom] at ha hb
      dsimp only at ha hb
      by_cases hend : blNtfsAttributeEnd (w.bytes record) attr = true
      · rw [if_pos hend] at ha hb
        exact Option.some.inj (ha.symm.trans hb)
      · rw [if_neg hend] at ha hb
        by_cases htype : attrType (w.bytes record) attr = type
        · rw [if_neg (not_not.mpr htype)] at ha hb
          exact Option.some.inj (ha.symm.trans hb)
        · rw [if_pos htype] at ha hb
          exact ih ha hb

theorem blNtfsReadChildNode_unique {a b : World × Option Nat}
    (ha : blNtfsReadChildNode env info fuel w entry mftDir = some a)
    (hb : blNtfsReadChildNode env info fuel' w entry mftDir = some b) : a = b := by
  unfold blNtfsReadChildNode at ha hb
  dsimp only at ha hb
  split_ifs at ha hb
  · exact Option.some.inj (ha.symm.trans hb)
  · obtain ⟨a', ha', rfl⟩ := Option.map_eq_some_iff.mp ha
    obtain ⟨b', hb', rfl⟩ := Option.map_eq_some_iff.mp hb
    rw [mftRecordAttributeFrom_unique ha' hb']

/-! ## The way down -/

/-- The search goes down at this entry. -/
def Descends (strcmp : Mem → Nat → Int) (w : World) (entry : Ptr) : Prop :=
  entryParent (w.bytes entry.block) entry.off = true ∧
    (entryLast (w.bytes entry.block) entry.off = true ∨
      strcmp (w.bytes entry.block) (entryFilename entry.off) < 0)

/-- It ends there, without the name. -/
def Ends (strcmp : Mem → Nat → Int) (w : World) (entry : Ptr) : Prop :=
  ¬Descends strcmp w entry ∧ entryLast (w.bytes entry.block) entry.off = true

/-- It ends there with the name. -/
def Matches (strcmp : Mem → Nat → Int) (w : World) (entry : Ptr) : Prop :=
  ¬Descends strcmp w entry ∧ entryLast (w.bytes entry.block) entry.off = false ∧
    strcmp (w.bytes entry.block) (entryFilename entry.off) = 0

/-- It goes on with the next entry. -/
def GoesOn (strcmp : Mem → Nat → Int) (w : World) (entry : Ptr) : Prop :=
  ¬Descends strcmp w entry ∧ entryLast (w.bytes entry.block) entry.off = false ∧
    strcmp (w.bytes entry.block) (entryFilename entry.off) ≠ 0

def nextEntry (w : World) (entry : Ptr) : Ptr :=
  ⟨entry.block, blNtfsGetNextEntry (w.bytes entry.block) entry.off⟩

def firstEntry (w : World) (child : Nat) : Ptr :=
  ⟨child, blNtfsIallocGetFirstEntry (w.bytes child) 0⟩

/-- What reading the child of an entry comes to, with as much fuel as it takes. -/
def ChildRead (env : Env) (info : BlNtfsInfo) (mftDir : Nat) (w : World) (entry : Ptr)
    (out : World × Option Nat) : Prop :=
  ∃ fuel, blNtfsReadChildNode env info fuel w entry mftDir = some out

/-- On the way down a child cannot be read, while the record above it is held. -/
inductive Drops (env : Env) (info : BlNtfsInfo) (mftDir : Nat) (strcmp : Mem → Nat → Int) :
    World → Option Nat → Ptr → Prop
  | fails {w w' : World} {held : Nat} {entry : Ptr} (hdown : Descends strcmp w entry)
      (hread : ChildRead env info mftDir w entry (w', none)) :
      Drops env info mftDir strcmp w (some held) entry
  | child {w w' : World} {index : Option Nat} {entry : Ptr} {child : Nat}
      (hdown : Descends strcmp w entry)
      (hread : ChildRead env info mftDir w entry (w', some child))
      (h : Drops env info mftDir strcmp (w'.freeAll [index]) (some child)
        (firstEntry (w'.freeAll [index]) child)) :
      Drops env info mftDir strcmp w index entry
  | next {w : World} {index : Option Nat} {entry : Ptr} (hon : GoesOn strcmp w entry)
      (h : Drops env info mftDir strcmp w index (nextEntry w entry)) :
      Drops env info mftDir strcmp w index entry

/-- The search comes to an entry with the name. -/
inductive Finds (env : Env) (info : BlNtfsInfo) (mftDir : Nat) (strcmp : Mem → Nat → Int) :
    World → Option Nat → Ptr → World → Ptr → Prop
  | here {w : World} {index : Option Nat} {entry : Ptr} (h : Matches strcmp w entry) :
      Finds env info mftDir strcmp w index entry w entry
  | child {w w' w'' : World} {index : Option Nat} {entry e : Ptr} {child : Nat}
      (hdown : Descends strcmp w entry)
      (hread : ChildRead env info mftDir w entry (w', some child))
      (h : Finds env info mftDir strcmp (w'.freeAll [index]) (some child)
        (firstEntry (w'.freeAll [index]) child) w'' e) :
      Finds env info mftDir strcmp w index entry w'' e
  | next {w w'' : World} {index : Option Nat} {entry e : Ptr} (hon : GoesOn strcmp w entry)
      (h : Finds env info mftDir strcmp w index (nextEntry w entry) w'' e) :
      Finds env info mftDir strcmp w index entry w'' e

theorem where_goes (strcmp : Mem → Nat → Int) (w : World) (entry : Ptr) :
    Descends strcmp w entry ∨ Ends strcmp w entry ∨ Matches strcmp w entry ∨
      GoesOn strcmp w entry := by
  by_cases hdown : Descends strcmp w entry
  · exact .inl hdown
  · cases hlast : entryLast (w.bytes entry.block) entry.off with
    | true => exact .inr (.inl ⟨hdown, hlast⟩)
    | false =>
      by_cases hequal : strcmp (w.bytes entry.block) (entryFilename entry.off) = 0
      · exact .inr (.inr (.inl ⟨hdown, hlast, hequal⟩))
      · exact .inr (.inr (.inr ⟨hdown, hlast, hequal⟩))

theorem ChildRead.unique {a b : World × Option Nat} (ha : ChildRead env info mftDir w entry a)
    (hb : ChildRead env info mftDir w entry b) : a = b := by
  obtain ⟨fuel, ha⟩ := ha
  obtain ⟨fuel', hb⟩ := hb
  exact blNtfsReadChildNode_unique ha hb

/-! One step of each kind. -/

theorem searchEntries_descends (h : Descends strcmp w entry) :
    searchEntries env info mftDir strcmp (fuel + 1) w index entry =
      match blNtfsReadChildNode env info fuel w entry mftDir with
      | none => none
      | some (w, none) => some ⟨w, none, none⟩
      | some (w, some child) => searchEntries env info mftDir strcmp fuel (w.freeAll [index])
          (some child) (firstEntry (w.freeAll [index]) child) := by
  obtain ⟨hparent, hwhy⟩ := h
  rw [searchEntries]
  dsimp only
  rw [if_pos hparent]
  by_cases hlast : entryLast (w.bytes entry.block) entry.off = true
  · rw [if_pos hlast]
    rfl
  · rw [if_neg hlast, if_pos (hwhy.resolve_left hlast)]
    rfl

theorem searchEntries_ends (h : Ends strcmp w entry) :
    searchEntries env info mftDir strcmp (fuel + 1) w index entry = some ⟨w, index, none⟩ := by
  obtain ⟨hnot, hlast⟩ := h
  have hparent : ¬entryParent (w.bytes entry.block) entry.off = true :=
    fun hparent => hnot ⟨hparent, .inl hlast⟩
  rw [searchEntries]
  dsimp only
  rw [if_neg hparent, if_pos hlast]

theorem searchEntries_matches (h : Matches strcmp w entry) :
    searchEntries env info mftDir strcmp (fuel + 1) w index entry =
      some ⟨w, index, some entry⟩ := by
  obtain ⟨-, hlast, hequal⟩ := h
  rw [searchEntries]
  simp [hlast, hequal]

theorem searchEntries_goesOn (h : GoesOn strcmp w entry) :
    searchEntries env info mftDir strcmp (fuel + 1) w index entry =
      searchEntries env info mftDir strcmp fuel w index (nextEntry w entry) := by
  obtain ⟨hnot, hlast, hdiffer⟩ := h
  rw [searchEntries]
  by_cases hparent : entryParent (w.bytes entry.block) entry.off = true
  · have hnotLess : ¬strcmp (w.bytes entry.block) (entryFilename entry.off) < 0 :=
      fun hless => hnot ⟨hparent, .inr hless⟩
    simp [hlast, hdiffer, hparent, hnotLess, nextEntry]
  · simp [hlast, hdiffer, hparent, nextEntry]

section

variable {child : Nat} {w'' : World} {e : Ptr}

theorem drops_child_iff (hdown : Descends strcmp w entry)
    (hread : ChildRead env info mftDir w entry (w', some child)) :
    Drops env info mftDir strcmp w index entry ↔
      Drops env info mftDir strcmp (w'.freeAll [index]) (some child)
        (firstEntry (w'.freeAll [index]) child) := by
  refine ⟨fun h => ?_, fun h => .child hdown hread h⟩
  cases h with
  | fails _ hread' => cases hread.unique hread'
  | child _ hread' h =>
    obtain ⟨rfl, hchild⟩ := Prod.mk.inj (hread.unique hread')
    obtain rfl := Option.some.inj hchild
    exact h
  | next hon _ => exact absurd hdown hon.1

theorem drops_failed_iff (hdown : Descends strcmp w entry)
    (hread : ChildRead env info mftDir w entry (w', none)) :
    Drops env info mftDir strcmp w index entry ↔ index ≠ none := by
  constructor
  · intro h
    cases h with
    | fails _ _ => simp
    | child _ hread' _ => cases hread.unique hread'
    | next hon _ => exact absurd hdown hon.1
  · intro h
    obtain ⟨held, rfl⟩ := Option.ne_none_iff_exists'.mp h
    exact .fails hdown hread

theorem drops_next_iff (hon : GoesOn strcmp w entry) :
    Drops env info mftDir strcmp w index entry ↔
      Drops env info mftDir strcmp w index (nextEntry w entry) := by
  refine ⟨fun h => ?_, fun h => .next hon h⟩
  cases h with
  | fails hdown _ => exact absurd hdown hon.1
  | child hdown _ _ => exact absurd hdown hon.1
  | next _ h => exact h

theorem not_drops (hdown : ¬Descends strcmp w entry) (hon : ¬GoesOn strcmp w entry) :
    ¬Drops env info mftDir strcmp w index entry := by
  intro h
  cases h with
  | fails h _ => exact hdown h
  | child h _ _ => exact hdown h
  | next h _ => exact hon h

theorem finds_child_iff (hdown : Descends strcmp w entry)
    (hread : ChildRead env info mftDir w entry (w', some child)) :
    Finds env info mftDir strcmp w index entry w'' e ↔
      Finds env info mftDir strcmp (w'.freeAll [index]) (some child)
        (firstEntry (w'.freeAll [index]) child) w'' e := by
  refine ⟨fun h => ?_, fun h => .child hdown hread h⟩
  cases h with
  | here h => exact absurd hdown h.1
  | child _ hread' h =>
    obtain ⟨rfl, hchild⟩ := Prod.mk.inj (hread.unique hread')
    obtain rfl := Option.some.inj hchild
    exact h
  | next hon _ => exact absurd hdown hon.1

theorem finds_next_iff (hon : GoesOn strcmp w entry) :
    Finds env info mftDir strcmp w index entry w'' e ↔
      Finds env info mftDir strcmp w index (nextEntry w entry) w'' e := by
  refine ⟨fun h => ?_, fun h => .next hon h⟩
  cases h with
  | here h => exact absurd h.2.2 hon.2.2
  | child hdown _ _ => exact absurd hdown hon.1
  | next _ h => exact h

theorem finds_here_iff (h : Matches strcmp w entry) :
    Finds env info mftDir strcmp w index entry w'' e ↔ entry = e ∧ w = w'' := by
  constructor
  · intro hfinds
    cases hfinds with
    | here _ => exact ⟨rfl, rfl⟩
    | child hdown _ _ => exact absurd hdown h.1
    | next hon _ => exact absurd h.2.2 hon.2.2
  · rintro ⟨rfl, rfl⟩
    exact .here h

theorem not_finds_failed (hdown : Descends strcmp w entry)
    (hread : ChildRead env info mftDir w entry (w', none)) :
    ¬Finds env info mftDir strcmp w index entry w'' e := by
  intro h
  cases h with
  | here h => exact h.1 hdown
  | child _ hread' _ => cases hread.unique hread'
  | next hon _ => exact hon.1 hdown

theorem not_finds_ends (h : Ends strcmp w entry) :
    ¬Finds env info mftDir strcmp w index entry w'' e := by
  intro hfinds
  cases hfinds with
  | here h' => exact absurd h'.2.1 (by simp [h.2])
  | child hdown _ _ => exact h.1 hdown
  | next hon _ => exact absurd hon.2.1 (by simp [h.2])

end

/-- How the search ends, and what it holds then besides its last record. -/
structure Searched (env : Env) (info : BlNtfsInfo) (mftDir : Nat) (strcmp : Mem → Nat → Int)
    (w₀ w : World) (index : Option Nat) (entry : Ptr) (r : Found) (dropped : List Nat) : Prop where
  ledger : Ledger w₀ r.world (r.index.toList ++ dropped)
  dropped_iff : dropped = [] ↔ ¬Drops env info mftDir strcmp w index entry
  finds_iff : ∀ w' e, Finds env info mftDir strcmp w index entry w' e ↔
    r.entry = some e ∧ r.world = w'

theorem searchEntries_searched {r : Found} (h : Ledger w₀ w index.toList)
    (hrun : searchEntries env info mftDir strcmp fuel w index entry = some r) :
    ∃ dropped, Searched env info mftDir strcmp w₀ w index entry r dropped := by
  induction fuel generalizing w index entry with
  | zero => cases hrun
  | succ fuel ih =>
    rcases where_goes strcmp w entry with hdown | hend | hmatch | hon
    · rw [searchEntries_descends hdown] at hrun
      cases hread : blNtfsReadChildNode env info fuel w entry mftDir with
      | none => simp [hread] at hrun
      | some out =>
        obtain ⟨w', _ | child⟩ := out
        · simp only [hread, Option.some.injEq] at hrun
          subst hrun
          have hchild : ChildRead env info mftDir w entry (w', none) := ⟨fuel, hread⟩
          refine ⟨index.toList, blNtfsReadChildNode_ledger h hread, ?_, fun w'' e => ?_⟩
          · rw [drops_failed_iff hdown hchild]
            cases index <;> simp
          · exact iff_of_false (not_finds_failed hdown hchild) (by simp)
        · simp only [hread] at hrun
          have hchild : ChildRead env info mftDir w entry (w', some child) := ⟨fuel, hread⟩
          have hledger : Ledger w₀ (w'.freeAll [index]) (some child).toList := by
            refine Ledger.freeAll ((blNtfsReadChildNode_ledger h hread).perm ?_)
            cases index with
            | none => exact .refl _
            | some i => exact .swap _ _ _
          obtain ⟨dropped, hsearched⟩ := ih hledger hrun
          refine ⟨dropped, hsearched.ledger, ?_, fun w'' e => ?_⟩
          · rw [drops_child_iff hdown hchild]
            exact hsearched.dropped_iff
          · rw [finds_child_iff hdown hchild]
            exact hsearched.finds_iff w'' e
    · rw [searchEntries_ends hend, Option.some.injEq] at hrun
      subst hrun
      have hstop : ¬GoesOn strcmp w entry := fun hon => absurd hon.2.1 (by simp [hend.2])
      refine ⟨[], by simpa using h, iff_of_true rfl (not_drops hend.1 hstop), fun w'' e => ?_⟩
      exact iff_of_false (not_finds_ends hend) (by simp)
    · rw [searchEntries_matches hmatch, Option.some.injEq] at hrun
      subst hrun
      have hstop : ¬GoesOn strcmp w entry := fun hon => hon.2.2 hmatch.2.2
      refine ⟨[], by simpa using h, iff_of_true rfl (not_drops hmatch.1 hstop), fun w'' e => ?_⟩
      rw [finds_here_iff hmatch, Option.some.injEq]
    · rw [searchEntries_goesOn hon] at hrun
      obtain ⟨dropped, hsearched⟩ := ih h hrun
      refine ⟨dropped, hsearched.ledger, ?_, fun w'' e => ?_⟩
      · rw [drops_next_iff hon]
        exact hsearched.dropped_iff
      · rw [finds_next_iff hon]
        exact hsearched.finds_iff w'' e

/-! ## The node -/

/-- The entry is taken: it is of the type asked for, and there are three blocks and a record. -/
structure Taken (env : Env) (directory : Bool) (w : World) (entry : Ptr) : Prop where
  type : directory = true →
    blNtfsIsDirectory (w.bytes entry.block) (entryFilename entry.off) = true
  node : env.allocs w.allocs = true
  fdata : env.allocs (w.allocs + 1) = true
  mftRecord : env.allocs (w.allocs + 2) = true
  read : env.reads w.reads = .success

theorem matchEntry_blocks {directory : Bool} {status : BlStatus} {node : Option BlFileTreeNode}
    {blocks : List (Option Nat)} (h : Ledger w₀ w held)
    (hrun : matchEntry env info fuel directory w entry = some (w', status, node, blocks)) :
    (status = .success ↔ Taken env directory w entry) ∧
      (status ≠ .success → Ledger w₀ w' (blocks.reduceOption ++ held)) ∧
      (status = .success → ∃ n, node = some n ∧ blocks = [some n.fdata.mftRecord]) := by
  unfold matchEntry at hrun
  dsimp only at hrun
  by_cases htype : directory = true ∧
      blNtfsIsDirectory (w.bytes entry.block) (entryFilename entry.off) = false
  · rw [if_pos htype] at hrun
    obtain ⟨rfl, rfl, -, rfl⟩ := by simpa using hrun
    refine ⟨iff_of_false (by simp) fun ht => ?_, fun _ => h, fun hok => by cases hok⟩
    have hdir := ht.type htype.1
    rw [htype.2] at hdir
    contradiction
  · rw [if_neg htype] at hrun
    have htype' : directory = true →
        blNtfsIsDirectory (w.bytes entry.block) (entryFilename entry.off) = true := by
      intro hdir
      by_contra hnot
      exact htype ⟨hdir, by simpa using hnot⟩
    rcases h.alloc env with ⟨hno, w₁, hw₁, h₁⟩ | ⟨hyes, w₁, hw₁, hbytes₁, hallocs₁, hreads₁, -, h₁⟩
    · rw [hw₁] at hrun
      obtain ⟨rfl, rfl, -, rfl⟩ := by simpa using hrun
      refine ⟨iff_of_false (by simp) fun ht => ?_, fun _ => h₁, fun hok => by cases hok⟩
      exact absurd ht.node (by simp [hno])
    · rw [hw₁] at hrun
      dsimp only at hrun
      rcases h₁.alloc env with
        ⟨hno, w₂, hw₂, h₂⟩ | ⟨hyes₂, w₂, hw₂, hbytes₂, hallocs₂, hreads₂, -, h₂⟩
      · rw [hw₂] at hrun
        obtain ⟨rfl, rfl, -, rfl⟩ := by simpa using hrun
        refine ⟨iff_of_false (by simp) fun ht => ?_, fun _ => h₂, fun hok => by cases hok⟩
        rw [hallocs₁, ht.fdata] at hno
        contradiction
      · rw [hw₂] at hrun
        dsimp only at hrun
        rcases h₂.alloc env with
          ⟨hno, w₃, hw₃, h₃⟩ | ⟨hyes₃, w₃, hw₃, hbytes₃, hallocs₃, hreads₃, -, h₃⟩
        · rw [hw₃] at hrun
          obtain ⟨rfl, rfl, -, rfl⟩ := by simpa using hrun
          refine ⟨iff_of_false (by simp) fun ht => ?_, fun _ => h₃, fun hok => by cases hok⟩
          rw [hallocs₂, hallocs₁, ht.mftRecord] at hno
          contradiction
        · rw [hw₃] at hrun
          dsimp only at hrun
          have hm : w₃.bytes entry.block = w.bytes entry.block := by
            rw [hbytes₃, hbytes₂, hbytes₁]
          have hread := h₃.read env w₂.next
            (blNtfsMftRecordLba info (entryReference (w.bytes entry.block) entry.off)).toNat
            info.mftRecordSize
          have hstatus := read_status env w₃ w₂.next
            (blNtfsMftRecordLba info (entryReference (w.bytes entry.block) entry.off)).toNat
            info.mftRecordSize
          rw [hreads₃, hreads₂, hreads₁] at hstatus
          unfold blNtfsReadMft at hrun
          generalize w₃.read env w₂.next
            (blNtfsMftRecordLba info (entryReference (w.bytes entry.block) entry.off)).toNat
            info.mftRecordSize = r at hrun hread hstatus
          obtain ⟨w₄, read⟩ := r
          dsimp only at hrun hread hstatus
          by_cases hok : read = .success
          · rw [if_neg (not_not.mpr hok), Option.map_eq_some_iff] at hrun
            obtain ⟨⟨w₅, iroot⟩, -, hout⟩ := hrun
            obtain ⟨rfl, rfl, rfl, rfl⟩ := by simpa using hout
            refine ⟨iff_of_true rfl ⟨htype', hyes, ?_, ?_, hstatus.symm.trans hok⟩,
              fun hno => absurd rfl hno, fun _ => ⟨_, rfl, rfl⟩⟩
            · rw [← hallocs₁]
              exact hyes₂
            · rw [hallocs₂, hallocs₁] at hyes₃
              exact hyes₃
          · rw [if_pos hok] at hrun
            obtain ⟨rfl, rfl, -, rfl⟩ := by simpa using hrun
            refine ⟨iff_of_false hok fun ht => hok (hstatus.trans ht.read), fun _ => ?_,
              fun hyes => absurd hyes hok⟩
            refine hread.perm ?_
            exact (@List.perm_middle _ w₂.next [w₁.next, w.next] held).symm

/-! ## The whole call -/

/-- The block was handed out during the call, and is in use after it. -/
def StillUsed (w w' : World) (b : Nat) : Prop := w.next ≤ b ∧ b < w'.next ∧ w'.used b = true

/-- All that is reached from the node is in blocks of its own. -/
structure Live (w w' : World) (n : BlFileTreeNode) : Prop where
  node : StillUsed w w' n.node
  fdata : StillUsed w w' n.fdataBlock
  mftRecord : StillUsed w w' n.fdata.mftRecord
  iroot : ∀ p, n.fdata.iroot = some p → StillUsed w w' p.block
  distinct : [n.node, n.fdataBlock, n.fdata.mftRecord].Nodup

/-- What was handed out during the call was freed, and once. -/
def AllFreed (w w' : World) : Prop :=
  ∀ b, w.next ≤ b → b < w'.next → w'.used b = false ∧ FreedSince w w' b 1

def rootEntry (w : World) (iroot : Ptr) : Ptr :=
  ⟨iroot.block, blNtfsIrootGetFirstEntry (w.bytes iroot.block) iroot.off⟩

theorem Ledger.allFreed_iff (h : Ledger w w' held) : AllFreed w w' ↔ held = [] := by
  constructor
  · intro hfreed
    by_contra hne
    obtain ⟨b, hb⟩ := List.exists_mem_of_ne_nil held hne
    obtain ⟨hle, hlt⟩ := h.handedOut b hb
    have hunused := (hfreed b hle hlt).1
    rw [h.used b hb] at hunused
    contradiction
  · rintro rfl b hle hlt
    exact ⟨h.unused b hle hlt List.not_mem_nil, h.freed b hle hlt List.not_mem_nil⟩

section

variable {directory : Bool} {fdata : BlNtfsFileData} {status : BlStatus}
  {node : Option BlFileTreeNode} {iroot : Ptr}

theorem notFound_live_iff {r : Found} {dropped : List Nat}
    (hs : Searched env info mftDir strcmp w w none entry r dropped) (hnone : r.entry = none) :
    AllFreed w (r.world.freeAll [r.index]) ↔
      ¬Drops env info mftDir strcmp w none entry ∧
        ¬∃ w₁ e, Finds env info mftDir strcmp w none entry w₁ e ∧ Taken env directory w₁ e := by
  have hfreed : Ledger w (r.world.freeAll [r.index]) dropped := by
    refine Ledger.freeAll (hs.ledger.perm ?_)
    cases r.index <;> exact .refl _
  rw [Ledger.allFreed_iff hfreed, hs.dropped_iff, and_iff_left]
  rintro ⟨w₁, e, hfinds, -⟩
  rw [hs.finds_iff, hnone] at hfinds
  cases hfinds.1

theorem found_live_iff {r : Found} {dropped : List Nat} {e : Ptr} {w₁ : World}
    {blocks : List (Option Nat)} (hs : Searched env info mftDir strcmp w w none entry r dropped)
    (hsome : r.entry = some e)
    (hrun : matchEntry env info fuel directory r.world e = some (w₁, status, node, blocks)) :
    ((status = .success → ∃ n, node = some n ∧ Live w (w₁.freeAll (blocks ++ [r.index])) n) ∧
        (status ≠ .success → AllFreed w (w₁.freeAll (blocks ++ [r.index])))) ↔
      ¬Drops env info mftDir strcmp w none entry ∧
        ¬∃ w₁ e, Finds env info mftDir strcmp w none entry w₁ e ∧ Taken env directory w₁ e := by
  obtain ⟨htaken, hledger, hblocks⟩ := matchEntry_blocks hs.ledger hrun
  have hfinds : (∃ w₁ e, Finds env info mftDir strcmp w none entry w₁ e ∧
      Taken env directory w₁ e) ↔ status = .success := by
    rw [htaken]
    constructor
    · rintro ⟨w₂, e', hfinds, ht⟩
      obtain ⟨he, rfl⟩ := (hs.finds_iff w₂ e').mp hfinds
      obtain rfl := Option.some.inj (hsome.symm.trans he)
      exact ht
    · exact fun ht => ⟨_, e, (hs.finds_iff _ e).mpr ⟨hsome, rfl⟩, ht⟩
  rw [hfinds]
  by_cases hok : status = .success
  · -- the record of the node is among the blocks that are freed
    obtain ⟨n, hn, hrecord⟩ := hblocks hok
    refine iff_of_false (fun hlive => ?_) fun h => h.2 hok
    obtain ⟨n', hn', hlive⟩ := hlive.1 hok
    obtain rfl := Option.some.inj (hn.symm.trans hn')
    have hused := hlive.mftRecord.2.2
    rw [hrecord, freeAll_not_used (by simp)] at hused
    contradiction
  · have hfreed : Ledger w (w₁.freeAll (blocks ++ [r.index])) dropped := by
      refine Ledger.freeAll ?_
      rw [List.reduceOption_append, List.reduceOption_singleton, List.append_assoc]
      exact hledger hok
    rw [and_iff_right fun h => absurd h hok, Ledger.allFreed_iff hfreed, hs.dropped_iff]
    simp [hok]

/-- **A lookup leaves its blocks as it should, unless it finds what it looks for or drops a record
on the way down.** A node that is returned has lost its MFT record. -/
theorem blNtfsIterateDirectoryCallback_live_iff
    (hrun : blNtfsIterateDirectoryCallback env fuel strcmp directory fdata w =
      some (w', status, node)) :
    ((status = .success → ∃ n, node = some n ∧ Live w w' n) ∧
        (status ≠ .success → AllFreed w w')) ↔
      (fdata.dir = true → ∀ iroot, fdata.iroot = some iroot →
        ¬Drops env fdata.info fdata.mftRecord strcmp w none (rootEntry w iroot) ∧
          ¬∃ w₁ e, Finds env fdata.info fdata.mftRecord strcmp w none (rootEntry w iroot) w₁ e ∧
            Taken env directory w₁ e) := by
  unfold blNtfsIterateDirectoryCallback at hrun
  cases hdir : fdata.dir with
  | false =>
    simp only [hdir, Option.some.injEq, Prod.mk.injEq] at hrun
    obtain ⟨rfl, rfl, -⟩ := hrun
    have hnone : AllFreed w w := fun b hle hlt => absurd hlt (by omega)
    exact iff_of_true ⟨fun hok => (by cases hok), fun _ => hnone⟩ fun hyes => (by cases hyes)
  | true =>
    cases hiroot : fdata.iroot with
    | none => simp [hdir, hiroot] at hrun
    | some iroot =>
      simp only [hdir, hiroot] at hrun
      rw [show (⟨_, blNtfsIrootGetFirstEntry _ _⟩ : Ptr) = rootEntry w iroot from rfl] at hrun
      simp only [true_imp_iff, Option.some.injEq, forall_eq']
      cases hsearch : searchEntries env fdata.info fdata.mftRecord strcmp fuel w none
          (rootEntry w iroot) with
      | none => simp [hsearch] at hrun
      | some r =>
        obtain ⟨dropped, hs⟩ := searchEntries_searched (Ledger.start w) hsearch
        obtain ⟨w₁, index, _ | e⟩ := r
        · simp only [hsearch] at hrun
          obtain ⟨rfl, rfl, -⟩ := by simpa using hrun
          rw [← notFound_live_iff hs rfl]
          simp
        · simp only [hsearch, Option.map_eq_some_iff] at hrun
          obtain ⟨⟨w₂, status, node, blocks⟩, hmatch, hout⟩ := hrun
          obtain ⟨rfl, rfl, rfl⟩ := by simpa using hout
          exact found_live_iff hs rfl hmatch

theorem smallDirectory_found : ∃ w' n, blNtfsIterateDirectoryCallback (smallEnv 101) 10
    (compareWith 66) false smallDirectory (smallWorld oneRun) = some (w', .success, some n) ∧
      w'.used n.fdata.mftRecord = false := by
  have hout : (blNtfsIterateDirectoryCallback (smallEnv 101) 10 (compareWith 66) false
      smallDirectory (smallWorld oneRun)).map
        (fun r => (r.2.1, r.2.2.map fun n => r.1.used n.fdata.mftRecord)) =
      some (.success, some false) := rfl
  obtain ⟨⟨w', status, node⟩, hrun, hout⟩ := Option.map_eq_some_iff.mp hout
  obtain ⟨rfl, hused⟩ := Prod.mk.inj hout
  obtain ⟨n, rfl, hused⟩ := Option.map_eq_some_iff.mp hused
  exact ⟨w', n, hrun, hused⟩

theorem smallDirectory_live_iff : ∃ w' node,
    blNtfsIterateDirectoryCallback (smallEnv 101) 10 (compareWith 66) false smallDirectory
      (smallWorld oneRun) = some (w', .success, node) ∧
    (((BlStatus.success = .success → ∃ n, node = some n ∧ Live (smallWorld oneRun) w' n) ∧
        (BlStatus.success ≠ .success → AllFreed (smallWorld oneRun) w')) ↔
      (smallDirectory.dir = true → ∀ iroot, smallDirectory.iroot = some iroot →
        ¬Drops (smallEnv 101) smallDirectory.info 0 (compareWith 66) (smallWorld oneRun) none
            (rootEntry (smallWorld oneRun) iroot) ∧
          ¬∃ w₁ e, Finds (smallEnv 101) smallDirectory.info 0 (compareWith 66)
              (smallWorld oneRun) none (rootEntry (smallWorld oneRun) iroot) w₁ e ∧
            Taken (smallEnv 101) false w₁ e)) := by
  obtain ⟨w', n, hrun, -⟩ := smallDirectory_found
  exact ⟨w', some n, hrun, blNtfsIterateDirectoryCallback_live_iff hrun⟩

theorem smallDirectory_not_live : ¬ ∀ env fuel strcmp directory fdata w w' status node,
    blNtfsIterateDirectoryCallback env fuel strcmp directory fdata w = some (w', status, node) →
    (status = .success → ∃ n, node = some n ∧ Live w w' n) ∧
      (status ≠ .success → AllFreed w w') := by
  intro h
  obtain ⟨w', n, hrun, hused⟩ := smallDirectory_found
  obtain ⟨n', hn, hlive⟩ := (h _ _ _ _ _ _ _ _ _ hrun).1 rfl
  obtain rfl := Option.some.inj hn
  have hstill := hlive.mftRecord.2.2
  rw [hused] at hstill
  contradiction

end

end BootLoader.Ntfs
