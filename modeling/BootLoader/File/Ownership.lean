import BootLoader.File.Path

/-!
# Who frees the nodes of a path

A node leaves the stack of the walk in one of three ways: `..` pops it, the way out releases it
from below the top, or it is on top at the end.
-/

open ByteMemory

namespace BootLoader.File

variable {σ φ : Type} (env : FsEnv σ φ)

/-! ## What should hold at the return -/

/-- The node is not read after it was freed. -/
def ReadSafe (log : List Event) (id : Nat) : Prop :=
  log.Pairwise fun e e' => e = .freed id → e' ≠ .read id

instance (log : List Event) (id : Nat) : Decidable (ReadSafe log id) :=
  inferInstanceAs (Decidable (List.Pairwise _ _))

/-- Every node obtained from the callback is freed once and not read later, its data is closed
once, except for the data that is returned. -/
structure Balanced (out : Outcome σ φ) : Prop where
  freed : ∀ id, 1 ≤ id → id ≤ out.nodes → out.log.count (.freed id) = 1
  readSafe : ∀ id, 1 ≤ id → id ≤ out.nodes → ReadSafe out.log id
  closed : ∀ id, 1 ≤ id → id ≤ out.nodes → ¬(out.status = .success ∧ id = out.top) →
    out.log.count (.closed id) = 1
  returned : out.status = .success → out.log.count (.closed out.top) = 0

/-- One component's effect on the depth below the root. -/
def deeper (depth : Nat) (filename : List Byte) : Nat :=
  if filename = blPreviousDirectory then depth - 1
  else if filename = blCurrentDirectory then depth
  else depth + 1

/-- How deep the components lead. -/
def depthOf (filenames : List (List Byte)) : Nat := filenames.foldl deeper 0

/-- The components gone through lead to the root, or with success to one of its entries. -/
def ShallowEnd (out : Outcome σ φ) : Prop :=
  if out.status = .success then depthOf out.visited ≤ 1 else depthOf out.visited = 0

/-! ## Logs -/

theorem readSafe_append {log log' : List Event} {id : Nat} :
    ReadSafe (log ++ log') id ↔
      ReadSafe log id ∧ ReadSafe log' id ∧ (.freed id ∈ log → .read id ∉ log') := by
  unfold ReadSafe
  rw [List.pairwise_append]
  constructor
  · rintro ⟨h, h', hcross⟩
    exact ⟨h, h', fun hmem hread => hcross _ hmem _ hread rfl rfl⟩
  · rintro ⟨h, h', hcross⟩
    refine ⟨h, h', ?_⟩
    rintro e hmem e' hmem' rfl rfl
    exact hcross hmem hmem'

/-- Nothing happens to this node in the log. -/
def Untouched (log : List Event) (id : Nat) : Prop :=
  ∀ e ∈ log, e ≠ .read id ∧ e ≠ .closed id ∧ e ≠ .freed id

theorem Untouched.count {log : List Event} {id : Nat} (h : Untouched log id) :
    log.count (.closed id) = 0 ∧ log.count (.freed id) = 0 := by
  rw [List.count_eq_zero, List.count_eq_zero]
  exact ⟨fun hmem => (h _ hmem).2.1 rfl, fun hmem => (h _ hmem).2.2 rfl⟩

theorem Untouched.readSafe {log log' : List Event} {id : Nat} (h : ReadSafe log id)
    (h' : Untouched log' id) : ReadSafe (log ++ log') id := by
  rw [readSafe_append]
  refine ⟨h, ?_, fun _ hread => (h' _ hread).1 rfl⟩
  exact List.pairwise_of_forall_mem_list fun e he e' _ hfreed => absurd hfreed (h' e he).2.2

/-! ## The invariant of the walk -/

/-- The numbers of the nodes on the stack, top first. -/
def Walk.ids (w : Walk σ φ) : List Nat := w.top.id :: w.below.map Node.id

/-- A node on the stack is neither closed nor freed, a node that left it was both once, and was
not read later. -/
structure Ledger (w : Walk σ φ) : Prop where
  sorted : w.ids.Pairwise (· > ·)
  bound : ∀ id ∈ w.ids, id ≤ w.nodes
  root : w.ids.getLast? = some 0
  onStack : ∀ id ∈ w.ids, w.log.count (.closed id) = 0 ∧ w.log.count (.freed id) = 0
  gone : ∀ id, 1 ≤ id → id ≤ w.nodes → id ∉ w.ids →
    w.log.count (.closed id) = 1 ∧ w.log.count (.freed id) = 1
  later : ∀ id, w.nodes < id → Untouched w.log id
  readSafe : ∀ id, ReadSafe w.log id
  depth : depthOf w.visited = w.below.length

theorem depthOf_append (filenames : List (List Byte)) (filename : List Byte) :
    depthOf (filenames ++ [filename]) = deeper (depthOf filenames) filename := by
  simp [depthOf]

theorem Untouched.append {log log' : List Event} {id : Nat} (h : Untouched log id)
    (h' : Untouched log' id) : Untouched (log ++ log') id := by
  intro e he
  rcases List.mem_append.mp he with he | he
  · exact h e he
  · exact h' e he

theorem untouched_pop {n id : Nat} (h : id ≠ n) :
    Untouched [.read n, .closed n, .freed n] id := by
  intro e he
  simp only [List.mem_cons, List.not_mem_nil, or_false] at he
  rcases he with rfl | rfl | rfl <;> simp [Ne.symm h]

theorem not_mem_of_count {log : List Event} {e : Event} (h : log.count e = 0) : e ∉ log :=
  List.count_eq_zero.mp h

theorem counts_read (log : List Event) (n id : Nat) :
    (log ++ [Event.read n]).count (.closed id) = log.count (.closed id) ∧
      (log ++ [Event.read n]).count (.freed id) = log.count (.freed id) := by
  simp [List.count_append]

theorem counts_obtained (log : List Event) (n id : Nat) :
    (log ++ [Event.obtained n]).count (.closed id) = log.count (.closed id) ∧
      (log ++ [Event.obtained n]).count (.freed id) = log.count (.freed id) := by
  simp [List.count_append]

theorem ledger_start (world : σ) (root : φ) : Ledger (Walk.start world root) where
  sorted := List.pairwise_singleton _ _
  bound := by
    intro id hid
    rw [List.mem_singleton.mp hid]
    exact Nat.le_refl 0
  root := rfl
  onStack := fun _ _ => ⟨rfl, rfl⟩
  gone := by
    intro id hpos hle
    have hzero : id ≤ 0 := hle
    omega
  later := fun _ _ _ he => absurd he List.not_mem_nil
  readSafe := fun _ => List.Pairwise.nil
  depth := rfl

theorem Ledger.popNode {w : Walk σ φ} (h : Ledger w) :
    Ledger ((popNode env w).visit blPreviousDirectory) := by
  unfold BootLoader.File.popNode
  cases hbelow : w.below with
  | nil =>
    refine ⟨h.sorted, h.bound, h.root, h.onStack, h.gone, h.later, h.readSafe, ?_⟩
    show depthOf (w.visited ++ [blPreviousDirectory]) = w.below.length
    rw [depthOf_append, h.depth, hbelow]
    rfl
  | cons prev below =>
    have hids : w.ids = w.top.id :: prev.id :: below.map Node.id := by
      rw [Walk.ids, hbelow, List.map_cons]
    have hsorted := h.sorted
    rw [hids, List.pairwise_cons] at hsorted
    have htop := h.onStack w.top.id (by rw [hids]; exact List.mem_cons_self)
    have hle := h.bound w.top.id (by rw [hids]; exact List.mem_cons_self)
    refine ⟨hsorted.2, ?_, ?_, ?_, ?_, ?_, ?_, ?_⟩
    · intro id hid
      exact h.bound id (by rw [hids]; exact List.mem_cons_of_mem _ hid)
    · have hroot := h.root
      rwa [hids, List.getLast?_cons_cons] at hroot
    · intro id hid
      have hne : id ≠ w.top.id := Nat.ne_of_lt (hsorted.1 id hid)
      have hold := h.onStack id (by rw [hids]; exact List.mem_cons_of_mem _ hid)
      have hnew := (untouched_pop hne).count
      simp only [Walk.visit, List.count_append, hold, hnew]
      exact ⟨trivial, trivial⟩
    · intro id hpos hnodes hid
      by_cases hne : id = w.top.id
      · subst hne
        simp [Walk.visit, List.count_append, htop]
      · have hold := h.gone id hpos hnodes
          (by rw [hids]; exact fun hmem => (List.mem_cons.mp hmem).elim hne hid)
        have hnew := (untouched_pop hne).count
        simp only [Walk.visit, List.count_append, hold, hnew]
        exact ⟨trivial, trivial⟩
    · intro id hid
      have hid' : w.nodes < id := hid
      exact (h.later id hid).append (untouched_pop (by omega))
    · intro id
      by_cases hne : id = w.top.id
      · subst hne
        show ReadSafe (w.log ++ _) _
        rw [readSafe_append]
        refine ⟨h.readSafe _, by simp [ReadSafe], ?_⟩
        exact fun hmem => absurd hmem (not_mem_of_count htop.2)
      · exact (untouched_pop hne).readSafe (h.readSafe id)
    · show depthOf (w.visited ++ [blPreviousDirectory]) = below.length
      rw [depthOf_append, h.depth, hbelow]
      rfl

theorem Ledger.readTop {w : Walk σ φ} (h : Ledger w) :
    Ledger { w with log := w.log ++ [.read w.top.id] } := by
  have hmem : w.top.id ∈ w.ids := List.mem_cons_self
  have hcount := counts_read w.log w.top.id
  refine ⟨h.sorted, h.bound, h.root, ?_, ?_, ?_, ?_, h.depth⟩
  · intro id hid
    rw [(hcount id).1, (hcount id).2]
    exact h.onStack id hid
  · intro id hpos hle hid
    rw [(hcount id).1, (hcount id).2]
    exact h.gone id hpos hle hid
  · intro id hid
    have hid' : w.nodes < id := hid
    have hle := h.bound w.top.id hmem
    apply (h.later id hid).append
    intro e he
    rw [List.mem_singleton] at he
    subst he
    simp only [ne_eq, Event.read.injEq, reduceCtorEq, not_false_eq_true, and_self, and_true]
    omega
  · intro id
    rw [readSafe_append]
    refine ⟨h.readSafe id, List.pairwise_singleton _ _, ?_⟩
    intro hfreed hread
    rw [List.mem_singleton, Event.read.injEq] at hread
    subst hread
    exact not_mem_of_count (h.onStack _ hmem).2 hfreed

theorem Ledger.push {w : Walk σ φ} (h : Ledger w) {filename : List Byte} (fdata : φ)
    (hc : filename ≠ blCurrentDirectory) (hp : filename ≠ blPreviousDirectory) :
    Ledger ({ w with
      top := ⟨w.nodes + 1, fdata⟩, below := w.top :: w.below, nodes := w.nodes + 1
      log := w.log ++ [Event.obtained (w.nodes + 1)] }.visit filename) := by
  have hcount := counts_obtained w.log (w.nodes + 1)
  have hnew := (h.later (w.nodes + 1) (Nat.lt_succ_self _)).count
  have hobtained : ∀ id, Untouched [Event.obtained (w.nodes + 1)] id := by
    intro id e he
    rw [List.mem_singleton] at he
    subst he
    simp
  refine ⟨?_, ?_, ?_, ?_, ?_, ?_, ?_, ?_⟩
  · exact List.pairwise_cons.mpr ⟨fun id hid => Nat.lt_succ_of_le (h.bound id hid), h.sorted⟩
  · intro id hid
    rcases List.mem_cons.mp hid with rfl | hold
    · exact Nat.le_refl _
    · exact Nat.le_succ_of_le (h.bound id hold)
  · show ((w.nodes + 1) :: w.ids).getLast? = some 0
    rw [List.getLast?_cons, h.root]
    rfl
  · intro id hid
    show (w.log ++ _).count _ = 0 ∧ (w.log ++ _).count _ = 0
    rw [(hcount id).1, (hcount id).2]
    rcases List.mem_cons.mp hid with rfl | hold
    · exact hnew
    · exact h.onStack id hold
  · intro id hpos hle hid
    have hle' : id ≤ w.nodes + 1 := hle
    have hids : id ≠ w.nodes + 1 ∧ id ∉ w.ids := not_or.mp fun h => hid (List.mem_cons.mpr h)
    have hne := hids.1
    show (w.log ++ _).count _ = 1 ∧ (w.log ++ _).count _ = 1
    rw [(hcount id).1, (hcount id).2]
    exact h.gone id hpos (by omega) hids.2
  · intro id hid
    have hid' : w.nodes + 1 < id := hid
    exact (h.later id (by omega)).append (hobtained id)
  · intro id
    exact (hobtained id).readSafe (h.readSafe id)
  · show depthOf (w.visited ++ [filename]) = w.below.length + 1
    rw [depthOf_append, h.depth, deeper, if_neg hp, if_neg hc]

theorem Ledger.processComponent {w : Walk σ φ} (h : Ledger w) (filename : List Byte)
    (directory : Bool) : Ledger (processComponent env w filename directory).1 := by
  have hstep := processComponent_step env w filename directory
  generalize BootLoader.File.processComponent env w filename directory = out at hstep
  cases hstep with
  | current hc =>
    refine ⟨h.sorted, h.bound, h.root, h.onStack, h.gone, h.later, h.readSafe, ?_⟩
    show depthOf (w.visited ++ [filename]) = w.below.length
    rw [depthOf_append, h.depth, deeper, if_neg (hc ▸ blPreviousDirectory_ne_current.symm),
      if_pos hc]
  | previous hp =>
    subst hp
    exact h.popNode env
  | @found hc hp world fdata hcall =>
    have hpush := h.readTop.push fdata hc hp
    exact ⟨hpush.sorted, hpush.bound, hpush.root, hpush.onStack, hpush.gone, hpush.later,
      hpush.readSafe, hpush.depth⟩
  | notFound =>
    have hread := h.readTop
    exact ⟨hread.sorted, hread.bound, hread.root, hread.onStack, hread.gone, hread.later,
      hread.readSafe, hread.depth⟩

theorem Ledger.iterateLoop {path : List Byte} {scan fuel : Nat} {w w' : Walk σ φ} {t : Tokenizer}
    {token : Option Nat} {status : BlStatus} (h : Ledger w)
    (hloop : iterateLoop env path scan fuel w t token = some (w', status)) : Ledger w' := by
  induction fuel generalizing w t token with
  | zero => cases hloop
  | succ fuel ih =>
    cases token with
    | none =>
      cases hloop
      exact h
    | some start =>
      rw [BootLoader.File.iterateLoop] at hloop
      split at hloop
      · cases hloop
      next world t next hcall =>
      split at hloop
      · cases hloop
      next filename hname =>
      have hworld : Ledger { w with world } :=
        ⟨h.sorted, h.bound, h.root, h.onStack, h.gone, h.later, h.readSafe, h.depth⟩
      have hnext := hworld.processComponent env filename (next.isSome || endsInDelimiter path)
      simp only at hloop
      split at hloop
      next heq =>
        rw [heq] at hnext
        exact ih hnext hloop
      next heq =>
        cases hloop
        rw [heq] at hnext
        exact hnext

/-! ## The way out -/

/-- The events of the `for` loop on the way out. -/
def releaseLog (below : List (Node φ)) : List Event :=
  below.flatMap fun n => [.read n.id, .closed n.id, .freed n.id, .read n.id]

theorem releaseBelow_log (below : List (Node φ)) (world : σ) :
    (releaseBelow env below world).2 = releaseLog below := by
  induction below generalizing world with
  | nil => rfl
  | cons n below ih =>
    show _ :: _ :: _ :: _ :: (releaseBelow env below _).2 = _
    rw [ih]
    rfl

theorem untouched_releaseLog {below : List (Node φ)} {id : Nat} (h : id ∉ below.map Node.id) :
    Untouched (releaseLog below) id := by
  intro e he
  obtain ⟨n, hn, he⟩ := List.mem_flatMap.mp he
  have hne : n.id ≠ id := fun heq => h (heq ▸ List.mem_map_of_mem hn)
  simp only [List.mem_cons, List.not_mem_nil, or_false] at he
  rcases he with rfl | rfl | rfl | rfl <;> simp [hne]

theorem counts_releaseLog {below : List (Node φ)} (hsorted : (below.map Node.id).Pairwise (· > ·))
    {id : Nat} (hid : id ∈ below.map Node.id) :
    (releaseLog below).count (.closed id) = 1 ∧ (releaseLog below).count (.freed id) = 1 := by
  induction below with
  | nil => exact absurd hid List.not_mem_nil
  | cons n below ih =>
    rw [List.map_cons, List.pairwise_cons] at hsorted
    have hlog : releaseLog (n :: below) =
        [.read n.id, .closed n.id, .freed n.id, .read n.id] ++ releaseLog below := rfl
    rw [hlog, List.count_append, List.count_append]
    by_cases hne : id = n.id
    · subst hne
      have hrest := (untouched_releaseLog fun hmem => Nat.lt_irrefl _ (hsorted.1 _ hmem)).count
      rw [hrest.1, hrest.2]
      simp
    · rw [List.map_cons, List.mem_cons] at hid
      obtain ⟨hclosed, hfreed⟩ := ih hsorted.2 (hid.resolve_left hne)
      rw [hclosed, hfreed]
      simp [Ne.symm hne]

theorem leave_log (w : Walk σ φ) (status : BlStatus) :
    (leave env w status).log =
      w.log ++ (if status = .success then [.read w.top.id] else []) ++
        .read w.top.id :: releaseLog w.below ++ [.freed w.top.id] := by
  unfold leave
  rw [← releaseBelow_log env w.below w.world]

theorem topReads_eq (status : BlStatus) (n : Nat) :
    (if status = .success then [Event.read n] else []) = [] ∨
      (if status = .success then [Event.read n] else []) = [Event.read n] := by
  split
  · exact .inr rfl
  · exact .inl rfl

theorem leave_counts (w : Walk σ φ) (status : BlStatus) (id : Nat) :
    (leave env w status).log.count (.closed id) =
      w.log.count (.closed id) + (releaseLog w.below).count (.closed id) ∧
    (leave env w status).log.count (.freed id) = w.log.count (.freed id) +
      (releaseLog w.below).count (.freed id) + if w.top.id = id then 1 else 0 := by
  rw [leave_log]
  rcases topReads_eq status w.top.id with h | h
  · simp [h, List.count_append, List.count_singleton, Nat.add_assoc]
  · simp [h, List.count_append, List.count_singleton, Nat.add_assoc]

theorem root_mem_below {w : Walk σ φ} (h : Ledger w) (hne : w.below ≠ []) : 1 ≤ w.top.id := by
  obtain ⟨prev, below, hbelow⟩ := List.exists_cons_of_ne_nil hne
  have hsorted := h.sorted
  rw [Walk.ids, hbelow, List.map_cons, List.pairwise_cons] at hsorted
  have hlt := hsorted.1 prev.id List.mem_cons_self
  omega

/-- With two nodes below the top, the first of them is read after it was freed. -/
theorem not_readSafe_release (n : Node φ) (below : List (Node φ)) :
    ¬ReadSafe (releaseLog (n :: below)) n.id := by
  intro h
  have hlog : releaseLog (n :: below) =
      [.read n.id, .closed n.id, .freed n.id, .read n.id] ++ releaseLog below := rfl
  rw [hlog, readSafe_append] at h
  have hsafe := h.1
  simp [ReadSafe] at hsafe

theorem readSafe_freed_last {log : List Event} {id : Nat} (h : .freed id ∉ log) :
    ReadSafe (log ++ [.freed id]) id := by
  rw [readSafe_append]
  refine ⟨?_, List.pairwise_singleton _ _, fun hmem => absurd hmem h⟩
  exact List.pairwise_of_forall_mem_list fun e he _ _ hfreed => absurd (hfreed ▸ he) h

/-- Where a node is at the end of the loop, and what the whole call does to it. -/
theorem leave_cases {w : Walk σ φ} (h : Ledger w) (status : BlStatus) {id : Nat} (hpos : 1 ≤ id)
    (hle : id ≤ w.nodes) :
    (leave env w status).log.count (.freed id) = 1 ∧
      (leave env w status).log.count (.closed id) = if id = w.top.id then 0 else 1 := by
  obtain ⟨hclosed, hfreed⟩ := leave_counts env w status id
  have hsorted : w.ids.Pairwise (· > ·) := h.sorted
  rw [Walk.ids, List.pairwise_cons] at hsorted
  rw [hclosed, hfreed]
  by_cases htop : id = w.top.id
  · subst htop
    have hold := h.onStack w.top.id List.mem_cons_self
    have hrest := (untouched_releaseLog fun hmem => Nat.lt_irrefl _ (hsorted.1 _ hmem)).count
    simp [hold, hrest]
  rw [if_neg (Ne.symm htop), if_neg htop]
  by_cases hbelow : id ∈ w.below.map Node.id
  · have hold := h.onStack id (List.mem_cons_of_mem _ hbelow)
    have hrest := counts_releaseLog hsorted.2 hbelow
    rw [hold.1, hold.2, hrest.1, hrest.2]
    exact ⟨rfl, rfl⟩
  · have hold := h.gone id hpos hle fun hmem => (List.mem_cons.mp hmem).elim htop hbelow
    have hrest := (untouched_releaseLog hbelow).count
    rw [hold.1, hold.2, hrest.1, hrest.2]
    exact ⟨rfl, rfl⟩

theorem leave_readSafe {w : Walk σ φ} (h : Ledger w) (status : BlStatus) {id : Nat}
    (hid : id ∉ w.below.map Node.id) : ReadSafe (leave env w status).log id := by
  have hrest := untouched_releaseLog hid
  have hreads : ∀ log, log = [] ∨ log = [Event.read w.top.id] →
      ReadSafe (w.log ++ log ++ .read w.top.id :: releaseLog w.below ++ [.freed w.top.id]) id := by
    intro log hlog
    by_cases htop : id = w.top.id
    · subst htop
      have hnot := not_mem_of_count (h.onStack w.top.id List.mem_cons_self).2
      apply readSafe_freed_last
      simp only [List.mem_append, List.mem_cons, reduceCtorEq, false_or, not_or]
      refine ⟨⟨hnot, ?_⟩, fun hmem => (hrest _ hmem).2.2 rfl⟩
      rcases hlog with rfl | rfl <;> simp
    · rw [List.append_assoc, List.append_assoc]
      refine Untouched.readSafe (h.readSafe id) ?_
      have hread : Untouched [Event.read w.top.id] id := by
        intro e he
        rw [List.mem_singleton] at he
        subst he
        simp [Ne.symm htop]
      have hfreed : Untouched [Event.freed w.top.id] id := by
        intro e he
        rw [List.mem_singleton] at he
        subst he
        simp [Ne.symm htop]
      have hlast := (hread.append hrest).append hfreed
      rcases hlog with rfl | rfl
      · exact hlast
      · exact hread.append hlast
  rw [leave_log]
  exact hreads _ (topReads_eq status w.top.id)

theorem shallow_of_balanced {w : Walk σ φ} (h : Ledger w) {status : BlStatus}
    (hbalanced : Balanced (leave env w status)) :
    if status = .success then w.below.length ≤ 1 else w.below.length = 0 := by
  have hsorted : w.ids.Pairwise (· > ·) := h.sorted
  rw [Walk.ids, List.pairwise_cons] at hsorted
  have htopLe : w.top.id ≤ w.nodes := h.bound _ List.mem_cons_self
  split
  · by_contra hlong
    obtain ⟨n, m, below, hbelow⟩ : ∃ n m below, w.below = n :: m :: below := by
      match hb : w.below with
      | [] => simp [hb] at hlong
      | [n] => simp [hb] at hlong
      | n :: m :: below => exact ⟨n, m, below, rfl⟩
    rw [hbelow] at hsorted
    have hn : m.id < n.id := (List.pairwise_cons.mp hsorted.2).1 m.id List.mem_cons_self
    have hnTop : n.id < w.top.id := hsorted.1 n.id List.mem_cons_self
    have hsafe := hbalanced.readSafe n.id (by omega) (show n.id ≤ w.nodes by omega)
    rw [leave_log, readSafe_append, readSafe_append, hbelow] at hsafe
    have hrelease := hsafe.1.2.1
    rw [← List.singleton_append, readSafe_append] at hrelease
    exact not_readSafe_release n (m :: below) hrelease.2.1
  · next hfailed =>
    by_contra hne
    have hpos := root_mem_below h fun hnil => hne (by rw [hnil]; rfl)
    have hclosed := hbalanced.closed w.top.id hpos htopLe fun hreturned => hfailed hreturned.1
    rw [(leave_cases env h status hpos htopLe).2, if_pos rfl] at hclosed
    omega

theorem balanced_of_shallow {w : Walk σ φ} (h : Ledger w) {status : BlStatus}
    (hshallow : if status = .success then w.below.length ≤ 1 else w.below.length = 0) :
    Balanced (leave env w status) := by
  have hsorted : w.ids.Pairwise (· > ·) := h.sorted
  rw [Walk.ids, List.pairwise_cons] at hsorted
  have hbelowRoot : ∀ id, 1 ≤ id → id ∉ w.below.map Node.id := by
    intro id hpos hmem
    obtain ⟨n, hn, rfl⟩ := List.mem_map.mp hmem
    have hone : w.below.length = 1 := by
      have hlen := List.length_pos_of_mem hn
      split at hshallow <;> omega
    obtain ⟨r, hr⟩ := List.length_eq_one_iff.mp hone
    have hroot := h.root
    rw [hr, List.mem_singleton] at hn
    rw [Walk.ids, hr, ← hn] at hroot
    simp at hroot
    omega
  refine ⟨?_, ?_, ?_, ?_⟩
  · intro id hpos hle
    exact (leave_cases env h status hpos hle).1
  · intro id hpos _
    exact leave_readSafe env h status (hbelowRoot id hpos)
  · intro id hpos hle hnot
    rw [(leave_cases env h status hpos hle).2]
    by_cases hstatus : status = .success
    · have hne : id ≠ w.top.id := fun htop => hnot ⟨hstatus, htop⟩
      rw [if_neg hne]
    · rw [if_neg hstatus] at hshallow
      rw [if_neg]
      intro htop
      have hroot := h.root
      rw [Walk.ids, List.length_eq_zero_iff.mp hshallow] at hroot
      simp at hroot
      omega
  · intro _
    have hold := h.onStack w.top.id List.mem_cons_self
    have hrest := (untouched_releaseLog fun hmem =>
      Nat.lt_irrefl _ (hsorted.1 w.top.id hmem)).count
    show (leave env w status).log.count (.closed w.top.id) = 0
    rw [(leave_counts env w status w.top.id).1, hold.1, hrest.1]

/-- The way out is right if it starts at the root, or with success at an entry of the root. -/
theorem leave_balanced_iff {w : Walk σ φ} (h : Ledger w) (status : BlStatus) :
    Balanced (leave env w status) ↔
      if status = .success then w.below.length ≤ 1 else w.below.length = 0 :=
  ⟨shallow_of_balanced env h, balanced_of_shallow env h⟩

/-- **A call releases its nodes as it should exactly if it ends at the root, or with success at
an entry of the root.** -/
theorem blFileIteratePath_balanced_iff {world : σ} {path : CString} {root : φ}
    {out : Outcome σ φ} (h : blFileIteratePath env world path root = some out) :
    Balanced out ↔ ShallowEnd out := by
  unfold blFileIteratePath at h
  split at h
  · cases h
    refine ⟨fun _ => rfl, fun _ => ⟨?_, ?_, ?_, ?_⟩⟩
    · intro id hpos hle
      have hzero : id ≤ 0 := hle
      omega
    · exact fun _ _ _ => List.Pairwise.nil
    · intro id hpos hle
      have hzero : id ≤ 0 := hle
      omega
    · exact fun hsuccess => BlStatus.noConfusion hsuccess
  · next world' hcopy =>
    unfold iterateCopy at h
    rw [Option.bind_eq_some_iff] at h
    obtain ⟨⟨world'', t, filename⟩, -, h⟩ := h
    rw [Option.map_eq_some_iff] at h
    obtain ⟨⟨w, status⟩, hloop, rfl⟩ := h
    have hledger := (ledger_start world'' root).iterateLoop env hloop
    rw [leave_balanced_iff env hledger]
    unfold ShallowEnd
    show _ ↔ if status = .success then depthOf w.visited ≤ 1 else depthOf w.visited = 0
    rw [hledger.depth]

/-! ## Two calls -/

def twoDirectories : CString := ⟨[0x2f, 0x61, 0x2f, 0x62, 0x2f], by decide⟩

def lookupAll (_ : List Byte) (_ : Bool) : BlStatus := .success

def lookupFirst (filename : List Byte) (_ : Bool) : BlStatus :=
  if filename = [0x61] then .success else .fileNotFound

theorem blFileIteratePath_balanced_iff_two :
    ∃ out, blFileIteratePath (heapFs lookupAll) rootWorld twoDirectories 0x100030 = some out ∧
      (Balanced out ↔ ShallowEnd out) := by
  obtain ⟨out, hout⟩ : ∃ out,
      blFileIteratePath (heapFs lookupAll) rootWorld twoDirectories 0x100030 = some out :=
    Option.isSome_iff_exists.mp (by decide +kernel)
  exact ⟨out, hout, blFileIteratePath_balanced_iff (heapFs lookupAll) hout⟩

/-- With success two entries deep, the node of the first is read after it was freed. With a
failure one entry deep, its data is not closed. -/
theorem two_directories_unbalanced :
    (∃ out, blFileIteratePath (heapFs lookupAll) rootWorld twoDirectories 0x100030 = some out ∧
      ¬Balanced out) ∧
    ∃ out, blFileIteratePath (heapFs lookupFirst) rootWorld twoDirectories 0x100030 = some out ∧
      ¬Balanced out := by
  constructor
  · obtain ⟨out, hout, hrest⟩ : ∃ out,
        blFileIteratePath (heapFs lookupAll) rootWorld twoDirectories 0x100030 = some out ∧
          (out.nodes, out.log) = (2, [.read 0, .obtained 1, .read 1, .obtained 2, .read 2, .read 2,
            .read 1, .closed 1, .freed 1, .read 1, .read 0, .closed 0, .freed 0, .read 0,
            .freed 2]) := by
      rw [← Option.map_eq_some_iff]
      decide +kernel
    rw [Prod.mk.injEq] at hrest
    refine ⟨out, hout, fun hbalanced => ?_⟩
    have hsafe := hbalanced.readSafe 1 (by decide) (by rw [hrest.1]; decide)
    rw [hrest.2] at hsafe
    exact absurd hsafe (by decide)
  · obtain ⟨out, hout, hrest⟩ : ∃ out,
        blFileIteratePath (heapFs lookupFirst) rootWorld twoDirectories 0x100030 = some out ∧
          (out.status, out.nodes, out.log) = (.fileNotFound, 1, [.read 0, .obtained 1, .read 1,
            .read 1, .read 0, .closed 0, .freed 0, .read 0, .freed 1]) := by
      rw [← Option.map_eq_some_iff]
      decide +kernel
    rw [Prod.mk.injEq, Prod.mk.injEq] at hrest
    refine ⟨out, hout, fun hbalanced => ?_⟩
    have hfailed : out.status ≠ .success := by
      rw [hrest.1]
      decide
    have hnodes : 1 ≤ out.nodes := by rw [hrest.2.1]
    have hclosed := hbalanced.closed 1 (by decide) hnodes fun hreturned => hfailed hreturned.1
    rw [hrest.2.2] at hclosed
    exact absurd hclosed (by decide)

end BootLoader.File
