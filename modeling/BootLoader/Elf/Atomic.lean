import BootLoader.Elf.Registry

/-!
# What a load that fails leaves behind

Up to the image everything is undone. Behind it, only the block of the module is freed.
-/

open ByteMemory

namespace BootLoader.Elf

open Driver Heap Utils

variable {env : LoadEnv} {obj : Elf32Object} {size : BitVec 32} {s s' : Machine}
  {tables : Tables} {status : BlStatus} {world : World} {mod : BlModule} {m : Mem}

/-- The list, the blocks in use and the object are as they were. -/
structure Unchanged (obj : Elf32Object) (s s' : Machine) (tables : Tables) : Prop where
  blMods : s'.blMods = s.blMods
  used : s'.world.used = s.world.used
  mem : s'.mem = s.mem
  tables : tables = obj.tables

/-- What is in use was handed out before. -/
def Fresh (world : World) : Prop := ∀ b, world.next ≤ b → world.used b = false

/-! ## Blocks -/

theorem alloc_cases (heap : Env) (world : World) :
    (heap.allocs world.allocs = false ∧
        world.alloc heap = ({ world with allocs := world.allocs + 1 }, none)) ∨
      heap.allocs world.allocs = true ∧ ∃ world', world.alloc heap = (world', some world.next) ∧
        world'.next = world.next + 1 ∧ world'.allocs = world.allocs + 1 ∧
        world'.used = fun b => if b = world.next then true else world.used b := by
  unfold World.alloc
  cases h : heap.allocs world.allocs with
  | false => exact .inl ⟨rfl, rfl⟩
  | true => exact .inr ⟨rfl, _, rfl, rfl, rfl, rfl⟩

theorem Fresh.free_alloc {world' : World} (h : Fresh world)
    (hused : world'.used = fun b => if b = world.next then true else world.used b) :
    (world'.free world.next).used = world.used := by
  funext b
  simp only [World.free, hused]
  split_ifs with hb
  · rw [hb, h _ le_rfl]
  · rfl

/-! ## The image -/

/-- The module behind its image, which is in the block number `image`. -/
def imageModule (env : LoadEnv) (obj : Elf32Object) (image : Nat) (m : Mem) : BlModule :=
  ⟨(imageInfo obj.sections).count,
    (placeSections obj.elf obj.sections 0 (env.address image) m).2, 0, 0⟩

def imageMem (env : LoadEnv) (obj : Elf32Object) (image : Nat) (m : Mem) : Mem :=
  (placeSections obj.elf obj.sections 0 (env.address image) m).1

theorem loadImage_cases (env : LoadEnv) (obj : Elf32Object) (m : Mem) (hfresh : Fresh world) :
    (env.heap.allocs world.allocs = true ∧ env.heap.allocs (world.allocs + 1) = true ∧
        ∃ world', loadImage env obj ⟨0, [], 0, 0⟩ world m =
            (world', imageMem env obj (world.next + 1) m,
              imageModule env obj (world.next + 1) m, .success) ∧
          world'.used world.next = true) ∨
      ¬(env.heap.allocs world.allocs = true ∧ env.heap.allocs (world.allocs + 1) = true) ∧
        ∃ world' mod, loadImage env obj ⟨0, [], 0, 0⟩ world m =
            (world', m, mod, .memoryAllocationFailed) ∧ world'.used = world.used := by
  unfold loadImage
  rcases alloc_cases env.heap world with ⟨hno, hw⟩ | ⟨hyes, w₁, hw, hnext, hallocs, hused⟩
  · rw [hw]
    exact .inr ⟨fun h => by simp [hno] at h, _, _, rfl, rfl⟩
  · rw [hw]
    dsimp only
    rcases alloc_cases env.heap w₁ with ⟨hno, hw₁⟩ | ⟨hyes', w₂, hw₁, -, -, hused'⟩
    · rw [hw₁]
      refine .inr ⟨fun h => ?_, _, _, rfl, hfresh.free_alloc hused⟩
      rw [hallocs, h.2] at hno
      contradiction
    · rw [hw₁, hnext]
      rw [hallocs] at hyes'
      refine .inl ⟨hyes, hyes', w₂, rfl, ?_⟩
      rw [hused', hused]
      simp

/-- The heap of `heap.c` gives one such list of answers: the image comes out the same. -/
theorem blElfLoadImage_loadImage {heap heap' : BlHeap}
    (h : blElfLoadImage obj.elf obj.sections ⟨0, [], 0, 0⟩ heap = some (heap', mod, status))
    (env : LoadEnv) (world : World) :
    ∃ allocs address m world' m', loadImage { env with
        heap := { env.heap with allocs }, address } obj ⟨0, [], 0, 0⟩ world m =
          (world', m', mod, status) ∧ (status = .success → m' = heap'.mem) := by
  unfold blElfLoadImage at h
  dsimp only at h
  cases hsegments : blHeapAlloc heap (segmentsSize obj.sections) with
  | none => simp [hsegments] at h
  | some r =>
    obtain ⟨heap₁, segments⟩ := r
    simp only [hsegments] at h
    by_cases hnull : segments = 0
    · rw [if_pos hnull] at h
      obtain ⟨rfl, rfl, rfl⟩ := by simpa using h
      exact ⟨fun _ => false, env.address, heap.mem, _, _, rfl, fun h => by cases h⟩
    · rw [if_neg hnull] at h
      cases himage : blHeapAllocAlign heap₁ (imageInfo obj.sections).imageSize
          (imageInfo obj.sections).alignment with
      | none => simp [himage] at h
      | some r =>
        obtain ⟨heap₂, imagePtr⟩ := r
        simp only [himage] at h
        by_cases hnull' : imagePtr = 0
        · rw [if_pos hnull'] at h
          obtain ⟨rfl, rfl, rfl⟩ := by simpa using h
          refine ⟨fun n => n = world.allocs, env.address, heap.mem, ?_⟩
          simp [loadImage, World.alloc]
        · rw [if_neg hnull'] at h
          obtain ⟨rfl, rfl, rfl⟩ := by simpa using h
          refine ⟨fun _ => true, fun _ => imagePtr, heap₂.mem, ?_⟩
          simp [loadImage, World.alloc]

/-! ## The whole load -/

/-- The load comes to the symbols: the object is accepted, its name is new, and the heap serves the
module, the segments and the image. -/
structure ReachesSymbols (env : LoadEnv) (obj : Elf32Object) (size : BitVec 32) (s : Machine) :
    Prop where
  name : ∃ name, NameOf obj size name ∧ ¬InList s name
  mod : env.heap.allocs s.world.allocs = true
  segments : env.heap.allocs (s.world.allocs + 1) = true
  image : env.heap.allocs (s.world.allocs + 2) = true

/-- No symbol is refused, and one of them is the initializer, of a module whose image is in the
block number `image`. -/
def Completes (env : LoadEnv) (obj : Elf32Object) (image : Nat) (m : Mem) : Prop :=
  ∀ tables mod status, loadSymbolsFrom env.exports obj.spacedTable obj.sections obj.tables
      (imageModule env obj image m) = some (tables, mod, status) →
    status = .success ∧ ∀ m' status', relocateSymbolsFrom obj.table tables mod obj.sections
      (imageMem env obj image m) = some (m', status') → mod.init ≠ 0

/-- Behind the image a failure leaves its two blocks. -/
theorem segments_left (hfresh : Fresh s.world) (hworld : world.used (s.world.next + 1) = true)
    (h : Unchanged obj s ⟨world.free s.world.next, m, s.blMods, s.ran⟩ tables) : False := by
  have hsame := congrFun h.used (s.world.next + 1)
  rw [hfresh _ (Nat.le_succ _)] at hsame
  simp [World.free, hworld] at hsame

theorem loadInto_unchanged_iff (name : Nat) (hfresh : Fresh s.world) {world' : World}
    (hnext : world'.next = s.world.next + 1) (hallocs : world'.allocs = s.world.allocs + 1)
    (hused : world'.used = fun b => if b = s.world.next then true else s.world.used b) :
    (∀ s' tables status, loadInto env obj name s.world.next { s with world := world' } =
        some (s', tables, status) → status ≠ .success → Unchanged obj s s' tables) ↔
      (env.heap.allocs (s.world.allocs + 1) = true → env.heap.allocs (s.world.allocs + 2) = true →
        Completes env obj (s.world.next + 2) s.mem) := by
  have hfresh' : Fresh world' := by
    intro b hb
    rw [hused]
    dsimp only
    rw [if_neg (by omega)]
    exact hfresh b (by omega)
  unfold loadInto
  dsimp only
  rcases loadImage_cases env obj s.mem hfresh' with
    ⟨hyes, hyes', w, himage, hw⟩ | ⟨hno, w, mod, himage, hw⟩
  · rw [hallocs] at hyes hyes'
    rw [hnext] at himage hw
    rw [himage]
    simp only [hyes, hyes', ne_eq, not_true_eq_false, if_false, forall_const]
    unfold Completes
    cases hsymbols : loadSymbolsFrom env.exports obj.spacedTable obj.sections obj.tables
        (imageModule env obj (s.world.next + 2) s.mem) with
    | none => simp
    | some r =>
      obtain ⟨tables₁, mod₁, status₁⟩ := r
      dsimp only
      by_cases hstatus : status₁ = .success
      · rw [if_neg (not_not.mpr hstatus)]
        cases hrelocate : relocateSymbolsFrom obj.table tables₁ mod₁ obj.sections
            (imageMem env obj (s.world.next + 2) s.mem) with
        | none =>
          refine iff_of_true (fun _ _ _ h => by cases h) fun _ _ _ h => ?_
          obtain ⟨rfl, rfl, rfl⟩ := by simpa using h
          exact ⟨hstatus, fun _ _ h => by simp [hrelocate] at h⟩
        | some r =>
          obtain ⟨m₁, status₂⟩ := r
          obtain rfl := relocateSymbolsFrom_status hrelocate
          dsimp only
          rw [if_neg (not_not.mpr rfl)]
          by_cases hinit : mod₁.init = 0
          · rw [if_pos hinit]
            refine iff_of_false (fun h => ?_) (fun h => (h _ _ _ rfl).2 _ _ hrelocate hinit)
            exact segments_left hfresh hw (h _ _ _ rfl (by simp))
          · rw [if_neg hinit]
            refine iff_of_true (fun _ _ _ h hfail => ?_) fun _ _ _ h => ?_
            · obtain ⟨-, -, rfl⟩ := by simpa using h
              exact absurd rfl hfail
            · obtain ⟨rfl, rfl, rfl⟩ := by simpa using h
              exact ⟨hstatus, fun _ _ _ => hinit⟩
      · rw [if_pos hstatus]
        refine iff_of_false (fun h => ?_) (fun h => hstatus (h _ _ _ rfl).1)
        exact segments_left hfresh hw (h _ _ _ rfl hstatus)
  · rw [hallocs] at hno
    rw [himage]
    refine iff_of_true (fun s' tables status h _ => ?_) fun hyes hyes' => absurd ⟨hyes, hyes'⟩ hno
    rw [if_pos (by simp)] at h
    obtain ⟨rfl, rfl, rfl⟩ := by simpa using h
    exact ⟨rfl, hfresh.free_alloc (hw.trans hused), rfl, rfl⟩

/-- **When a load that fails changes nothing**: it does not come to the symbols, or they resolve and
give an initializer. -/
theorem blElfLoad_atomic_iff (env : LoadEnv) (obj : Elf32Object) (size : BitVec 32)
    (hfresh : Fresh s.world) :
    (∀ s' tables status, blElfLoad env obj size s = some (s', tables, status) →
        status ≠ .success → Unchanged obj s s' tables) ↔
      (ReachesSymbols env obj size s → Completes env obj (s.world.next + 2) s.mem) := by
  have hsame : Unchanged obj s s obj.tables := ⟨rfl, rfl, rfl, rfl⟩
  unfold blElfLoad
  dsimp only
  by_cases hcheck : blElfCheck obj.header size = .success
  · rw [if_neg (not_not.mpr hcheck)]
    cases hname : blElfSectionByName obj (cString ".bl_mod_name") with
    | none =>
      refine iff_of_true (fun _ _ _ h => by cases h) fun h => ?_
      obtain ⟨name, ⟨-, hname', -⟩, -⟩ := h.name
      rw [hname] at hname'
      cases hname'
    | some name =>
      dsimp only
      have hone : ReachesSymbols env obj size s → name ≠ 0 ∧ ¬InList s name := by
        intro h
        obtain ⟨name', ⟨-, hname', hne⟩, hnew⟩ := h.name
        rw [hname, Option.some.injEq] at hname'
        exact hname' ▸ ⟨hne, hnew⟩
      by_cases hzero : name = 0
      · rw [if_pos hzero]
        refine iff_of_true (fun _ _ _ h _ => ?_) fun h => absurd hzero (hone h).1
        obtain ⟨rfl, rfl, -⟩ := by simpa using h
        exact hsame
      · rw [if_neg hzero]
        by_cases hin : InList s name
        · rw [if_pos ((blLoaderGetModule_isSome_iff s name).mpr hin)]
          refine iff_of_true (fun _ _ _ h _ => ?_) fun h => absurd hin (hone h).2
          obtain ⟨rfl, rfl, -⟩ := by simpa using h
          exact hsame
        · rw [if_neg (mt (blLoaderGetModule_isSome_iff s name).mp hin)]
          rcases alloc_cases env.heap s.world with ⟨hno, hw⟩ | ⟨hyes, w, hw, hnext, hallocs, hused⟩
          · rw [hw]
            refine iff_of_true (fun _ _ _ h _ => ?_) fun h => ?_
            · obtain ⟨rfl, rfl, -⟩ := by simpa using h
              exact ⟨rfl, rfl, rfl, rfl⟩
            · rw [h.mod] at hno
              contradiction
          · rw [hw]
            dsimp only
            rw [loadInto_unchanged_iff name hfresh hnext hallocs hused]
            refine ⟨fun h hreach => h hreach.segments hreach.image, fun h hsegments himage => ?_⟩
            exact h ⟨⟨name, ⟨hcheck, hname, hzero⟩, hin⟩, hyes, hsegments, himage⟩
  · rw [if_pos hcheck]
    refine iff_of_true (fun _ _ _ h _ => ?_) fun h => ?_
    · obtain ⟨rfl, rfl, -⟩ := by simpa using h
      exact hsame
    · obtain ⟨name, hname, -⟩ := h.name
      exact absurd hname.1 hcheck

theorem noModules_fresh : Fresh noModules.world := fun _ _ => rfl

theorem greeter_atomic :
    (∀ s' tables status, blElfLoad idle greeter 132 noModules = some (s', tables, status) →
        status ≠ .success → Unchanged greeter noModules s' tables) ↔
      (ReachesSymbols idle greeter 132 noModules → Completes idle greeter 2 noModules.mem) :=
  blElfLoad_atomic_iff idle greeter 132 noModules_fresh

def nameOnly : Elf32Object :=
  { greeter with
      header := ⟨elfIdent, 1, 3, 1, 52, 40, 1, 0⟩
      complete := by decide }

theorem nameOnly_not_atomic : ¬ ∀ env obj size s s' tables status, Fresh s.world →
    blElfLoad env obj size s = some (s', tables, status) → status ≠ .success →
    Unchanged obj s s' tables := by
  intro h
  have hout : (blElfLoad idle nameOnly 92 noModules).map
      (fun out => (out.1.world.used 1, out.2.2)) = some (true, .invalidElf) := by decide +kernel
  obtain ⟨⟨s', tables, status⟩, hload, hleft⟩ := Option.map_eq_some_iff.mp hout
  obtain ⟨hused, rfl⟩ := Prod.mk.inj hleft
  have hsame := h idle nameOnly 92 noModules s' tables _ noModules_fresh hload (by simp)
  rw [hsame.used] at hused
  contradiction

end BootLoader.Elf
