import BootLoader.Elf.Load
import BootLoader.Lib.Runs

/-!
# The list of loaded modules

Loading again and again, with objects of any kind in between.
-/

open ByteMemory

namespace BootLoader.Elf

open Driver Utils

variable {env : LoadEnv} {obj : Elf32Object} {size : BitVec 32} {s s' : Machine}
  {tables tables' : Tables} {status : BlStatus} {mod mod' : BlModule} {m m' : Mem}

/-! ## How the parts end -/

theorem blElfResolveSymbol_status (exports : Exports) (symbol : Elf32Sym) (name : List Byte)
    (mod : BlModule) :
    (blElfResolveSymbol exports symbol name mod).2.2 ≠ .moduleAlreadyLoaded := by
  unfold blElfResolveSymbol
  dsimp only
  cases exports.blSymbolsFind name <;> split_ifs <;> simp

theorem resolveSymbols_status (exports : Exports) (strings : Elf32Word → List Byte) (n j : Nat)
    (symbols : Nat → Elf32Sym) (mod : BlModule) :
    (resolveSymbols exports strings n j symbols mod).2.2 ≠ .moduleAlreadyLoaded := by
  induction n generalizing j symbols mod with
  | zero => simp [resolveSymbols]
  | succ n ih =>
    have hsymbol :=
      blElfResolveSymbol_status exports (symbols j) (strings (symbols j).stName) mod
    rw [resolveSymbols]
    dsimp only
    split_ifs
    · exact hsymbol
    · exact ih _ _ _

theorem loadSymbolsFrom_status {exports : Exports} {sections rest : List Elf32Shdr}
    (h : loadSymbolsFrom exports sections rest tables mod = some (tables', mod', status)) :
    status ≠ .moduleAlreadyLoaded := by
  induction rest generalizing tables mod with
  | nil =>
    obtain ⟨-, -, rfl⟩ := by simpa [loadSymbolsFrom] using h
    simp
  | cons sh rest ih =>
    rw [loadSymbolsFrom] at h
    by_cases htype : sh.shType = shtSymtab
    · rw [if_neg (not_not.mpr htype)] at h
      cases hstrtab : sections[sh.shLink.toNat]? with
      | none => simp [hstrtab] at h
      | some strtab =>
        simp only [hstrtab] at h
        have hstatus := resolveSymbols_status exports (tables.strings strtab.shOffset) sh.entries 0
          (tables.symbols sh.shOffset) mod
        split_ifs at h
        · have hlast := congrArg (·.2.2) (Option.some.inj h)
          exact fun heq => hstatus (hlast.trans heq)
        · exact ih h
    · rw [if_pos htype] at h
      exact ih h

theorem relocateSymbolsFrom_status {sections rest : List Elf32Shdr}
    (h : relocateSymbolsFrom sections tables mod rest m = some (m', status)) :
    status = .success := by
  induction rest generalizing m with
  | nil => exact (Prod.mk.inj (Option.some.inj h)).2.symm
  | cons sh rest ih =>
    rw [relocateSymbolsFrom] at h
    by_cases htype : sh.shType = shtRel
    · rw [if_neg (not_not.mpr htype)] at h
      cases hlink : sections[sh.shLink.toNat]? with
      | none => simp [hlink] at h
      | some symSection =>
        simp only [hlink, blElfRelocateSection] at h
        by_cases hentsize : sh.shEntsize = 0
        · simp [hentsize] at h
        · simp only [hentsize, if_false, ne_eq, not_true_eq_false] at h
          exact ih h
    · rw [if_pos htype] at h
      exact ih h

theorem loadImage_status {world world' : World}
    (h : loadImage env obj mod world m = (world', m', mod', status)) :
    status = .success ∨ status = .memoryAllocationFailed := by
  unfold loadImage at h
  generalize world.alloc env.heap = r at h
  obtain ⟨world₁, _ | segments⟩ := r
  · exact .inr (by simpa using (congrArg (·.2.2.2) h).symm)
  · dsimp only at h
    generalize world₁.alloc env.heap = r at h
    obtain ⟨world₂, _ | image⟩ := r
    · exact .inr (by simpa using (congrArg (·.2.2.2) h).symm)
    · exact .inl (by simpa using (congrArg (·.2.2.2) h).symm)

/-! ## One load -/

/-- What a load that succeeds does: the module is put before the others, under the name of the
object, and its initializer is called once, in the memory that relocating ended with. -/
structure Added (obj : Elf32Object) (s s' : Machine) (tables : Tables) (new : LoadedModule) :
    Prop where
  blMods : s'.blMods = new :: s.blMods
  ran : ∃ m₀ m, relocateSymbolsFrom obj.table tables new.mod obj.sections m₀ = some (m, .success) ∧
    s'.ran = s.ran ++ [⟨new.mod.init, m⟩]

/-- What a load that does not leaves of the list and of the calls. -/
structure Kept (s s' : Machine) : Prop where
  blMods : s'.blMods = s.blMods
  ran : s'.ran = s.ran

theorem loadInto_spec {name block : Nat}
    (h : loadInto env obj name block s = some (s', tables, status)) :
    (∃ new, status = .success ∧ Added obj s s' tables new ∧
      SameString blModuleMaxNameLen (pointee s.mem name) new.name) ∨
    status ≠ .success ∧ status ≠ .moduleAlreadyLoaded ∧ Kept s s' := by
  unfold loadInto at h
  generalize himage : loadImage env obj ⟨0, [], 0, 0⟩ s.world s.mem = r at h
  obtain ⟨world, m, mod, imageStatus⟩ := r
  dsimp only at h
  by_cases hok : imageStatus = .success
  · rw [if_neg (not_not.mpr hok)] at h
    generalize hsymbols :
      loadSymbolsFrom env.exports obj.spacedTable obj.sections obj.tables mod = r at h
    obtain _ | ⟨tables₁, mod₁, symbolsStatus⟩ := r
    · cases h
    · dsimp only at h
      by_cases hstatus : symbolsStatus = .success
      · rw [if_neg (not_not.mpr hstatus)] at h
        generalize hrelocate : relocateSymbolsFrom obj.table tables₁ mod₁ obj.sections m = r at h
        obtain _ | ⟨m₁, relocateStatus⟩ := r
        · cases h
        · obtain rfl := relocateSymbolsFrom_status hrelocate
          simp only [ne_eq, not_true_eq_false, if_false] at h
          split_ifs at h with hinit
          · obtain ⟨rfl, rfl, rfl⟩ := by simpa using h
            exact .inr ⟨by simp, by simp, rfl, rfl⟩
          · obtain ⟨rfl, rfl, rfl⟩ := by simpa using h
            exact .inl ⟨_, rfl, ⟨rfl, m, m₁, hrelocate, rfl⟩, blStrncpy_same _ _ _⟩
      · rw [if_pos hstatus] at h
        obtain ⟨rfl, rfl, rfl⟩ := by simpa using h
        exact .inr ⟨hstatus, loadSymbolsFrom_status hsymbols, rfl, rfl⟩
  · rw [if_pos hok] at h
    obtain ⟨rfl, rfl, rfl⟩ := by simpa using h
    refine .inr ⟨hok, ?_, rfl, rfl⟩
    rw [(loadImage_status himage).resolve_left hok]
    simp

/-- The list has a module whose name is the string at this address. -/
def InList (s : Machine) (name : Nat) : Prop :=
  ∃ mod ∈ s.blMods, blStrncmp mod.name (pointee s.mem name) blModuleMaxNameLen = 0

theorem blLoaderGetModule_isSome_iff (s : Machine) (name : Nat) :
    (blLoaderGetModule s.blMods (pointee s.mem name)).isSome = true ↔ InList s name := by
  rw [blLoaderGetModule, List.find?_isSome]
  simp [InList]

/-- The address of the object's name, if it has one and the object is accepted. -/
def NameOf (obj : Elf32Object) (size : BitVec 32) (name : Nat) : Prop :=
  blElfCheck obj.header size = .success ∧
    blElfSectionByName obj (cString ".bl_mod_name") = some name ∧ name ≠ 0

/-- How a load ends. -/
inductive Outcome (obj : Elf32Object) (size : BitVec 32) (s s' : Machine) (tables : Tables)
    (status : BlStatus) : Prop
  | refused (hname : ∀ name, ¬NameOf obj size name) (hfail : status ≠ .success)
      (hkept : Kept s s')
  | alreadyLoaded (name : Nat) (hname : NameOf obj size name) (hloaded : InList s name)
      (hstatus : status = .moduleAlreadyLoaded) (hkept : Kept s s')
  | failed (name : Nat) (hname : NameOf obj size name) (hloaded : ¬InList s name)
      (hfail : status ≠ .success) (hstatus : status ≠ .moduleAlreadyLoaded) (hkept : Kept s s')
  | added (name : Nat) (new : LoadedModule) (hname : NameOf obj size name)
      (hloaded : ¬InList s name) (hstatus : status = .success) (hadded : Added obj s s' tables new)
      (hsame : SameString blModuleMaxNameLen (pointee s.mem name) new.name)

theorem blElfLoad_outcome (h : blElfLoad env obj size s = some (s', tables, status)) :
    Outcome obj size s s' tables status := by
  unfold blElfLoad at h
  dsimp only at h
  by_cases hcheck : blElfCheck obj.header size = .success
  · rw [if_neg (not_not.mpr hcheck)] at h
    generalize hname : blElfSectionByName obj (cString ".bl_mod_name") = r at h
    obtain _ | name := r
    · cases h
    · dsimp only at h
      by_cases hzero : name = 0
      · rw [if_pos hzero] at h
        obtain ⟨rfl, rfl, rfl⟩ := by simpa using h
        refine .refused ?_ (by simp) ⟨rfl, rfl⟩
        rintro name' ⟨-, hname', hne⟩
        rw [hname, Option.some.injEq] at hname'
        exact hne (hname' ▸ hzero)
      · rw [if_neg hzero] at h
        by_cases hloaded : InList s name
        · rw [if_pos ((blLoaderGetModule_isSome_iff s name).mpr hloaded)] at h
          obtain ⟨rfl, rfl, rfl⟩ := by simpa using h
          exact .alreadyLoaded name ⟨hcheck, hname, hzero⟩ hloaded rfl ⟨rfl, rfl⟩
        · rw [if_neg (mt (blLoaderGetModule_isSome_iff s name).mp hloaded)] at h
          generalize s.world.alloc env.heap = r at h
          obtain ⟨world, _ | block⟩ := r
          · obtain ⟨rfl, rfl, rfl⟩ := by simpa using h
            exact .failed name ⟨hcheck, hname, hzero⟩ hloaded (by simp) (by simp) ⟨rfl, rfl⟩
          · rcases loadInto_spec h with ⟨new, hok, ⟨hmods, hran⟩, hsame⟩ | ⟨hfail, hstatus, hkept⟩
            · exact .added name new ⟨hcheck, hname, hzero⟩ hloaded hok ⟨hmods, hran⟩ hsame
            · exact .failed name ⟨hcheck, hname, hzero⟩ hloaded hfail hstatus
                ⟨hkept.blMods, hkept.ran⟩
  · rw [if_pos hcheck] at h
    obtain ⟨rfl, rfl, rfl⟩ := by simpa using h
    exact .refused (fun name hname => hcheck hname.1) hcheck ⟨rfl, rfl⟩

/-! ## Runs of loads -/

/-- A call of `bl_elf_load` that came back. -/
structure Call where
  obj : Elf32Object
  size : BitVec 32
  before : Machine
  after : Machine
  tables : Tables
  status : BlStatus

def Call.new (c : Call) : Option LoadedModule :=
  if c.status = .success then c.after.blMods.head? else none

def load (env : LoadEnv) (input : Elf32Object × BitVec 32) (st : Machine × List Call) :
    Option (Machine × List Call) :=
  (blElfLoad env input.1 input.2 st.1).map fun out =>
    (out.1, st.2 ++ [⟨input.1, input.2, st.1, out.1, out.2.1, out.2.2⟩])

/-- What every call in a run does. -/
structure CallRight (c : Call) : Prop where
  /-- A name that is taken is refused, and nothing else is refused so. -/
  alreadyLoaded : ∀ name, NameOf c.obj c.size name →
    (c.status = .moduleAlreadyLoaded ↔ InList c.before name)
  silent : c.status ≠ .success → c.after.ran = c.before.ran
  /-- The module has the name of the object, and its initializer ran once, behind relocating. -/
  once : c.status = .success → ∃ name new m₀ m, NameOf c.obj c.size name ∧ c.new = some new ∧
    SameString blModuleMaxNameLen (pointee c.before.mem name) new.name ∧
    relocateSymbolsFrom c.obj.table c.tables new.mod c.obj.sections m₀ = some (m, .success) ∧
    c.after.ran = c.before.ran ++ [⟨new.mod.init, m⟩]

/-- The list after the calls. -/
structure Registry (st : Machine × List Call) : Prop where
  blMods : st.1.blMods = (st.2.filterMap Call.new).reverse
  names : st.1.blMods.Pairwise fun a b => blStrncmp a.name b.name blModuleMaxNameLen ≠ 0
  calls : ∀ c ∈ st.2, CallRight c

theorem Outcome.callRight {c : Call}
    (h : Outcome c.obj c.size c.before c.after c.tables c.status) : CallRight c := by
  have hone : ∀ {name name'}, NameOf c.obj c.size name → NameOf c.obj c.size name' →
      name' = name := by
    rintro name name' ⟨-, hname, -⟩ ⟨-, hname', -⟩
    rw [hname, Option.some.injEq] at hname'
    exact hname'.symm
  cases h with
  | refused hname hfail hkept =>
    exact ⟨fun name hn => absurd hn (hname name), fun _ => hkept.ran, fun hok => absurd hok hfail⟩
  | alreadyLoaded name hname hloaded hstatus hkept =>
    refine ⟨fun name' hname' => ?_, fun _ => hkept.ran, fun hok => ?_⟩
    · rw [hone hname hname']
      exact iff_of_true hstatus hloaded
    · rw [hstatus] at hok
      contradiction
  | failed name hname hloaded hfail hstatus hkept =>
    refine ⟨fun name' hname' => ?_, fun _ => hkept.ran, fun hok => absurd hok hfail⟩
    rw [hone hname hname']
    exact iff_of_false hstatus hloaded
  | added name new hname hloaded hstatus hadded hsame =>
    obtain ⟨m₀, m, hrelocate, hran⟩ := hadded.ran
    refine ⟨fun name' hname' => ?_, fun hfail => absurd hstatus hfail, fun _ =>
      ⟨name, new, m₀, m, hname, ?_, hsame, hrelocate, hran⟩⟩
    · rw [hone hname hname', hstatus]
      exact iff_of_false (by simp) hloaded
    · rw [Call.new, if_pos hstatus, hadded.blMods]
      rfl

theorem Added.names {new : LoadedModule} {name : Nat} (hadded : Added obj s s' tables new)
    (hloaded : ¬InList s name)
    (hsame : SameString blModuleMaxNameLen (pointee s.mem name) new.name)
    (hnames : s.blMods.Pairwise fun a b => blStrncmp a.name b.name blModuleMaxNameLen ≠ 0) :
    s'.blMods.Pairwise fun a b => blStrncmp a.name b.name blModuleMaxNameLen ≠ 0 := by
  rw [hadded.blMods]
  refine List.pairwise_cons.mpr ⟨fun b hb heq => hloaded ⟨b, hb, ?_⟩, hnames⟩
  rw [blStrncmp_eq_zero_iff] at heq ⊢
  exact (hsame.trans heq).symm

theorem load_keeps (env : LoadEnv) (input : Elf32Object × BitVec 32)
    (st st' : Machine × List Call) (h : Registry st) (hload : load env input st = some st') :
    Registry st' := by
  obtain ⟨⟨s', tables, status⟩, hout, rfl⟩ := Option.map_eq_some_iff.mp hload
  have houtcome := blElfLoad_outcome hout
  have hcalls : ∀ c ∈ st.2 ++ [⟨input.1, input.2, st.1, s', tables, status⟩], CallRight c := by
    intro c hc
    rcases List.mem_append.mp hc with hc | hc
    · exact h.calls c hc
    · obtain rfl := List.mem_singleton.mp hc
      exact Outcome.callRight houtcome
  have hkeep : status ≠ .success → Kept st.1 s' →
      Registry (s', st.2 ++ [⟨input.1, input.2, st.1, s', tables, status⟩]) := by
    intro hfail hkept
    have hnone : Call.new ⟨input.1, input.2, st.1, s', tables, status⟩ = none := if_neg hfail
    refine ⟨?_, hkept.blMods ▸ h.names, hcalls⟩
    rw [List.filterMap_append]
    simp [hnone, hkept.blMods, h.blMods]
  cases houtcome with
  | refused _ hfail hkept => exact hkeep hfail hkept
  | alreadyLoaded _ _ _ hstatus hkept => exact hkeep (by rw [hstatus]; simp) hkept
  | failed _ _ _ hfail _ hkept => exact hkeep hfail hkept
  | added name new hname hloaded hstatus hadded hsame =>
    have hnew : Call.new ⟨input.1, input.2, st.1, s', tables, status⟩ = some new := by
      rw [Call.new, if_pos hstatus, hadded.blMods]
      rfl
    refine ⟨?_, hadded.names hloaded hsame h.names, hcalls⟩
    rw [List.filterMap_append]
    simp [hnew, hadded.blMods, h.blMods]

/-- An object with a name, and with a symbol for its initializer. -/
def greeter : Elf32Object where
  elf := 0x10000
  header := ⟨elfIdent, 1, 3, 1, 52, 40, 2, 0⟩
  table := [⟨1, 0, 132, 0, 0, 0, 1, 0⟩, ⟨2, 0, 200, 16, 0, 0, 4, 16⟩]
  spacedTable := [⟨1, 0, 132, 0, 0, 0, 1, 0⟩, ⟨2, 0, 200, 16, 0, 0, 4, 16⟩]
  shName i := if i = 0 then 1 else 0
  tables := {
    symbols := fun _ _ => ⟨14, 0x2000, 2, 1⟩
    rels := fun _ _ => ⟨0, 0⟩
    strings := fun _ i =>
      if i = 1 then cString ".bl_mod_name" else if i = 14 then cString "bl_module_initialize"
      else [] }
  complete := by decide

def idle : LoadEnv := ⟨⟨fun _ => true, fun _ => .success, fun _ => 0⟩, fun b => 0x100000 + 256 * b,
  ⟨fun _ => none, 0⟩, fun _ w => w⟩

def noModules : Machine := ⟨⟨0, fun _ _ => 0, fun _ => false, 0, 0, []⟩, fun _ => 0, [], []⟩

end BootLoader.Elf
