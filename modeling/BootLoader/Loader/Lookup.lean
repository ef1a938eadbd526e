import BootLoader.Lib.Successors
import BootLoader.Loader.Symbols
import BootLoader.Utils.Compare
import Mathlib.Data.Nat.Bitwise
import Mathlib.Tactic.Ring

/-!
# Looking up an exported symbol

Against a hash section as the linker writes it: every symbol is on the chain of its hash.
-/

open ByteMemory Successors

namespace BootLoader.Loader

variable {t : ExportTables} {name : List Byte} {names : Nat → List Byte}
  {chains : Nat → List Nat}

/-! ## The hash of the ABI -/

/-- One byte of the hash: the highest four bits come back in at the second lowest. -/
def abiHashByte (h : Nat) (c : Byte) : Nat :=
  let sum := (16 * h + c.toNat) % 2 ^ 32
  sum % 2 ^ 28 ^^^ 16 * (sum / 2 ^ 28)

def abiHash (name : List Byte) : Nat := name.foldl abiHashByte 0

theorem and_high_nibble (x : BitVec 32) : x &&& 0xf0000000#32 = (x >>> 28) <<< 28 := by
  apply BitVec.eq_of_getLsbD_eq
  intro i hi
  have hmask : BitVec.getLsbD 0xf0000000#32 i = decide (28 ≤ i) := by
    have hbits : BitVec.getLsbD 0xf0000000#32 i = Nat.testBit ((2 ^ 4 - 1) <<< 28) i := rfl
    rw [hbits, Nat.testBit_shiftLeft, Nat.testBit_two_pow_sub_one]
    simp
    omega
  rw [BitVec.getLsbD_and, hmask, BitVec.getLsbD_shiftLeft, BitVec.getLsbD_ushiftRight]
  by_cases h28 : 28 ≤ i
  · simp [h28, hi, Nat.not_lt.mpr h28]
  · simp [h28]

theorem folded_toNat (x : BitVec 32) :
    ((x ^^^ ((x &&& 0xf0000000#32) >>> 24)) &&& ~~~(x &&& 0xf0000000#32)).toNat =
      x.toNat % 2 ^ 28 ^^^ 16 * (x.toNat / 2 ^ 28) := by
  rw [and_high_nibble]
  apply Nat.eq_of_testBit_eq
  intro i
  have hbit (j : Nat) : x.toNat.testBit j = x.getLsbD j := rfl
  have hout (j : Nat) (hj : 32 ≤ j) : x.getLsbD j = false := BitVec.getLsbD_of_ge _ _ hj
  rw [Nat.testBit_xor, Nat.testBit_mod_two_pow, show 16 = 2 ^ 4 by rfl, Nat.testBit_two_pow_mul,
    Nat.testBit_div_two_pow, hbit, hbit, BitVec.testBit_toNat]
  simp only [BitVec.getLsbD_and, BitVec.getLsbD_xor, BitVec.getLsbD_not,
    BitVec.getLsbD_ushiftRight, BitVec.getLsbD_shiftLeft]
  by_cases h28 : i < 28
  · by_cases h4 : i < 4
    · simp [h28, show 24 + i < 28 by omega, show i < 32 by omega, Nat.not_le.mpr h4]
    · have hsub : 28 + (24 + i - 28) = i - 4 + 28 := by omega
      by_cases h8 : 24 + i < 32
      · simp [h28, h8, hsub, show ¬ 24 + i < 28 by omega, show i < 32 by omega,
          Nat.not_lt.mp h4]
      · simp [h28, h8, hout (i - 4 + 28) (by omega), show i < 32 by omega]
  · have hsub : 28 + (i - 28) = i := by omega
    rw [hout (i - 4 + 28) (by omega)]
    by_cases h32 : i < 32
    · cases hx : x.getLsbD i <;> simp [h28, h32, hsub, hx, show ¬ 24 + i < 32 by omega]
    · simp [h32, x.getLsbD_of_ge i (by omega)]

theorem elfHashByte_toNat (h : BitVec 32) (c : Byte) :
    (elfHashByte h c).toNat = abiHashByte h.toNat c := by
  have hsum : ((h <<< 4) + c.setWidth 32).toNat = (16 * h.toNat + c.toNat) % 2 ^ 32 := by
    have hc := c.isLt
    rw [BitVec.toNat_add, BitVec.toNat_shiftLeft, BitVec.toNat_setWidth, Nat.shiftLeft_eq]
    omega
  have hround (x : BitVec 32) :
      (if x &&& 0xf0000000#32 ≠ 0 then x ^^^ ((x &&& 0xf0000000#32) >>> 24) else x) =
        x ^^^ ((x &&& 0xf0000000#32) >>> 24) := by
    split
    · rfl
    · rename_i hzero
      rw [not_not.mp hzero]
      simp
  rw [elfHashByte, abiHashByte, ← hsum, ← folded_toNat, hround]

theorem blSymbolsElfHash_toNat (name : List Byte) :
    (blSymbolsElfHash name).toNat = abiHash name := by
  suffices hfold : ∀ h : BitVec 32, (name.foldl elfHashByte h).toNat =
      name.foldl abiHashByte h.toNat from hfold 0
  induction name with
  | nil => intro h; rfl
  | cons c name ih =>
    intro h
    rw [List.foldl_cons, List.foldl_cons, ih, elfHashByte_toNat]

theorem abiHashByte_lt (h : Nat) (c : Byte) : abiHashByte h c < 2 ^ 28 := by
  apply Nat.xor_lt_two_pow
  · exact Nat.mod_lt _ (by decide)
  · omega

theorem abiHash_lt (name : List Byte) : abiHash name < 2 ^ 28 := by
  rcases List.eq_nil_or_concat' name with rfl | ⟨front, c, rfl⟩
  · decide
  · rw [abiHash, List.foldl_append]
    exact abiHashByte_lt _ c

/-! ## Comparison -/

/-- Two strings differ where `bl_strcmp` says so, whatever the signs of their bytes. -/
theorem strcmpFrom_eq_zero_iff {s₁ : Mem} {str : List Byte} {i : Nat}
    (hstands : HasBytes s₁ i (str ++ [0])) (hstr : 0 ∉ str) (hname : 0 ∉ name) :
    strcmpFrom s₁ name i = 0 ↔ str = name := by
  have hzero (c : Byte) : c.toInt = 0 ↔ c = 0 := BitVec.toInt_inj (y := 0)
  induction name generalizing str i with
  | nil =>
    rw [strcmpFrom, hzero]
    cases str with
    | nil => simpa using hstands.1
    | cons c str =>
      have hne : c ≠ 0 := fun h => hstr (h ▸ List.mem_cons_self)
      rw [show s₁ i = c from hstands.1]
      exact iff_of_false hne (List.cons_ne_nil c str)
  | cons d name ih =>
    have hd : d ≠ 0 := fun h => hname (h ▸ List.mem_cons_self)
    rw [strcmpFrom]
    cases str with
    | nil =>
      rw [show s₁ i = 0 from hstands.1, if_neg (by simp), Int.sub_eq_zero, BitVec.toInt_inj]
      exact iff_of_false (Ne.symm hd) (List.cons_ne_nil d name).symm
    | cons c str =>
      have hc : c ≠ 0 := fun h => hstr (h ▸ List.mem_cons_self)
      rw [show s₁ i = c from hstands.1]
      by_cases heq : c = d
      · have hrest := ih hstands.2 (fun h => hstr (List.mem_cons_of_mem _ h))
          (fun h => hname (List.mem_cons_of_mem _ h))
        rw [if_pos ⟨heq, hc, hd⟩, heq]
        exact hrest.trans ⟨fun h => by rw [h], fun h => (List.cons.inj h).2⟩
      · rw [if_neg (fun h => heq h.1), Int.sub_eq_zero, BitVec.toInt_inj, List.cons.injEq]
        simp [heq]

theorem strcmpFrom_listed (m : Mem) (p : Nat) :
    Utils.Compare.Listed id m p (strcmpFrom fun k => m ((p + k) % 2 ^ 32)) where
  nil _ := rfl
  cons c s i := by simp only [strcmpFrom, id_eq, BitVec.toInt_inj]

/-- The call returns what the comparison of the two pointers does. -/
theorem blStrcmp_compared {m : Mem} {p : Nat} (hp : p < 2 ^ 32) (a : Utils.Compare.CString m) :
    (Utils.Compare.blStrcmp m p a.ptr).map Utils.Compare.Compared.result =
      some (blStrcmp m p a.text) := by
  unfold Utils.Compare.blStrcmp blStrcmp
  split_ifs with hnull
  · rw [hnull, Utils.Compare.compareStrings, if_neg (by simp [a.notNull]), if_pos rfl]
    rfl
  · exact (strcmpFrom_listed m p).compareStrings_eq hnull hp a

/-! ## The hash section -/

/-- `i` is a symbol; the symbol 0 is none. -/
def IsSymbol (t : ExportTables) (i : Nat) : Prop := 0 < i ∧ i < t.nchain

/-- A hash section over symbols with these names, where `chains b` is the chain of bucket `b`. -/
structure HashedSymbols (t : ExportTables) (names : Nat → List Byte) (chains : Nat → List Nat) :
    Prop where
  nbucket_pos : 0 < t.nbucket
  hash_fits : t.blHashStart + 8 + 4 * (t.nbucket + t.nchain) ≤ 2 ^ 32
  bucket_head : ∀ b < t.nbucket, t.info b = (chains b).getD 0 0
  chain_follows : ∀ b < t.nbucket, Follows (fun i => t.info (i + t.nbucket)) (chains b) 0
  mem_chain_iff : ∀ b < t.nbucket, ∀ i,
    i ∈ chains b ↔ IsSymbol t i ∧ abiHash (names i) % t.nbucket = b
  dynstr_pos : 0 < t.blDynstrStart
  name_stands : ∀ i, IsSymbol t i →
    HasBytes t.mem (t.blDynstrStart + t.stName i) (names i ++ [0])
  name_fits : ∀ i, IsSymbol t i →
    t.blDynstrStart + t.stName i + (names i).length < 2 ^ 32
  name_ends : ∀ i, IsSymbol t i → 0 ∉ names i
  names_distinct : ∀ i j, IsSymbol t i → IsSymbol t j → names i = names j → i = j

theorem HashedSymbols.namedSymbol_iff (h : HashedSymbols t names chains) (hname : 0 ∉ name)
    {i : Nat} (hi : IsSymbol t i) : namedSymbol t name i = true ↔ names i = name := by
  have hpos := h.dynstr_pos
  have hfits := h.name_fits i hi
  have hat : t.symbolName i = t.blDynstrStart + t.stName i := Nat.mod_eq_of_lt (by omega)
  have hstands : HasBytes (fun k => t.mem ((t.symbolName i + k) % 2 ^ 32)) 0 (names i ++ [0]) := by
    apply hasBytes_iff.mpr
    intro k hk
    have hlen : k ≤ (names i).length := by simpa [Nat.lt_succ_iff] using hk
    rw [hat, Nat.zero_add, Nat.mod_eq_of_lt (by omega)]
    exact hasBytes_iff.mp (h.name_stands i hi) k hk
  rw [namedSymbol, decide_eq_true_iff, blStrcmp, if_neg (by omega)]
  exact strcmpFrom_eq_zero_iff hstands (h.name_ends i hi) hname

/-- The walk along a chain finds the first symbol of the name. -/
theorem findSymbolFrom_chain {chain : List Nat} {fuel : Nat}
    (hfollows : Follows (fun i => t.info (i + t.nbucket)) chain 0)
    (hwords : ∀ i ∈ chain, 0 < i ∧ i + t.nbucket < 2 ^ 32) (hfuel : chain.length < fuel) :
    findSymbolFrom t name fuel (chain.getD 0 0) = some (chain.find? (namedSymbol t name)) := by
  induction chain generalizing fuel with
  | nil =>
    obtain ⟨fuel, rfl⟩ : ∃ n, fuel = n + 1 := ⟨fuel - 1, by simp at hfuel; omega⟩
    simp [findSymbolFrom]
  | cons i chain ih =>
    obtain ⟨fuel, rfl⟩ : ∃ n, fuel = n + 1 := ⟨fuel - 1, by omega⟩
    obtain ⟨hpos, hword⟩ := hwords i List.mem_cons_self
    have hnext : t.info (i + t.nbucket) = chain.getD 0 0 := by
      have hlink := hfollows.succ_getD (i := 0) (Nat.succ_pos _)
      rwa [List.getD_cons_zero, List.getD_cons_succ] at hlink
    have hrest : ∀ j ∈ chain, 0 < j ∧ j + t.nbucket < 2 ^ 32 := by
      intro j hj
      exact hwords j (List.mem_cons_of_mem _ hj)
    rw [List.getD_cons_zero, findSymbolFrom, if_neg hpos.ne', List.find?_cons]
    cases namedSymbol t name i with
    | true => rfl
    | false =>
      rw [if_neg Bool.false_ne_true, Nat.mod_eq_of_lt hword, hnext]
      exact ih hfollows.tail hrest (Nat.lt_of_succ_lt_succ hfuel)

theorem HashedSymbols.blSymbolsElfFindSymbol_eq (h : HashedSymbols t names chains) {fuel : Nat}
    (hfuel : (chains (abiHash name % t.nbucket)).length < fuel) :
    blSymbolsElfFindSymbol t name fuel =
      some ((chains (abiHash name % t.nbucket)).find? (namedSymbol t name)) := by
  have hbucket := Nat.mod_lt (abiHash name) h.nbucket_pos
  have hfits := h.hash_fits
  rw [blSymbolsElfFindSymbol, blSymbolsElfHash_toNat, h.bucket_head _ hbucket]
  refine findSymbolFrom_chain (h.chain_follows _ hbucket) ?_ hfuel
  intro i hi
  obtain ⟨⟨hpos, hlt⟩, -⟩ := (h.mem_chain_iff _ hbucket i).mp hi
  exact ⟨hpos, by omega⟩

/-- The chain of a name holds the symbol of that name, and no other symbol of it. -/
theorem HashedSymbols.find_eq_some_iff (h : HashedSymbols t names chains) (hname : 0 ∉ name)
    {i : Nat} :
    (chains (abiHash name % t.nbucket)).find? (namedSymbol t name) = some i ↔
      IsSymbol t i ∧ names i = name := by
  have hbucket := Nat.mod_lt (abiHash name) h.nbucket_pos
  have hmem := h.mem_chain_iff _ hbucket
  have hfound {j : Nat} (hj : (chains (abiHash name % t.nbucket)).find? (namedSymbol t name) =
      some j) : IsSymbol t j ∧ names j = name := by
    obtain ⟨hsymbol, -⟩ := (hmem j).mp (List.mem_of_find?_eq_some hj)
    exact ⟨hsymbol, (h.namedSymbol_iff hname hsymbol).mp (List.find?_some hj)⟩
  refine ⟨hfound, fun ⟨hi, hnamed⟩ => ?_⟩
  cases hfind : (chains (abiHash name % t.nbucket)).find? (namedSymbol t name) with
  | none =>
    have hchain : i ∈ chains (abiHash name % t.nbucket) := (hmem i).mpr ⟨hi, by rw [hnamed]⟩
    exact absurd ((h.namedSymbol_iff hname hi).mpr hnamed) (List.find?_eq_none.mp hfind i hchain)
  | some j =>
    obtain ⟨hj, hother⟩ := hfound hfind
    rw [h.names_distinct j i hj hi (hother.trans hnamed.symm)]

/-- Symbol `i` has this name, and is a function or a variable. -/
structure Exports (t : ExportTables) (names : Nat → List Byte) (name : List Byte) (i : Nat)
    (type : BlExportType) : Prop where
  symbol : IsSymbol t i
  named : names i = name
  typed : exportType (t.stInfo i) = some type

theorem symbols_find_iff_exported (h : HashedSymbols t names chains) (hname : 0 ∉ name) :
    ((blSymbolsElfHash name).toNat = abiHash name ∧ abiHash name < 2 ^ 28) ∧
    ∃ rounds, ∀ fuel ≥ rounds,
      (∀ i type, Exports t names name i type →
        blSymbolsFind t (some name) true fuel =
          some (.success, some ⟨t.stValue i, type, t.symbolName i⟩)) ∧
      ((¬ ∃ i type, Exports t names name i type) →
        blSymbolsFind t (some name) true fuel = some (.unknownSymbol, none)) := by
  refine ⟨⟨blSymbolsElfHash_toNat name, abiHash_lt name⟩,
    (chains (abiHash name % t.nbucket)).length + 1, fun fuel hfuel => ⟨?_, ?_⟩⟩
  · rintro i type ⟨hsymbol, hnamed, htyped⟩
    have hfind := (h.find_eq_some_iff hname).mpr ⟨hsymbol, hnamed⟩
    simp [blSymbolsFind, h.blSymbolsElfFindSymbol_eq hfuel, hfind, htyped]
  · intro hnone
    rw [blSymbolsFind, if_neg (by simp), h.blSymbolsElfFindSymbol_eq hfuel]
    cases hfind : (chains (abiHash name % t.nbucket)).find? (namedSymbol t name) with
    | none => rfl
    | some i =>
      obtain ⟨hsymbol, hnamed⟩ := (h.find_eq_some_iff hname).mp hfind
      have htype : exportType (t.stInfo i) = none := by
        rw [Option.eq_none_iff_forall_ne_some]
        intro type htyped
        exact hnone ⟨i, type, hsymbol, hnamed, htyped⟩
      simp [htype]

/-! ## Two symbols on one chain -/

/-- The function `a`, and a variable whose name starts with a byte above 127. -/
def twoExports : ExportTables where
  mem := ofPieces
    [(0x100, [1, 0, 0, 0, 3, 0, 0, 0, 1, 0, 0, 0, 0, 0, 0, 0, 2, 0, 0, 0, 0, 0, 0, 0]),
      (0x210, [1, 0, 0, 0, 0, 0x10, 0, 0, 4, 0, 0, 0, 0x12, 0, 2, 0]),
      (0x220, [3, 0, 0, 0, 0, 0x20, 0, 0, 4, 0, 0, 0, 0x11, 0, 2, 0]),
      (0x301, [0x61, 0, 0xe9, 0x62, 0])]
  blHashStart := 0x100
  blDynsymStart := 0x200
  blDynstrStart := 0x300

def twoNames (i : Nat) : List Byte := if i = 1 then [0x61] else [0xe9, 0x62]

theorem twoExports_symbol {i : Nat} (h : IsSymbol twoExports i) : i = 1 ∨ i = 2 := by
  obtain ⟨hpos, hlt⟩ := h
  rw [show twoExports.nchain = 3 by decide] at hlt
  omega

theorem twoExports_hashed : HashedSymbols twoExports twoNames fun _ => [1, 2] where
  nbucket_pos := by decide
  hash_fits := by decide
  bucket_head := by decide
  chain_follows := by
    intro b hb
    simp only [Follows, List.cons_append, List.nil_append, List.isChain_cons_cons,
      List.isChain_singleton, and_true]
    decide
  mem_chain_iff := by
    intro b hb i
    rw [show twoExports.nbucket = 1 by decide] at hb ⊢
    constructor
    · intro hi
      have hcases : i = 1 ∨ i = 2 := by simpa using hi
      refine ⟨?_, by omega⟩
      rw [IsSymbol, show twoExports.nchain = 3 by decide]
      omega
    · rintro ⟨hi, -⟩
      simpa using twoExports_symbol hi
  dynstr_pos := by decide
  name_stands := by
    intro i hi
    rcases twoExports_symbol hi with rfl | rfl <;> exact hasBytes_iff.mpr (by decide)
  name_fits := by
    intro i hi
    rcases twoExports_symbol hi with rfl | rfl <;> decide
  name_ends := by
    intro i hi
    rcases twoExports_symbol hi with rfl | rfl <;> decide
  names_distinct := by
    intro i j hi hj
    rcases twoExports_symbol hi with rfl | rfl <;> rcases twoExports_symbol hj with rfl | rfl <;>
      decide

theorem twoExports_find :
    HashedSymbols twoExports twoNames (fun _ => [1, 2]) ∧
    ∃ rounds, ∀ fuel ≥ rounds,
      blSymbolsFind twoExports (some [0xe9, 0x62]) true fuel =
        some (.success, some ⟨0x2000, .var, 0x303⟩) := by
  refine ⟨twoExports_hashed, ?_⟩
  obtain ⟨rounds, hfind⟩ := (symbols_find_iff_exported twoExports_hashed
    (by decide : (0 : Byte) ∉ [0xe9, 0x62])).2
  exact ⟨rounds, fun fuel hfuel =>
    (hfind fuel hfuel).1 2 .var ⟨⟨by decide, by decide⟩, by decide, by decide⟩⟩

end BootLoader.Loader
