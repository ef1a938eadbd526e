import BootLoader.Lib.ThreeWay
import BootLoader.Utils.Strings

/-!
# Comparisons of strings (`core/utils/string.c`)

Characters are signed. Pointers are 32 bits wide; one that is null is `0`.
-/

open ByteMemory ThreeWay

namespace BootLoader.Utils.Compare

/-- What a call returns, and the addresses that it reads by way of each of the pointers. -/
structure Compared where
  result : Int
  read₁ : List Nat
  read₂ : List Nat

def blTolower (c : Int) : Int := if 0x41 ≤ c ∧ c ≤ 0x5a then c + 0x20 else c

/-- The loop, which compares folded characters; `--n` where there is a limit. -/
def compareFrom (fold : Int → Int) (m : Mem) : Nat → Option Nat → Nat → Nat → Option Compared
  | 0, _, _, _ => none
  | fuel + 1, limit, s₁, s₂ =>
    if fold (m s₁).toInt = fold (m s₂).toInt ∧ m s₁ ≠ 0 ∧ m s₂ ≠ 0 ∧
        limit.map (· - 1) ≠ some 0 then
      (compareFrom fold m fuel (limit.map (· - 1)) ((s₁ + 1) % 2 ^ 32) ((s₂ + 1) % 2 ^ 32)).map
        fun r => ⟨r.result, s₁ :: r.read₁, s₂ :: r.read₂⟩
    else some ⟨(m s₁).toInt - (m s₂).toInt, [s₁], [s₂]⟩

/-- After as many rounds both pointers are back where they began: a loop that goes on never ends. -/
def compareFuel : Nat := 2 ^ 32

/-- `none`: the loop does not end. -/
def compareStrings (fold : Int → Int) (limit : Option Nat) (m : Mem) (s₁ s₂ : Nat) :
    Option Compared :=
  if (s₁ = 0 ∧ s₂ = 0) ∨ limit = some 0 then some ⟨0, [], []⟩
  else if s₁ = 0 then some ⟨-1, [], []⟩
  else if s₂ = 0 then some ⟨1, [], []⟩
  else compareFrom fold m compareFuel limit s₁ s₂

def blStrcmp (m : Mem) (s₁ s₂ : Nat) : Option Compared := compareStrings id none m s₁ s₂

def blStrncmp (m : Mem) (s₁ s₂ n : Nat) : Option Compared := compareStrings id (some n) m s₁ s₂

def blStrcasecmp (m : Mem) (s₁ s₂ : Nat) : Option Compared := compareStrings blTolower none m s₁ s₂

def blStrncasecmp (m : Mem) (s₁ s₂ n : Nat) : Option Compared :=
  compareStrings blTolower (some n) m s₁ s₂

/-! ## Strings -/

/-- A string that stands in memory. -/
structure CString (m : Mem) where
  ptr : Nat
  text : List Byte
  bytes : HasBytes m ptr (text ++ [0])
  noNul : (0 : Byte) ∉ text
  notNull : ptr ≠ 0
  inSpace : ptr + text.length < 2 ^ 32

/-- The character at `k`; behind the last one comes the terminator. -/
def charAt (s : List Byte) (k : Nat) : Int := (s.getD k 0).toInt

def folded (fold : Int → Int) (c : Byte) : Int := fold c.toInt

/-- The result tells whether the strings are the same but for the folding, up to the limit, and else
which one comes first. The first two characters that differ decide, and one of them may be a
terminator. -/
structure Decides (fold : Int → Int) (limit : Option Nat) (s t : List Byte) (result : Int) :
    Prop where
  same : result = 0 ↔ cut limit (s.map (folded fold)) = cut limit (t.map (folded fold))
  before : result < 0 ↔ keys (folded fold) 0 limit s < keys (folded fold) 0 limit t
  behind : 0 < result ↔ keys (folded fold) 0 limit t < keys (folded fold) 0 limit s

/-- The bytes that a string has up to its terminator and up to the limit. -/
def CString.InReach {m : Mem} (a : CString m) (limit : Option Nat) (address : Nat) : Prop :=
  ∃ k ≤ a.text.length, (∀ n ∈ limit, k < n) ∧ address = a.ptr + k

variable {m : Mem} {s t : List Byte} {a b c : CString m} {fold : Int → Int} {limit : Option Nat}
  {p q fuel k n : Nat} {result : Int}

/-! ## The loop -/

theorem compareFrom_eq (hs : HasBytes m p (s ++ [0])) (ht : HasBytes m q (t ++ [0]))
    (hs₀ : (0 : Byte) ∉ s) (ht₀ : (0 : Byte) ∉ t) (hp : p + s.length < 2 ^ 32)
    (hq : q + t.length < 2 ^ 32) (hfuel : s.length < fuel) :
    compareFrom fold m fuel limit p q =
      let k := stopAt (folded fold) limit s t
      some ⟨charAt s k - charAt t k, List.range' p (k + 1), List.range' q (k + 1)⟩ := by
  induction s generalizing limit t p q fuel with
  | nil =>
    obtain ⟨fuel, rfl⟩ := Nat.exists_eq_succ_of_ne_zero (by omega : fuel ≠ 0)
    rw [compareFrom, if_neg fun hgo => hgo.2.1 hs.1, hs.1]
    cases t with
    | nil => rw [ht.1]; rfl
    | cons d t => rw [ht.1]; rfl
  | cons c s ih =>
    obtain ⟨fuel, rfl⟩ := Nat.exists_eq_succ_of_ne_zero (by omega : fuel ≠ 0)
    obtain ⟨hc, hs⟩ := hs
    cases t with
    | nil =>
      rw [compareFrom, if_neg fun hgo => hgo.2.2.1 ht.1, hc, ht.1]
      rfl
    | cons d t =>
      obtain ⟨hd, ht⟩ := ht
      rw [List.mem_cons, not_or] at hs₀ ht₀
      rw [List.length_cons] at hp hq hfuel
      have hgo : (fold (m p).toInt = fold (m q).toInt ∧ m p ≠ 0 ∧ m q ≠ 0 ∧
          limit.map (· - 1) ≠ some 0) ↔
          folded fold c = folded fold d ∧ limit.map (· - 1) ≠ some 0 := by
        rw [hc, hd, folded, folded]
        have hc₀ := Ne.symm hs₀.1
        have hd₀ := Ne.symm ht₀.1
        tauto
      simp only [compareFrom, hgo, stopAt]
      split_ifs
      · rw [Nat.mod_eq_of_lt (by omega), Nat.mod_eq_of_lt (by omega),
          ih hs ht hs₀.2 ht₀.2 (by omega) (by omega) (by omega)]
        rfl
      · rw [hc, hd]
        rfl

/-! ## The loop for strings by themselves -/

/-- The loop of `bl_strncmp`, on what the pointers point to. -/
theorem compareFrom_strncmpFrom {left i : Nat} (hleft : left ≠ 0) (hfuel : left ≤ fuel) :
    (compareFrom id m fuel (some left) ((p + i) % 2 ^ 32) ((q + i) % 2 ^ 32)).map
        Compared.result =
      some (strncmpFrom (fun k => m ((p + k) % 2 ^ 32)) (fun k => m ((q + k) % 2 ^ 32)) left
        i) := by
  induction left generalizing fuel i with
  | zero => exact absurd rfl hleft
  | succ left ih =>
    obtain ⟨fuel, rfl⟩ := Nat.exists_eq_succ_of_ne_zero (by omega : fuel ≠ 0)
    have hgo : ∀ x y : Byte, (id x.toInt = id y.toInt ∧ x ≠ 0 ∧ y ≠ 0 ∧
        (some (left + 1)).map (· - 1) ≠ some 0) ↔ x = y ∧ x ≠ 0 ∧ left ≠ 0 := by
      intro x y
      simp only [id_eq, BitVec.toInt_inj, Option.map_some, Nat.add_sub_cancel, ne_eq,
        Option.some.injEq]
      constructor
      · exact fun h => ⟨h.1, h.2.1, h.2.2.2⟩
      · rintro ⟨rfl, hne, hleft⟩
        exact ⟨rfl, hne, hne, hleft⟩
    rw [compareFrom, strncmpFrom]
    simp only [hgo]
    split_ifs with h
    · rw [Nat.mod_add_mod, Nat.mod_add_mod, Nat.add_assoc, Nat.add_assoc, Option.map_map,
        Option.map_some, Nat.add_sub_cancel]
      exact ih h.2.2 (by omega)
    · rfl

theorem blStrncmp_result (hn : n < 2 ^ 32) (hp : p ≠ 0) (hq : q ≠ 0) (hp' : p < 2 ^ 32)
    (hq' : q < 2 ^ 32) :
    (blStrncmp m p q n).map Compared.result =
      some (Utils.blStrncmp (fun k => m ((p + k) % 2 ^ 32)) (fun k => m ((q + k) % 2 ^ 32)) n) := by
  unfold blStrncmp compareStrings Utils.blStrncmp
  rcases Nat.eq_zero_or_pos n with rfl | hpos
  · rw [if_pos (.inr rfl)]
    rfl
  · have hnone : ¬ ((p = 0 ∧ q = 0) ∨ some n = some 0) := by simp [hp, hpos.ne']
    have hloop := compareFrom_strncmpFrom (m := m) (p := p) (q := q) (i := 0) hpos.ne' hn.le
    rw [Nat.add_zero, Nat.add_zero, Nat.mod_eq_of_lt hp', Nat.mod_eq_of_lt hq'] at hloop
    rw [if_neg hnone, if_neg hp, if_neg hq]
    exact hloop

/-- The loop without a limit, as a recursion on the text that the second pointer points to. -/
structure Listed (fold : Int → Int) (m : Mem) (p : Nat) (f : List Byte → Nat → Int) : Prop where
  nil : ∀ i, f [] i = (m ((p + i) % 2 ^ 32)).toInt
  cons : ∀ c s i, f (c :: s) i =
    if fold (m ((p + i) % 2 ^ 32)).toInt = fold c.toInt ∧ m ((p + i) % 2 ^ 32) ≠ 0 ∧ c ≠ 0 then
      f s (i + 1)
    else (m ((p + i) % 2 ^ 32)).toInt - c.toInt

theorem Listed.compareFrom_eq {f : List Byte → Nat → Int} {i : Nat} (h : Listed fold m p f)
    (hs : HasBytes m q (s ++ [0])) (hq : q + s.length < 2 ^ 32) (hfuel : s.length < fuel) :
    (compareFrom fold m fuel none ((p + i) % 2 ^ 32) q).map Compared.result = some (f s i) := by
  induction s generalizing q fuel i with
  | nil =>
    obtain ⟨fuel, rfl⟩ := Nat.exists_eq_succ_of_ne_zero (by omega : fuel ≠ 0)
    rw [compareFrom, if_neg fun hgo => hgo.2.2.1 hs.1, hs.1, h.nil]
    exact congrArg some (Int.sub_zero _)
  | cons c s ih =>
    obtain ⟨fuel, rfl⟩ := Nat.exists_eq_succ_of_ne_zero (by omega : fuel ≠ 0)
    obtain ⟨hc, hs⟩ := hs
    rw [List.length_cons] at hq hfuel
    rw [compareFrom, hc, h.cons]
    simp only [Option.map_none, ne_eq, reduceCtorEq, not_false_eq_true, and_true]
    split_ifs
    · rw [Nat.mod_add_mod, Nat.add_assoc, Nat.mod_eq_of_lt (by omega : q + 1 < 2 ^ 32),
        Option.map_map]
      exact ih hs (by omega) (by omega)
    · rfl

theorem CString.length_lt (a : CString m) : a.text.length < compareFuel :=
  Nat.lt_of_le_of_lt (Nat.le_add_left _ _) a.inSpace

theorem Listed.compareStrings_eq {f : List Byte → Nat → Int} (h : Listed fold m p f) (hp : p ≠ 0)
    (hlt : p < 2 ^ 32) (a : CString m) :
    (compareStrings fold none m p a.ptr).map Compared.result = some (f a.text 0) := by
  have hnone : ¬ ((p = 0 ∧ a.ptr = 0) ∨ (none : Option Nat) = some 0) := by simp [hp]
  have hloop : (compareFrom fold m compareFuel none ((p + 0) % 2 ^ 32) a.ptr).map
      Compared.result = some (f a.text 0) := h.compareFrom_eq a.bytes a.inSpace a.length_lt
  rw [Nat.add_zero, Nat.mod_eq_of_lt hlt] at hloop
  rw [compareStrings, if_neg hnone, if_neg hp, if_neg a.notNull]
  exact hloop

/-! ## What a call does -/

/-- The loop stops at the first difference, at the terminator or at the limit. -/
def compared (fold : Int → Int) (limit : Option Nat) (a b : CString m) : Compared :=
  if limit = some 0 then ⟨0, [], []⟩
  else
    let k := stopAt (folded fold) limit a.text b.text
    ⟨charAt a.text k - charAt b.text k, List.range' a.ptr (k + 1), List.range' b.ptr (k + 1)⟩

theorem compareStrings_eq (fold : Int → Int) (limit : Option Nat) (a b : CString m) :
    compareStrings fold limit m a.ptr b.ptr = some (compared fold limit a b) := by
  unfold compareStrings compared
  by_cases hlimit : limit = some 0
  · rw [if_pos (.inr hlimit), if_pos hlimit]
  · have hnone : ¬ ((a.ptr = 0 ∧ b.ptr = 0) ∨ limit = some 0) :=
      not_or.mpr ⟨fun h => a.notNull h.1, hlimit⟩
    rw [if_neg hnone, if_neg a.notNull, if_neg b.notNull, if_neg hlimit,
      compareFrom_eq a.bytes b.bytes a.noNul b.noNul a.inSpace b.inSpace a.length_lt]

theorem compared_swap (fold : Int → Int) (limit : Option Nat) (a b : CString m) :
    (compared fold limit b a).result = -(compared fold limit a b).result := by
  unfold compared
  split_ifs
  · rfl
  · dsimp only
    rw [stopAt_comm, Int.neg_sub]

/-! ## What the result tells -/

/-- Nothing but the terminator is folded to a terminator. -/
def KeepsNul (fold : Int → Int) : Prop := ∀ c : Byte, c ≠ 0 → folded fold c ≠ folded fold 0

theorem keepsNul_id : KeepsNul id := fun _ hc h => hc (BitVec.eq_of_toInt_eq h)

theorem CString.key_ne (h : KeepsNul fold) (a : CString m) :
    ∀ c ∈ a.text, folded fold c ≠ folded fold 0 :=
  fun c hc => h c fun h0 => a.noNul (h0 ▸ hc)

theorem decides_iff (h : KeepsNul fold) (a b : CString m) :
    Decides fold limit a.text b.text result ↔
      Tells result (keys (folded fold) 0 limit a.text) (keys (folded fold) 0 limit b.text) := by
  have hsame : keys (folded fold) 0 limit a.text = keys (folded fold) 0 limit b.text ↔
      cut limit (a.text.map (folded fold)) = cut limit (b.text.map (folded fold)) :=
    keys_eq_iff (a.key_ne h) (b.key_ne h)
  constructor
  · exact fun hd => ⟨hd.same.trans hsame.symm, hd.before⟩
  · exact fun ht => ⟨ht.zero.trans hsame, ht.neg, ht.pos⟩

/-- **The characters where the loop stops decide.** -/
theorem compared_decides_iff (h : KeepsNul fold) (a b : CString m) (hlimit : limit ≠ some 0) :
    Decides fold limit a.text b.text (compared fold limit a b).result ↔
      let k := stopAt (folded fold) limit a.text b.text
      Tells (charAt a.text k - charAt b.text k) (fold (charAt a.text k))
        (fold (charAt b.text k)) := by
  rw [decides_iff h, compared, if_neg hlimit, tells_keys_iff hlimit (a.key_ne h) (b.key_ne h)]
  rfl

theorem decides_zero (fold : Int → Int) (s t : List Byte) : Decides fold (some 0) s t 0 where
  same := iff_of_true rfl rfl
  before := iff_of_false (lt_irrefl 0) (List.not_lt_nil _)
  behind := iff_of_false (lt_irrefl 0) (List.not_lt_nil _)

/-! ## What is read -/

theorem inReach_of_mem (hlimit : limit ≠ some 0) (b : CString m) {address : Nat}
    (h : address ∈ List.range' a.ptr (stopAt (folded fold) limit a.text b.text + 1)) :
    a.InReach limit address := by
  obtain ⟨k, hk, rfl⟩ := List.mem_range'.mp h
  rw [Nat.one_mul]
  refine ⟨k, (Nat.le_of_lt_succ hk).trans (stopAt_le _ _ _), ?_, rfl⟩
  rintro n rfl
  have hstop : stopAt (folded fold) (some n) a.text b.text < n :=
    stopAt_lt (fun h => hlimit (congrArg some h)) a.text b.text
  omega

theorem compared_read₁ (a b : CString m) :
    ∀ address ∈ (compared fold limit a b).read₁, a.InReach limit address := by
  unfold compared
  split_ifs with hlimit
  · exact fun _ h => absurd h List.not_mem_nil
  · exact fun _ h => inReach_of_mem hlimit b h

theorem compared_read₂ (a b : CString m) :
    ∀ address ∈ (compared fold limit a b).read₂, b.InReach limit address := by
  unfold compared
  split_ifs with hlimit
  · exact fun _ h => absurd h List.not_mem_nil
  · dsimp only
    rw [stopAt_comm]
    exact fun _ h => inReach_of_mem hlimit a h

/-! ## The order of strings -/

/-- A comparison that tells strings apart and orders them, and keeps to what is in its reach. -/
structure Orders (limit : Option Nat) (compare : CString m → CString m → Compared) : Prop where
  decides : ∀ a b, Decides id limit a.text b.text (compare a b).result
  equal : ∀ a b, (compare a b).result = 0 ↔ cut limit a.text = cut limit b.text
  equivalence : Equivalence fun a b => (compare a b).result = 0
  antisymm : ∀ a b, (compare b a).result = -(compare a b).result
  trans : ∀ a b c, (compare a b).result ≤ 0 → (compare b c).result ≤ 0 → (compare a c).result ≤ 0
  read₁ : ∀ a b, ∀ address ∈ (compare a b).read₁, a.InReach limit address
  read₂ : ∀ a b, ∀ address ∈ (compare a b).read₂, b.InReach limit address

theorem compared_decides (limit : Option Nat) (a b : CString m) :
    Decides id limit a.text b.text (compared id limit a b).result := by
  by_cases hlimit : limit = some 0
  · rw [compared, if_pos hlimit, hlimit]
    exact decides_zero id a.text b.text
  · exact (compared_decides_iff keepsNul_id a b hlimit).mpr (tells_sub _ _)

theorem compared_orders (m : Mem) (limit : Option Nat) :
    Orders (m := m) limit (compared id limit) := by
  have hdecides := compared_decides (m := m) limit
  have hequal : ∀ a b : CString m,
      (compared id limit a b).result = 0 ↔ cut limit a.text = cut limit b.text := by
    intro a b
    have hinj : Function.Injective (folded id) := fun _ _ h => BitVec.eq_of_toInt_eq h
    rw [(hdecides a b).same, cut_map, cut_map, (List.map_injective_iff.mpr hinj).eq_iff]
  refine ⟨hdecides, hequal, ⟨?_, ?_, ?_⟩, compared_swap id limit, ?_, compared_read₁,
    compared_read₂⟩
  · exact fun a => (hequal a a).mpr rfl
  · exact fun h => (hequal _ _).mpr ((hequal _ _).mp h).symm
  · exact fun h h' => (hequal _ _).mpr (((hequal _ _).mp h).trans ((hequal _ _).mp h'))
  · intro a b c
    have htells := fun a b => (decides_iff keepsNul_id a b).mp (hdecides a b)
    exact (htells a b).trans (htells b c) (htells a c)

theorem compared_of_length_lt (a b : CString m) (h : a.text.length < n) :
    compared fold (some n) a b = compared fold none a b := by
  have hn : n ≠ 0 := by omega
  simp [compared, hn, stopAt_of_length_lt h]

/-- **Strings are ordered by their signed characters**, up to the limit where there is one. -/
theorem strings_ordered (m : Mem) :
    ∃ compare : Option Nat → CString m → CString m → Compared,
      (∀ a b, blStrcmp m a.ptr b.ptr = some (compare none a b)) ∧
      (∀ n a b, blStrncmp m a.ptr b.ptr n = some (compare (some n) a b)) ∧
      (∀ limit, Orders limit (compare limit)) ∧
      ∀ n a b, a.text.length < n → b.text.length < n →
        compare (some n) a b = compare none a b :=
  ⟨compared id, compareStrings_eq id none, fun n => compareStrings_eq id (some n),
    compared_orders m, fun _ a b h _ => compared_of_length_lt a b h⟩

end BootLoader.Utils.Compare
