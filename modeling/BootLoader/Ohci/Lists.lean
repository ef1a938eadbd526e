import BootLoader.Ohci.Endpoints

/-!
# The endpoint lists

The descriptors that were handed out are the first ones of their pool, each linked to the next. Two
things break that: the first control descriptor is given away again after it served address 0, and
the pointers of the bulk descriptors are what the memory held before.
-/

namespace BootLoader.Ohci.Endpoints

variable {pool pool' : EdPool} {returned : List Nat} {addressEndpoint : BitVec 32} {control : Bool}
  {i n : Nat}

/-! ## What should hold -/

/-- `next_ed` is null or leads to a descriptor of the pool. -/
def EdPool.NextInside (pool : EdPool) (i : Nat) : Prop :=
  edPointer (pool.eds i).nextEd = 0 ∨ ∃ j < 128, edPointer (pool.eds i).nextEd = pool.address j

/-- There is a way from the head, and no `next_ed` on it leads outside the pool. -/
inductive EdPool.Reached (pool : EdPool) : Nat → Prop
  | head (hin : pool.NextInside 0) : Reached pool 0
  | next {i j : Nat} (h : Reached pool i)
      (hlink : edPointer (pool.eds i).nextEd = pool.address j) (hlt : j < 128)
      (hin : pool.NextInside j) : Reached pool j

structure Good (pool : EdPool) (returned : List Nat) : Prop where
  reached : ∀ i ∈ returned, pool.Reached i
  single : ∀ i ∈ returned, ∀ j ∈ returned,
    (pool.eds i).addressEndpoint = (pool.eds j).addressEndpoint → i = j
  idle : ∀ i < 128, i ∉ returned → (pool.eds i).tdHeadPointer = (pool.eds i).tdTailPointer

theorem EdPool.Reached.inside (h : pool.Reached i) : pool.NextInside i := by
  cases h with
  | head hin => exact hin
  | next _ _ _ hin => exact hin

/-! ## Allocation -/

/-- The first descriptor that is free, and none before it has the address and endpoint. -/
def FirstFree (pool : EdPool) (addressEndpoint : BitVec 32) (i : Nat) : Prop :=
  (pool.eds i).addressEndpoint = 0 ∧
    ∀ k < i, (pool.eds k).addressEndpoint ≠ addressEndpoint ∧ (pool.eds k).addressEndpoint ≠ 0

def EdPool.linkTo (pool : EdPool) (i : Nat) : EdPool :=
  if 0 < i then
    pool.setEd (i - 1) { pool.eds (i - 1) with nextEd := edPointer (pool.address i) }
  else pool

inductive AllocEd (pool : EdPool) (count : Nat) (addressEndpoint : BitVec 32) :
    EdPool × Option Nat → Prop
  | found (i : Nat) (hlt : i < count) (hhas : (pool.eds i).addressEndpoint = addressEndpoint)
      (hbefore : ∀ k < i, (pool.eds k).addressEndpoint ≠ addressEndpoint ∧
        (pool.eds k).addressEndpoint ≠ 0) :
    AllocEd pool count addressEndpoint (pool, some i)
  | free (i : Nat) (hlt : i < count) (hne : addressEndpoint ≠ 0)
      (hfree : FirstFree pool addressEndpoint i) :
    AllocEd pool count addressEndpoint (pool.linkTo i, some i)
  | full (hall : ∀ k < count, (pool.eds k).addressEndpoint ≠ addressEndpoint ∧
      (pool.eds k).addressEndpoint ≠ 0) :
    AllocEd pool count addressEndpoint (pool, none)

theorem blOhciAllocEd_cases (pool : EdPool) (count : Nat) (addressEndpoint : BitVec 32) :
    AllocEd pool count addressEndpoint (blOhciAllocEd pool count addressEndpoint) := by
  have hloop : ∀ left i, i + left = count →
      (∀ k < i, (pool.eds k).addressEndpoint ≠ addressEndpoint ∧
        (pool.eds k).addressEndpoint ≠ 0) →
      AllocEd pool count addressEndpoint (allocEdFrom addressEndpoint left i pool) := by
    intro left
    induction left with
    | zero =>
      intro i hcount hbefore
      exact .full fun k hk => hbefore k (by omega)
    | succ left ih =>
      intro i hcount hbefore
      rw [allocEdFrom]
      by_cases hhas : (pool.eds i).addressEndpoint = addressEndpoint
      · rw [if_pos hhas]
        exact .found i (by omega) hhas hbefore
      by_cases hzero : (pool.eds i).addressEndpoint = 0
      · rw [if_neg hhas, if_pos hzero]
        have hfree : AllocEd pool count addressEndpoint (pool.linkTo i, some i) :=
          .free i (by omega) (fun h0 => hhas (hzero.trans h0.symm)) ⟨hzero, hbefore⟩
        unfold EdPool.linkTo at hfree
        split_ifs at hfree ⊢
        · exact hfree
        · exact hfree
      · rw [if_neg hhas, if_neg hzero]
        refine ih (i + 1) (by omega) fun k hk => ?_
        rcases Nat.lt_succ_iff_lt_or_eq.mp hk with hk | rfl
        · exact hbefore k hk
        · exact ⟨hhas, hzero⟩
  exact hloop count 0 (Nat.zero_add count) fun k hk => absurd hk (Nat.not_lt_zero k)

/-! ## What a request changes -/

/-- Writing one field leaves the others. -/
theorem field_and {x value field other : BitVec 32} (hfield : ~~~field &&& other = other)
    (hvalue : value &&& other = 0) : (x &&& ~~~field ||| value) &&& other = x &&& other := by
  rw [BitVec.and_or_distrib_right, BitVec.and_assoc, hfield, hvalue]
  exact BitVec.or_zero

theorem initFlags_addressEndpoint (flags maxPacketSize : BitVec 32) (lowSpeed : Bool)
    (h : addressEndpoint &&& blOhciEdFlagsAddressEndpoint = addressEndpoint) :
    initFlags flags addressEndpoint lowSpeed maxPacketSize &&& blOhciEdFlagsAddressEndpoint =
      addressEndpoint := by
  have hmps : (maxPacketSize <<< 16 &&& blOhciEdFlagsMps) &&& blOhciEdFlagsAddressEndpoint = 0 := by
    rw [BitVec.and_assoc, show blOhciEdFlagsMps &&& blOhciEdFlagsAddressEndpoint = 0#32 by decide]
    exact BitVec.and_zero
  have hspeed : (if lowSpeed then blOhciEdFlagsSpeed else 0) &&& blOhciEdFlagsAddressEndpoint =
      0 := by
    cases lowSpeed <;> decide
  rw [initFlags, field_and (by decide) hmps, field_and (by decide) hspeed,
    BitVec.and_or_distrib_right, BitVec.and_assoc, h,
    show ~~~blOhciEdFlagsAddressEndpoint &&& blOhciEdFlagsAddressEndpoint = 0#32 by decide,
    BitVec.and_zero, BitVec.zero_or]

theorem Request.addressEndpoint_and (r : Request) :
    r.addressEndpoint &&& blOhciEdFlagsAddressEndpoint = r.addressEndpoint := by
  rw [Request.addressEndpoint, blOhciEdAddressEndpoint, BitVec.and_or_distrib_right,
    BitVec.and_assoc, BitVec.and_assoc,
    show blOhciEdFlagsAddress &&& blOhciEdFlagsAddressEndpoint = blOhciEdFlagsAddress by decide,
    show blOhciEdFlagsEndpoint &&& blOhciEdFlagsAddressEndpoint = blOhciEdFlagsEndpoint by decide]

/-- The descriptor `i` gets the address and endpoint, and if `linked` the one before it its link. -/
structure Changed (pool pool' : EdPool) (addressEndpoint : BitVec 32) (i : Nat) (linked : Prop) :
    Prop where
  base : pool'.base = pool.base
  has : (pool'.eds i).addressEndpoint = addressEndpoint
  others : ∀ k, k ≠ i → (pool'.eds k).addressEndpoint = (pool.eds k).addressEndpoint
  link : linked → 0 < i → (pool'.eds (i - 1)).nextEd = edPointer (pool.address i)
  links : ∀ k, ¬(linked ∧ k + 1 = i) → (pool'.eds k).nextEd = (pool.eds k).nextEd
  head : ∀ k, (pool'.eds k).tdHeadPointer = (pool.eds k).tdHeadPointer
  tail : ∀ k, (pool'.eds k).tdTailPointer = (pool.eds k).tdTailPointer

theorem initEdIn_again (pool : EdPool) (i : Nat) (r : Request) :
    ∃ pool', initEdIn (pool, some i) r = (pool', some i) ∧
      Changed pool pool' r.addressEndpoint i False := by
  refine ⟨_, rfl, rfl, ?_, ?_, fun h => h.elim, ?_, ?_, ?_⟩
  · simp [EdPool.setEd, BlOhciEd.addressEndpoint,
      initFlags_addressEndpoint _ _ _ r.addressEndpoint_and]
  · intro k hk
    simp [EdPool.setEd, hk]
  all_goals
    intro k
    by_cases hk : k = i
    · subst hk
      simp [EdPool.setEd]
    · simp [EdPool.setEd, hk]

theorem linkTo_eds (pool : EdPool) (i k : Nat) :
    (pool.linkTo i).eds k = if 0 < i ∧ k + 1 = i then
      { pool.eds k with nextEd := edPointer (pool.address i) } else pool.eds k := by
  unfold EdPool.linkTo EdPool.setEd
  by_cases hi : 0 < i
  · by_cases hk : k + 1 = i
    · obtain rfl : k = i - 1 := by omega
      simp [hi, hk]
    · have hne : k ≠ i - 1 := by omega
      simp [hi, hk, hne]
  · simp [hi]

theorem linkTo_base (pool : EdPool) (i : Nat) : (pool.linkTo i).base = pool.base := by
  unfold EdPool.linkTo
  split_ifs <;> rfl

theorem initEdIn_linked (pool : EdPool) (i : Nat) (r : Request) :
    ∃ pool', initEdIn (pool.linkTo i, some i) r = (pool', some i) ∧
      Changed pool pool' r.addressEndpoint i True := by
  obtain ⟨pool', heq, h⟩ := initEdIn_again (pool.linkTo i) i r
  refine ⟨pool', heq, ⟨?_, h.has, ?_, ?_, ?_, ?_, ?_⟩⟩
  · rw [h.base, linkTo_base]
  · intro k hk
    rw [h.others k hk, linkTo_eds]
    split_ifs <;> rfl
  · intro _ hi
    rw [h.links _ fun hlink => hlink.1, linkTo_eds, if_pos ⟨hi, by omega⟩]
  · intro k hk
    rw [h.links _ fun hlink => hlink.1, linkTo_eds, if_neg fun hlink => hk ⟨trivial, hlink.2⟩]
  · intro k
    rw [h.head, linkTo_eds]
    split_ifs <;> rfl
  · intro k
    rw [h.tail, linkTo_eds]
    split_ifs <;> rfl

theorem Changed.address {linked : Prop} (h : Changed pool pool' addressEndpoint i linked)
    (k : Nat) : pool'.address k = pool.address k := by
  rw [EdPool.address, h.base, EdPool.address]

/-- The links that stay lead where they led. -/
theorem Changed.nextInside {linked : Prop} (h : Changed pool pool' addressEndpoint i linked)
    {k : Nat} (hk : ¬(linked ∧ k + 1 = i)) : pool'.NextInside k ↔ pool.NextInside k := by
  unfold EdPool.NextInside
  simp only [h.links k hk, h.address]

theorem Changed.reached (h : Changed pool pool' addressEndpoint i False) {k : Nat} :
    pool'.Reached k ↔ pool.Reached k := by
  have hlinks : ∀ k, (pool'.eds k).nextEd = (pool.eds k).nextEd :=
    fun k => h.links k fun hlink => hlink.1
  have hinside : ∀ {k}, pool'.NextInside k ↔ pool.NextInside k :=
    h.nextInside fun hlink => hlink.1
  constructor
  · intro hreached
    induction hreached with
    | head hin => exact .head (hinside.mp hin)
    | next _ hlink hlt hin ih =>
      rw [hlinks, h.address] at hlink
      exact .next ih hlink hlt (hinside.mp hin)
  · intro hreached
    induction hreached with
    | head hin => exact .head (hinside.mpr hin)
    | next _ hlink hlt hin ih =>
      rw [← hlinks, ← h.address] at hlink
      exact .next ih hlink hlt (hinside.mpr hin)

/-! ## The invariant -/

/-- The first `n` descriptors are in use, each linked to the next one. Of the control descriptors
the first may be free again; a bulk descriptor for address 0 is the first one that is free. -/
structure Filled (control : Bool) (pool : EdPool) (returned : List Nat) (n : Nat) : Prop where
  le : n ≤ 128
  taken : ∀ i, 0 < i → i < n → (pool.eds i).addressEndpoint ≠ 0
  first : control = false → 0 < n → (pool.eds 0).addressEndpoint ≠ 0
  free : ∀ i, n ≤ i → i < 128 → (pool.eds i).addressEndpoint = 0
  linked : ∀ i, i + 1 < n → edPointer (pool.eds i).nextEd = pool.address (i + 1)
  inside : ∀ i < n, pool.NextInside i
  clear : control = true → ∀ i, n ≤ i → i < 128 → pool.NextInside i
  distinct : ∀ i < n, ∀ j < n,
    (pool.eds i).addressEndpoint = (pool.eds j).addressEndpoint → i = j
  mem : ∀ i < n, i ∈ returned
  returned : ∀ i ∈ returned, i < n ∨ i = n ∧ n < 128 ∧ pool.Reached n ∧ (control = true → n = 0)
  idle : ∀ i < 128, (pool.eds i).tdHeadPointer = (pool.eds i).tdTailPointer

theorem Filled.reached (h : Filled control pool returned n) (hlt : i < n) : pool.Reached i := by
  induction i with
  | zero => exact .head (h.inside 0 hlt)
  | succ i ih =>
    have hle := h.le
    exact .next (ih (by omega)) (h.linked i hlt) (by omega) (h.inside _ hlt)

theorem Filled.good (h : Filled control pool returned n) : Good pool returned := by
  have hspare : ∀ {i}, i < n → n < 128 → (control = true → n = 0) →
      (pool.eds i).addressEndpoint ≠ (pool.eds n).addressEndpoint := by
    intro i hi hlt hcontrol heq
    rw [h.free n le_rfl hlt] at heq
    rcases Nat.eq_zero_or_pos i with rfl | hpos
    · cases control with
      | false => exact h.first rfl hi heq
      | true => exact absurd (hcontrol rfl) (by omega)
    · exact h.taken i hpos hi heq
  refine ⟨fun i hi => ?_, fun i hi j hj heq => ?_, fun i hi _ => h.idle i hi⟩
  · rcases h.returned i hi with hlt | ⟨rfl, -, hreached, -⟩
    · exact h.reached hlt
    · exact hreached
  · rcases h.returned i hi with hi | ⟨rfl, hlt, -, hcontrol⟩ <;>
      rcases h.returned j hj with hj | ⟨rfl, hlt', -, hcontrol'⟩
    · exact h.distinct i hi j hj heq
    · exact absurd heq (hspare hi hlt' hcontrol')
    · exact absurd heq.symm (hspare hj hlt hcontrol)
    · rfl

/-! ## One request -/

/-- A descriptor in use serves the address and endpoint, which no other has. -/
theorem Filled.again (h : Filled control pool returned n)
    (hc : Changed pool pool' addressEndpoint i False) (hlt : i < n)
    (hzero : addressEndpoint ≠ 0 ∨ control = true ∧ i = 0)
    (hother : ∀ j < n, j ≠ i → (pool.eds j).addressEndpoint ≠ addressEndpoint) :
    Filled control pool' (i :: returned) n := by
  have hle := h.le
  have hin : ∀ {k}, pool'.NextInside k ↔ pool.NextInside k := hc.nextInside fun hlink => hlink.1
  constructor
  · exact hle
  · intro k hpos hk
    by_cases heq : k = i
    · rw [heq, hc.has]
      exact hzero.resolve_right fun h0 => by omega
    · rw [hc.others k heq]
      exact h.taken k hpos hk
  · intro hcontrol hpos
    by_cases heq : 0 = i
    · rw [heq, hc.has]
      exact hzero.resolve_right fun h0 => absurd (hcontrol.symm.trans h0.1) (by decide)
    · rw [hc.others 0 heq]
      exact h.first hcontrol hpos
  · intro k hk hk'
    rw [hc.others k (by omega)]
    exact h.free k hk hk'
  · intro k hk
    rw [hc.links k (fun hlink => hlink.1), hc.address]
    exact h.linked k hk
  · exact fun k hk => hin.mpr (h.inside k hk)
  · exact fun hcontrol k hk hk' => hin.mpr (h.clear hcontrol k hk hk')
  · intro k hk j hj heq
    by_cases hki : k = i <;> by_cases hji : j = i
    · rw [hki, hji]
    · rw [hki, hc.has, hc.others j hji] at heq
      exact absurd heq.symm (hother j hj hji)
    · rw [hji, hc.has, hc.others k hki] at heq
      exact absurd heq (hother k hk hki)
    · rw [hc.others k hki, hc.others j hji] at heq
      exact h.distinct k hk j hj heq
  · exact fun k hk => List.mem_cons_of_mem _ (h.mem k hk)
  · intro k hk
    rcases List.mem_cons.mp hk with rfl | hk
    · exact .inl hlt
    · exact (h.returned k hk).imp_right fun ⟨hkn, hn, hreached, hcontrol⟩ =>
        ⟨hkn, hn, hc.reached.mpr hreached, hcontrol⟩
  · intro k hk
    rw [hc.head, hc.tail]
    exact h.idle k hk

/-- The first free descriptor serves address 0, and stays free. -/
theorem Filled.spare (h : Filled control pool returned n) (hc : Changed pool pool' 0 n False)
    (hlt : n < 128) (hreached : pool.Reached n) (hcontrol : control = true → n = 0) :
    Filled control pool' (n :: returned) n := by
  have hin : ∀ {k}, pool'.NextInside k ↔ pool.NextInside k := hc.nextInside fun hlink => hlink.1
  have hfield : ∀ k, (pool'.eds k).addressEndpoint = (pool.eds k).addressEndpoint := by
    intro k
    by_cases heq : k = n
    · rw [heq, hc.has, h.free n le_rfl hlt]
    · exact hc.others k heq
  constructor
  · exact h.le
  · exact fun k hpos hk => hfield k ▸ h.taken k hpos hk
  · exact fun hfalse hpos => hfield 0 ▸ h.first hfalse hpos
  · exact fun k hk hk' => (hfield k).trans (h.free k hk hk')
  · intro k hk
    rw [hc.links k (fun hlink => hlink.1), hc.address]
    exact h.linked k hk
  · exact fun k hk => hin.mpr (h.inside k hk)
  · exact fun htrue k hk hk' => hin.mpr (h.clear htrue k hk hk')
  · intro k hk j hj heq
    rw [hfield, hfield] at heq
    exact h.distinct k hk j hj heq
  · exact fun k hk => List.mem_cons_of_mem _ (h.mem k hk)
  · intro k hk
    have hspare := hc.reached.mpr hreached
    rcases List.mem_cons.mp hk with rfl | hk
    · exact .inr ⟨rfl, hlt, hspare, hcontrol⟩
    · exact (h.returned k hk).imp_right fun ⟨hkn, hn, _, _⟩ => ⟨hkn, hn, hspare, hcontrol⟩
  · intro k hk
    rw [hc.head, hc.tail]
    exact h.idle k hk

/-- The first free descriptor is linked behind the others. -/
theorem Filled.grow (h : Filled control pool returned n)
    (hc : Changed pool pool' addressEndpoint n True) (hlt : n < 128) (hne : addressEndpoint ≠ 0)
    (hother : ∀ j < n, (pool.eds j).addressEndpoint ≠ addressEndpoint)
    (hinside : pool.NextInside n) : Filled control pool' (n :: returned) (n + 1) := by
  have hin : ∀ {k}, k + 1 ≠ n → pool.NextInside k → pool'.NextInside k :=
    fun hk hinside => (hc.nextInside fun hlink => hk hlink.2).mpr hinside
  have hback : ∀ k, k + 1 = n → edPointer (pool'.eds k).nextEd = pool'.address n := by
    rintro k rfl
    have hlink := hc.link trivial (Nat.succ_pos k)
    rw [Nat.add_sub_cancel] at hlink
    have haligned := pool.aligned
    rw [hlink, hc.address]
    simp only [edPointer, EdPool.address]
    omega
  have htaken : ∀ k < n + 1, (k < n → (pool.eds k).addressEndpoint ≠ 0) →
      (pool'.eds k).addressEndpoint ≠ 0 := by
    intro k hk htaken
    by_cases heq : k = n
    · rw [heq, hc.has]
      exact hne
    · rw [hc.others k heq]
      exact htaken (by omega)
  constructor
  · omega
  · exact fun k hpos hk => htaken k hk (h.taken k hpos)
  · exact fun hfalse hpos => htaken 0 hpos (h.first hfalse)
  · intro k hk hk'
    rw [hc.others k (by omega)]
    exact h.free k (by omega) hk'
  · intro k hk
    by_cases heq : k + 1 = n
    · rw [heq]
      exact hback k heq
    · rw [hc.links k fun hlink => heq hlink.2, hc.address]
      exact h.linked k (by omega)
  · intro k hk
    by_cases heq : k + 1 = n
    · exact .inr ⟨n, hlt, hback k heq⟩
    · refine hin heq ?_
      by_cases hkn : k = n
      · exact hkn ▸ hinside
      · exact h.inside k (by omega)
  · exact fun htrue k hk hk' => hin (by omega) (h.clear htrue k (by omega) hk')
  · intro k hk j hj heq
    by_cases hkn : k = n <;> by_cases hjn : j = n
    · rw [hkn, hjn]
    · rw [hkn, hc.has, hc.others j hjn] at heq
      exact absurd heq.symm (hother j (by omega))
    · rw [hjn, hc.has, hc.others k hkn] at heq
      exact absurd heq (hother k (by omega))
    · rw [hc.others k hkn, hc.others j hjn] at heq
      exact h.distinct k (by omega) j (by omega) heq
  · intro k hk
    rcases Nat.lt_succ_iff_lt_or_eq.mp hk with hk | rfl
    · exact List.mem_cons_of_mem _ (h.mem k hk)
    · exact List.mem_cons_self
  · intro k hk
    left
    rcases List.mem_cons.mp hk with rfl | hk
    · exact Nat.lt_succ_self _
    · rcases h.returned k hk with hk | ⟨rfl, -⟩ <;> omega
  · intro k hk
    rw [hc.head, hc.tail]
    exact h.idle k hk

/-- Where the first free descriptor is. -/
theorem Filled.firstFree (h : Filled control pool returned n) (hlt : i < 128)
    (hfree : FirstFree pool addressEndpoint i) :
    i = n ∨ i < n ∧ control = true ∧ i = 0 := by
  rcases Nat.lt_trichotomy i n with hi | rfl | hi
  · right
    rcases Nat.eq_zero_or_pos i with rfl | hpos
    · cases control with
      | false => exact absurd hfree.1 (h.first rfl hi)
      | true => exact ⟨hi, rfl, rfl⟩
    · exact absurd hfree.1 (h.taken i hpos hi)
  · exact .inl rfl
  · exact absurd (h.free n le_rfl (by omega)) (hfree.2 n hi).2

theorem Filled.all_returned (h : Filled control pool returned n)
    (hall : ∀ k < 128, (pool.eds k).addressEndpoint ≠ 0) : ∀ k < 128, k ∈ returned := by
  have hn : n = 128 := by
    by_contra hne
    have hlt : n < 128 := lt_of_le_of_ne h.le hne
    exact hall n hlt (h.free n le_rfl hlt)
  exact hn ▸ h.mem

theorem Filled.found_lt (h : Filled control pool returned n) (hlt : i < 128)
    (hhas : (pool.eds i).addressEndpoint ≠ 0) : i < n := by
  by_contra hle
  exact hhas (h.free i (by omega) hlt)

/-- The first control descriptor, when address 0 had it last, does not go to an address and endpoint
that has another one. -/
def ControlOk (pool : EdPool) (addressEndpoint : BitVec 32) : Prop :=
  addressEndpoint ≠ 0 → (pool.eds 0).addressEndpoint = 0 →
    ∀ i, 0 < i → i < 128 → (pool.eds i).addressEndpoint ≠ addressEndpoint

/-- The bulk descriptor that is given away for the first time is in the list already when it goes to
address 0, and its `next_ed` does not lead outside the pool. -/
def BulkOk (pool : EdPool) (addressEndpoint : BitVec 32) : Prop :=
  ∀ i < 128, FirstFree pool addressEndpoint i →
    if addressEndpoint = 0 then pool.Reached i else pool.NextInside i

/-- What a request comes to: null only if all is given away, and then the invariant if it is a good
one. -/
structure Answer (control : Bool) (pool : EdPool) (returned : List Nat) (ok : Prop)
    (out : EdPool × Option Nat) : Prop where
  full : out.2 = none → ∀ k < 128, k ∈ returned
  filled : ok → ∃ n, Filled control out.1 (out.2.toList ++ returned) n
  ok_of_good : Good out.1 (out.2.toList ++ returned) → ok

theorem Changed.first (h : Changed pool pool' addressEndpoint 0 True) :
    Changed pool pool' addressEndpoint 0 False where
  base := h.base
  has := h.has
  others := h.others
  link hlink := hlink.elim
  links k _ := h.links k (by omega)
  head := h.head
  tail := h.tail

theorem Filled.answer_again {ok : Prop} (h : Filled control pool returned n) (r : Request)
    (hlt : i < n) (hzero : r.addressEndpoint ≠ 0 ∨ control = true ∧ i = 0)
    (hother : ∀ j < n, j ≠ i → (pool.eds j).addressEndpoint ≠ r.addressEndpoint) (hok : ok) :
    Answer control pool returned ok (initEdIn (pool, some i) r) := by
  obtain ⟨pool', heq, hc⟩ := initEdIn_again pool i r
  rw [heq]
  exact ⟨by simp, fun _ => ⟨n, h.again hc hlt hzero hother⟩, fun _ => hok⟩

theorem Filled.answer_control (h : Filled true pool returned n) (r : Request) :
    Answer true pool returned (ControlOk pool r.addressEndpoint) (initControlEd pool r) := by
  unfold initControlEd
  by_cases hzero : r.addressEndpoint = 0
  · have hok : ControlOk pool r.addressEndpoint := fun hne => absurd hzero hne
    rw [if_pos hzero]
    rcases Nat.eq_zero_or_pos n with rfl | hpos
    · obtain ⟨pool', heq, hc⟩ := initEdIn_again pool 0 r
      rw [heq]
      rw [hzero] at hc
      have hinside := h.clear rfl 0 le_rfl (by omega)
      exact ⟨by simp, fun _ => ⟨0, h.spare hc (by omega) (.head hinside) fun _ => rfl⟩,
        fun _ => hok⟩
    · refine h.answer_again r hpos (.inr ⟨rfl, rfl⟩) (fun j hj hne => ?_) hok
      rw [hzero]
      exact h.taken j (by omega) hj
  · rw [if_neg hzero]
    have halloc := blOhciAllocEd_cases pool blOhciNumControlEds r.addressEndpoint
    generalize blOhciAllocEd pool blOhciNumControlEds r.addressEndpoint = alloc at halloc ⊢
    cases halloc with
    | found i hlt hhas hbefore =>
      have hi := h.found_lt hlt (hhas ▸ hzero)
      refine h.answer_again r hi (.inl hzero) (fun j hj hne heq => ?_) fun _ hfirst => ?_
      · exact hne (h.distinct j hj i hi (heq.trans hhas.symm))
      · rcases Nat.eq_zero_or_pos i with rfl | hpos
        · exact absurd (hhas.symm.trans hfirst) hzero
        · exact absurd hfirst (hbefore 0 hpos).2
    | free i hlt hne hfree =>
      obtain ⟨pool', heq, hc⟩ := initEdIn_linked pool i r
      rw [heq]
      rcases h.firstFree hlt hfree with rfl | ⟨hi, -, rfl⟩
      · have hother : ∀ j < i, (pool.eds j).addressEndpoint ≠ r.addressEndpoint :=
          fun j hj => (hfree.2 j hj).1
        refine ⟨by simp, fun _ => ⟨i + 1, h.grow hc hlt hne hother (h.clear rfl i le_rfl hlt)⟩,
          fun _ _ hfirst j hj hj' => ?_⟩
        by_cases hji : j < i
        · exact hother j hji
        · rw [h.free j (by omega) hj']
          exact hne.symm
      · refine ⟨by simp, fun hok => ⟨n, h.again hc.first hi (.inl hne) fun j hj hj0 => ?_⟩,
          fun hgood _ _ j hj hj' heq => ?_⟩
        · exact hok hne hfree.1 j (by omega) (lt_of_lt_of_le hj h.le)
        · have hjn := h.found_lt hj' (heq ▸ hne)
          have hsame := hgood.single 0 List.mem_cons_self j (List.mem_cons_of_mem _ (h.mem j hjn))
          rw [hc.has, hc.others j (by omega)] at hsame
          exact absurd (hsame heq.symm) (by omega)
    | full hall =>
      refine ⟨fun _ => h.all_returned fun k hk => (hall k hk).2, fun _ => ⟨n, h⟩,
        fun _ _ hfirst => absurd hfirst (hall 0 (by decide)).2⟩

theorem Filled.answer_bulk (h : Filled false pool returned n) (r : Request) :
    Answer false pool returned (BulkOk pool r.addressEndpoint) (initBulkEd pool r) := by
  unfold initBulkEd
  have hfree_iff : ∀ {i}, i < 128 → FirstFree pool r.addressEndpoint i → i = n := by
    intro i hlt hfree
    exact (h.firstFree hlt hfree).resolve_right fun hi => by simp at hi
  have halloc := blOhciAllocEd_cases pool blOhciNumBulkEds r.addressEndpoint
  generalize blOhciAllocEd pool blOhciNumBulkEds r.addressEndpoint = alloc at halloc ⊢
  cases halloc with
  | found i hlt hhas hbefore =>
    by_cases hzero : r.addressEndpoint = 0
    · have hfree : FirstFree pool r.addressEndpoint i := ⟨hhas.trans hzero, hbefore⟩
      obtain rfl := hfree_iff hlt hfree
      obtain ⟨pool', heq, hc⟩ := initEdIn_again pool i r
      rw [heq]
      have hok : BulkOk pool r.addressEndpoint ↔ pool.Reached i := by
        unfold BulkOk
        simp only [hzero, if_true] at hfree_iff hfree ⊢
        exact ⟨fun hok => hok i hlt hfree,
          fun hreached j hj hfree' => hfree_iff hj hfree' ▸ hreached⟩
      rw [hok]
      rw [hzero] at hc
      exact ⟨by simp, fun hreached => ⟨i, h.spare hc hlt hreached (by simp)⟩,
        fun hgood => hc.reached.mp (hgood.reached i List.mem_cons_self)⟩
    · have hi := h.found_lt hlt (hhas ▸ hzero)
      refine h.answer_again r hi (.inl hzero) (fun j hj hne heq => ?_) fun j hj hfree => ?_
      · exact hne (h.distinct j hj i hi (heq.trans hhas.symm))
      · obtain rfl := hfree_iff hj hfree
        exact absurd hhas (hfree.2 i hi).1
  | free i hlt hne hfree =>
    obtain ⟨pool', heq, hc⟩ := initEdIn_linked pool i r
    rw [heq]
    obtain rfl := hfree_iff hlt hfree
    refine ⟨by simp, fun hok => ⟨i + 1, h.grow hc hlt hne (fun j hj => (hfree.2 j hj).1) ?_⟩,
      fun hgood j hj hfree' => ?_⟩
    · have hinside := hok i hlt hfree
      rwa [if_neg hne] at hinside
    · obtain rfl := hfree_iff hj hfree'
      rw [if_neg hne]
      exact (hc.nextInside (by omega)).mp (hgood.reached j List.mem_cons_self).inside
  | full hall =>
    exact ⟨fun _ => h.all_returned fun k hk => (hall k hk).2, fun _ => ⟨n, h⟩,
      fun _ j hj hfree => absurd hfree.1 (hall j hj).2⟩

/-! ## Whole runs -/

/-- The controller, and the descriptors that were handed out of each pool. -/
structure Run where
  ohci : BlOhciController
  controlEds : List Nat
  bulkEds : List Nat

def Run.step (s : Run) (r : Request) : Run × Option Nat :=
  let (ohci, ed) := blOhciInitEd s.ohci r
  match r.transfer with
  | .control => ({ s with ohci, controlEds := ed.toList ++ s.controlEds }, ed)
  | .bulk => ({ s with ohci, bulkEds := ed.toList ++ s.bulkEds }, ed)
  | _ => (s, none)

structure Run.Good (s : Run) : Prop where
  control : Endpoints.Good s.ohci.controlEds s.controlEds
  bulk : Endpoints.Good s.ohci.bulkEds s.bulkEds

/-- Every descriptor of the pool was handed out. -/
def Run.Full (s : Run) : BlUsbTransfer → Prop
  | .control => ∀ k < 128, k ∈ s.controlEds
  | .bulk => ∀ k < 128, k ∈ s.bulkEds
  | _ => True

def Run.Ok (s : Run) (r : Request) : Prop :=
  match r.transfer with
  | .control => ControlOk s.ohci.controlEds r.addressEndpoint
  | .bulk => BulkOk s.ohci.bulkEds r.addressEndpoint
  | _ => True

/-- The lists are good before and after each request, and it is refused only by a full pool. -/
def AlwaysGood : List Request → Run → Prop
  | [], s => s.Good
  | r :: rs, s => s.Good ∧ ((s.step r).2 = none → s.Full r.transfer) ∧ AlwaysGood rs (s.step r).1

def StepsOk : List Request → Run → Prop
  | [], _ => True
  | r :: rs, s => s.Ok r ∧ StepsOk rs (s.step r).1

structure Run.Filled (s : Run) : Prop where
  control : ∃ n, Endpoints.Filled true s.ohci.controlEds s.controlEds n
  bulk : ∃ n, Endpoints.Filled false s.ohci.bulkEds s.bulkEds n

theorem Run.Filled.good {s : Run} (h : s.Filled) : s.Good := by
  obtain ⟨⟨_, hcontrol⟩, ⟨_, hbulk⟩⟩ := h
  exact ⟨hcontrol.good, hbulk.good⟩

theorem Run.Filled.step {s : Run} (h : s.Filled) (r : Request) :
    ((s.step r).2 = none → s.Full r.transfer) ∧ (s.Ok r → (s.step r).1.Filled) ∧
      ((s.step r).1.Good → s.Ok r) := by
  obtain ⟨⟨n, hcontrol⟩, ⟨m, hbulk⟩⟩ := h
  have hc := hcontrol.answer_control r
  have hb := hbulk.answer_bulk r
  unfold Run.step Run.Ok Run.Full blOhciInitEd
  cases r.transfer with
  | control => exact ⟨hc.full, fun hok => ⟨hc.filled hok, m, hbulk⟩, fun hg => hc.ok_of_good hg.1⟩
  | bulk =>
    exact ⟨hb.full, fun hok => ⟨⟨n, hcontrol⟩, hb.filled hok⟩, fun hg => hb.ok_of_good hg.2⟩
  | interrupt => exact ⟨fun _ => trivial, fun _ => ⟨⟨n, hcontrol⟩, m, hbulk⟩, fun _ => trivial⟩
  | isochronous => exact ⟨fun _ => trivial, fun _ => ⟨⟨n, hcontrol⟩, m, hbulk⟩, fun _ => trivial⟩

theorem AlwaysGood.good {s : Run} {rs : List Request} (h : AlwaysGood rs s) : s.Good := by
  cases rs with
  | nil => exact h
  | cons r rs => exact h.1

theorem alwaysGood_iff {s : Run} (h : s.Filled) (rs : List Request) :
    AlwaysGood rs s ↔ StepsOk rs s := by
  induction rs generalizing s with
  | nil => exact iff_of_true h.good trivial
  | cons r rs ih =>
    obtain ⟨hfull, hfilled, hok⟩ := h.step r
    constructor
    · rintro ⟨-, -, hrest⟩
      have hok := hok hrest.good
      exact ⟨hok, (ih (hfilled hok)).mp hrest⟩
    · rintro ⟨hok, hrest⟩
      exact ⟨h.good, hfull, (ih (hfilled hok)).mpr hrest⟩

/-- Nothing was handed out since the pools were set up over what the memory held. -/
def started (controlEds bulkEds : EdPool) : Run :=
  ⟨blOhciInitDataStructures controlEds bulkEds, [], []⟩

theorem filled_started {n : Nat} (h : ∀ i < 128, (pool.eds i).addressEndpoint = 0)
    (hclear : control = true → ∀ i < 128, (pool.eds i).nextEd = 0)
    (hidle : ∀ i < 128, (pool.eds i).tdHeadPointer = (pool.eds i).tdTailPointer) (hn : n = 0) :
    Filled control pool [] n := by
  subst hn
  constructor
  · omega
  · exact fun i _ hi => absurd hi (Nat.not_lt_zero i)
  · exact fun _ hpos => absurd hpos (Nat.lt_irrefl 0)
  · exact fun i _ hi => h i hi
  · exact fun i hi => absurd hi (Nat.not_lt_zero _)
  · exact fun i hi => absurd hi (Nat.not_lt_zero i)
  · intro hcontrol i _ hi
    left
    rw [hclear hcontrol i hi]
    rfl
  · exact fun i hi => absurd hi (Nat.not_lt_zero i)
  · exact fun i hi => absurd hi (Nat.not_lt_zero i)
  · exact fun i hi => absurd hi List.not_mem_nil
  · exact hidle

theorem flags_skip (ed : BlOhciEd) :
    ({ ed with flags := blOhciEdFlagsSkip } : BlOhciEd).addressEndpoint = 0 := by
  change blOhciEdFlagsSkip &&& blOhciEdFlagsAddressEndpoint = 0
  decide

/-- **When the endpoint lists are good** in every state of a run: the pointers of each bulk
descriptor were the same in the memory that was there before, and every request is a good one. -/
theorem endpoint_lists_good_iff (controlEds bulkEds : EdPool) (rs : List Request) :
    AlwaysGood rs (started controlEds bulkEds) ↔
      (∀ i < 128, (bulkEds.eds i).tdHeadPointer = (bulkEds.eds i).tdTailPointer) ∧
        StepsOk rs (started controlEds bulkEds) := by
  have hbulk : ∀ i < 128, (blOhciInitDataStructures controlEds bulkEds).bulkEds.eds i =
      { bulkEds.eds i with flags := blOhciEdFlagsSkip } := fun i hi => if_pos hi
  have hcontrol : ∀ i < 128, (blOhciInitDataStructures controlEds bulkEds).controlEds.eds i =
      clearPointers { controlEds.eds i with flags := blOhciEdFlagsSkip } := by
    intro i hi
    simp [blOhciInitDataStructures, EdPool.forEach, clearPointers, blOhciNumControlEds,
      blOhciNumBulkEds, hi]
  have hfilled : (∀ i < 128, (bulkEds.eds i).tdHeadPointer = (bulkEds.eds i).tdTailPointer) →
      (started controlEds bulkEds).Filled := by
    intro hidle
    refine ⟨⟨0, filled_started (fun i hi => ?_) (fun _ i hi => ?_) (fun i hi => ?_) rfl⟩, 0,
      filled_started (fun i hi => ?_) (by simp) (fun i hi => ?_) rfl⟩
    · exact (congrArg BlOhciEd.addressEndpoint (hcontrol i hi)).trans
        (flags_skip (controlEds.eds i))
    · exact congrArg BlOhciEd.nextEd (hcontrol i hi)
    · exact (congrArg BlOhciEd.tdHeadPointer (hcontrol i hi)).trans
        (congrArg BlOhciEd.tdTailPointer (hcontrol i hi)).symm
    · exact (congrArg BlOhciEd.addressEndpoint (hbulk i hi)).trans (flags_skip _)
    · have hhead := congrArg BlOhciEd.tdHeadPointer (hbulk i hi)
      have htail := congrArg BlOhciEd.tdTailPointer (hbulk i hi)
      exact (hhead.trans (hidle i hi)).trans htail.symm
  constructor
  · intro hall
    have hidle : ∀ i < 128, (bulkEds.eds i).tdHeadPointer = (bulkEds.eds i).tdTailPointer := by
      intro i hi
      have := hall.good.bulk.idle i hi List.not_mem_nil
      rwa [started, hbulk i hi] at this
    exact ⟨hidle, (alwaysGood_iff (hfilled hidle) rs).mp hall⟩
  · rintro ⟨hidle, hok⟩
    exact (alwaysGood_iff (hfilled hidle) rs).mpr hok

/-- Control transfers to endpoint 0 of a device. -/
def toDevice (address : BitVec 32) : Request := ⟨.control, address, 0, false, 8⟩

def zeroPool : EdPool := ⟨0x1000, by decide, fun _ => ⟨0, 0, 0, 0⟩⟩

/-- The second time that address 0 was served, the first descriptor goes to device 1 once more,
which has the second. -/
theorem two_descriptors_for_one_endpoint :
    ¬ ∀ controlEds bulkEds rs, AlwaysGood rs (started controlEds bulkEds) := by
  intro h
  have hall := h zeroPool zeroPool
    [toDevice 1, toDevice 0, toDevice 2, toDevice 1, toDevice 0, toDevice 1]
  obtain ⟨-, -, -, -, -, -, -, -, -, -, -, -, hgood⟩ := hall
  have htwo := hgood.control.single 0 (by decide) 1 (by decide) (by decide)
  exact absurd htwo (by decide)

end BootLoader.Ohci.Endpoints
