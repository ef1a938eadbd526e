import BootLoader.File.Code
import BootLoader.Lib.Tokens

/-! # `bl_strtok` on the copy of a path -/

open ByteMemory Tokens

namespace BootLoader.File

variable {σ φ : Type} (env : FsEnv σ φ)

/-! ## Scans -/

theorem blIsdelim_iff (c : Byte) : blIsdelim c = true ↔ c = blPathDelimiter := by
  simp [blIsdelim]

theorem blPathDelimiter_ne_zero : blPathDelimiter ≠ 0 := by decide

theorem skipDelims_eq {bytes : Mem} {i k fuel : Nat}
    (h : HasBytes bytes i (List.replicate k blPathDelimiter))
    (hstop : bytes (i + k) ≠ blPathDelimiter) (hfuel : k < fuel) :
    skipDelims bytes fuel i = some (i + k) := by
  induction k generalizing i fuel with
  | zero =>
    obtain ⟨fuel, rfl⟩ := Nat.exists_eq_succ_of_ne_zero (by omega : fuel ≠ 0)
    rw [skipDelims, if_neg (by rwa [blIsdelim_iff]), Nat.add_zero]
  | succ k ih =>
    obtain ⟨fuel, rfl⟩ := Nat.exists_eq_succ_of_ne_zero (by omega : fuel ≠ 0)
    rw [List.replicate_succ] at h
    obtain ⟨hhead, hrest⟩ := h
    rw [show i + (k + 1) = i + 1 + k by omega] at hstop ⊢
    rw [skipDelims, if_pos ((blIsdelim_iff _).mpr hhead), ih hrest hstop (by omega)]

theorem tokenEnd_eq {bytes : Mem} {i fuel : Nat} {c : List Byte} (h : HasBytes bytes i c)
    (hnul : (0 : Byte) ∉ c) (hsep : blPathDelimiter ∉ c)
    (hstop : bytes (i + c.length) = 0 ∨ bytes (i + c.length) = blPathDelimiter)
    (hfuel : c.length < fuel) : tokenEnd bytes fuel i = some (i + c.length) := by
  induction c generalizing i fuel with
  | nil =>
    obtain ⟨fuel, rfl⟩ := Nat.exists_eq_succ_of_ne_zero (by omega : fuel ≠ 0)
    rw [tokenEnd, if_neg (by rw [blIsdelim_iff]; tauto)]
    rfl
  | cons b c ih =>
    obtain ⟨fuel, rfl⟩ := Nat.exists_eq_succ_of_ne_zero (by omega : fuel ≠ 0)
    obtain ⟨hhead, hrest⟩ := h
    rw [List.mem_cons, not_or] at hnul hsep
    rw [List.length_cons] at hfuel
    rw [List.length_cons, show i + (c.length + 1) = i + 1 + c.length by omega] at hstop ⊢
    have hgo : bytes i ≠ 0 ∧ ¬blIsdelim (bytes i) := by
      rw [hhead, blIsdelim_iff]
      exact ⟨Ne.symm hnul.1, Ne.symm hsep.1⟩
    rw [tokenEnd, if_pos hgo, ih hrest hnul.2 hsep.2 hstop (by omega)]

theorem tokenEnd_ge {bytes : Mem} {fuel i stop : Nat} (h : tokenEnd bytes fuel i = some stop) :
    i ≤ stop := by
  induction fuel generalizing i with
  | zero => cases h
  | succ fuel ih =>
    rw [tokenEnd] at h
    split at h
    · exact Nat.le_of_succ_le (ih h)
    · cases h
      exact Nat.le_refl _

theorem stringAt_eq {bytes : Mem} {i fuel : Nat} {c : List Byte} (h : HasBytes bytes i (c ++ [0]))
    (hnul : (0 : Byte) ∉ c) (hfuel : c.length < fuel) : stringAt bytes fuel i = some c := by
  induction c generalizing i fuel with
  | nil =>
    obtain ⟨fuel, rfl⟩ := Nat.exists_eq_succ_of_ne_zero (by omega : fuel ≠ 0)
    rw [stringAt, if_pos h.1]
  | cons b c ih =>
    obtain ⟨fuel, rfl⟩ := Nat.exists_eq_succ_of_ne_zero (by omega : fuel ≠ 0)
    obtain ⟨hhead, hrest⟩ := h
    rw [List.mem_cons, not_or] at hnul
    rw [List.length_cons] at hfuel
    rw [stringAt, if_neg (by rw [hhead]; exact Ne.symm hnul.1), ih hrest hnul.2 (by omega), hhead]
    rfl

/-! ## Bytes of the copy -/

theorem byteAt_behind (world : σ) (t : Tokenizer) (i : Nat) :
    byteAt env world t (t.len + 1 + i) = env.behind world i := by
  rw [byteAt, if_neg (by omega), Nat.add_sub_cancel_left]

theorem hasBytes_byteAt {world : σ} {t : Tokenizer} {i : Nat} {bs : List Byte}
    (h : HasBytes t.copy i bs) (hlen : i + bs.length ≤ t.len + 1) :
    HasBytes (byteAt env world t) i bs := by
  induction bs generalizing i with
  | nil => trivial
  | cons b bs ih =>
    obtain ⟨hhead, hrest⟩ := h
    rw [List.length_cons] at hlen
    refine ⟨?_, ih hrest (by omega)⟩
    rw [byteAt, if_pos (by omega), hhead]

theorem mem_of_hasBytes {m : Mem} {i : Nat} {bs : List Byte} (h : HasBytes m i bs)
    (hne : bs ≠ []) : m i ∈ bs := by
  obtain ⟨b, rest, rfl⟩ := List.exists_cons_of_ne_nil hne
  rw [h.1]
  exact List.mem_cons_self

theorem hasBytes_store {m : Mem} {i x : Nat} {v : Byte} {bs : List Byte} (h : HasBytes m i bs)
    (hx : x < i ∨ i + bs.length ≤ x) : HasBytes (store m x v) i bs := by
  induction bs generalizing i with
  | nil => trivial
  | cons b bs ih =>
    obtain ⟨hhead, hrest⟩ := h
    rw [List.length_cons] at hx
    refine ⟨?_, ih hrest (by omega)⟩
    rw [store_other _ _ (by omega), hhead]

theorem hasBytes_getD (l : List Byte) (i : Nat) (bs : List Byte) (h : l.drop i = bs) :
    HasBytes (fun i => l.getD i 0) i (bs ++ [0]) := by
  induction bs generalizing i with
  | nil =>
    have hlen : l.length ≤ i := List.drop_eq_nil_iff.mp h
    exact ⟨List.getD_eq_default _ _ hlen, trivial⟩
  | cons b bs ih =>
    have hlt : i < l.length := by
      by_contra hlen
      rw [List.drop_eq_nil_of_le (by omega)] at h
      exact absurd h.symm (List.cons_ne_nil b bs)
    rw [List.drop_eq_getElem_cons hlt, List.cons.injEq] at h
    refine ⟨?_, ih (i + 1) h.2⟩
    simp only [List.getD_eq_getElem _ _ hlt]
    exact h.1

/-! ## One call -/

/-- What `bl_strtok` has still to scan: a text inside the copy, or (`none`) nothing of it, the
pointer being behind the terminator. -/
def Remaining (t : Tokenizer) : Option (List Byte) → Prop
  | some rest =>
    HasBytes t.copy t.str (rest ++ [0]) ∧ (0 : Byte) ∉ rest ∧ t.str + rest.length = t.len
  | none => t.str = t.len + 1

theorem remaining_start (path : CString) : Remaining (Tokenizer.start path.1) (some path.1) :=
  ⟨hasBytes_getD path.1 0 path.1 rfl, path.2, Nat.zero_add _⟩

/-- The components that are left. -/
def componentsLeft (tail : Option (List Byte)) : List (List Byte) :=
  tokens blPathDelimiter (tail.getD [])

/-- A token `c` has been found at `start`, and `tail` is left behind it. -/
structure AtToken (t : Tokenizer) (start : Nat) (c : List Byte) (tail : Option (List Byte)) :
    Prop where
  bytes : HasBytes t.copy start (c ++ [0])
  noNul : (0 : Byte) ∉ c
  inside : start + c.length ≤ t.len
  before : start + c.length < t.str
  left : Remaining t tail

theorem endsInDelimiter_cons {rest : List Byte} (hne : rest ≠ []) (b : Byte) :
    endsInDelimiter (b :: rest) = endsInDelimiter rest := by
  rw [endsInDelimiter, endsInDelimiter, List.getLast?_cons,
    List.getLast?_eq_some_getLast hne]
  rfl

/-- What the call did to a tokenizer: the bytes before the pointer are as they were. -/
structure Advanced (t t' : Tokenizer) : Prop where
  len : t'.len = t.len
  str : t.str ≤ t'.str
  before : ∀ i < t.str, t'.copy i = t.copy i

theorem hasBytes_advanced {t t' : Tokenizer} (h : Advanced t t') {i : Nat} {bs : List Byte}
    (hbytes : HasBytes t.copy i bs) (hlt : i + bs.length ≤ t.str) : HasBytes t'.copy i bs := by
  induction bs generalizing i with
  | nil => trivial
  | cons b bs ih =>
    obtain ⟨hhead, hrest⟩ := hbytes
    rw [List.length_cons] at hlt
    refine ⟨?_, ih hrest (by omega)⟩
    rw [h.before i (by omega), hhead]

theorem blStrtok_end {t : Tokenizer} {rest : List Byte} {fuel : Nat} (world : σ)
    (h : Remaining t (some rest)) (hfuel : t.len < fuel)
    (hnone : tokens blPathDelimiter rest = []) :
    ∃ t', blStrtok env fuel world t = some (world, t', none) ∧ Advanced t t' := by
  obtain ⟨hbytes, -, hlen⟩ := h
  obtain ⟨k, rfl | ⟨c, tail, rfl, hne, hsep, htail⟩⟩ :=
    exists_first_token blPathDelimiter rest
  · rw [List.length_replicate] at hlen
    have hall : HasBytes (byteAt env world t) t.str (List.replicate k blPathDelimiter ++ [0]) := by
      apply hasBytes_byteAt env hbytes
      simp only [List.length_append, List.length_replicate, List.length_singleton]
      omega
    obtain ⟨hseps, hend, -⟩ := hasBytes_append.mp hall
    rw [List.length_replicate] at hend
    have hskip := skipDelims_eq hseps
      (by rw [hend]; exact blPathDelimiter_ne_zero.symm) (by omega : k < fuel)
    refine ⟨{ t with str := t.str + k }, ?_, rfl, Nat.le_add_right _ _, fun _ _ => rfl⟩
    simp only [blStrtok, hskip, hend, if_true]
  · rw [tokens_replicate_append] at hnone
    obtain rfl | ⟨rest, rfl⟩ := htail
    · rw [List.append_nil, tokens_self hne hsep] at hnone
      exact absurd hnone (List.cons_ne_nil _ _)
    · rw [tokens_append_sep hne hsep] at hnone
      exact absurd hnone (List.cons_ne_nil _ _)

/-- The token that ends at `stop` is cut off. -/
def Tokenizer.cut (t : Tokenizer) (stop : Nat) : Tokenizer :=
  { t with copy := store t.copy stop 0, str := stop + 1 }

theorem cut_advanced {t : Tokenizer} {stop : Nat} (h : t.str ≤ stop) : Advanced t (t.cut stop) :=
  ⟨rfl, Nat.le_succ_of_le h, fun _ hi => store_other _ _ (Nat.ne_of_lt (Nat.lt_of_lt_of_le hi h))⟩

theorem hasBytes_parts {m : Mem} {i k : Nat} {c tail : List Byte}
    (h : HasBytes m i (List.replicate k blPathDelimiter ++ (c ++ tail) ++ [0])) :
    HasBytes m i (List.replicate k blPathDelimiter) ∧ HasBytes m (i + k) c ∧
      HasBytes m (i + k + c.length) (tail ++ [0]) := by
  rw [List.append_assoc, List.append_assoc, hasBytes_append, List.length_replicate,
    hasBytes_append] at h
  exact h

/-- The token in the copy is ended by the byte that is written. -/
theorem cut_token {t : Tokenizer} {start : Nat} {c : List Byte} (h : HasBytes t.copy start c) :
    HasBytes (t.cut (start + c.length)).copy start (c ++ [0]) := by
  rw [hasBytes_append]
  exact ⟨hasBytes_store h (.inr (Nat.le_refl _)), store_same _ _ _, trivial⟩

theorem blStrtok_token {t : Tokenizer} {k fuel : Nat} {c tail : List Byte} (world : σ)
    (hbytes : HasBytes t.copy t.str (List.replicate k blPathDelimiter ++ (c ++ tail) ++ [0]))
    (hlen : t.str + (k + (c.length + tail.length)) = t.len) (hfuel : t.len < fuel)
    (hnul : (0 : Byte) ∉ c) (hne : c ≠ []) (hsep : blPathDelimiter ∉ c)
    (htail : tail = [] ∨ ∃ r, tail = blPathDelimiter :: r) :
    blStrtok env fuel world t =
      some (world, t.cut (t.str + k + c.length), some (t.str + k)) := by
  have hall : HasBytes (byteAt env world t) t.str
      (List.replicate k blPathDelimiter ++ (c ++ tail) ++ [0]) := by
    apply hasBytes_byteAt env hbytes
    simp only [List.length_append, List.length_replicate, List.length_singleton]
    omega
  obtain ⟨hseps, htoken, hbehind⟩ := hasBytes_parts hall
  have hfirst := mem_of_hasBytes htoken hne
  have hskip := skipDelims_eq hseps (fun h => hsep (h ▸ hfirst)) (by omega : k < fuel)
  have hstop : tokenEnd (byteAt env world t) fuel (t.str + k) = some (t.str + k + c.length) := by
    apply tokenEnd_eq htoken hnul hsep _ (by omega)
    obtain rfl | ⟨r, rfl⟩ := htail
    · exact .inl hbehind.1
    · exact .inr hbehind.1
  have hstart : byteAt env world t (t.str + k) ≠ 0 := fun h => hnul (h ▸ hfirst)
  simp only [blStrtok, hskip, hstop, if_neg hstart]
  rw [if_pos (by omega)]
  rfl

theorem endsInDelimiter_token {c : List Byte} (k : Nat) (hne : c ≠ [])
    (hsep : blPathDelimiter ∉ c) :
    endsInDelimiter (List.replicate k blPathDelimiter ++ c) = false := by
  rw [endsInDelimiter, List.getLast?_append_of_ne_nil _ hne, decide_eq_false_iff_not]
  exact fun hlast => hsep (List.mem_of_getLast? hlast)

theorem blStrtok_next {t : Tokenizer} {rest : List Byte} {fuel : Nat} (world : σ)
    (h : Remaining t (some rest)) (hfuel : t.len < fuel)
    (hsome : tokens blPathDelimiter rest ≠ []) :
    ∃ t' start c tail, blStrtok env fuel world t = some (world, t', some start) ∧
      AtToken t' start c tail ∧ Advanced t t' ∧
      tokens blPathDelimiter rest = c :: componentsLeft tail ∧
      (tail = none → endsInDelimiter rest = false) ∧
      (∀ r, tail = some r → endsInDelimiter (blPathDelimiter :: r) = endsInDelimiter rest) := by
  obtain ⟨hbytes, hnul, hlen⟩ := h
  obtain ⟨k, rfl | ⟨c, tail, rfl, hne, hsep, htail⟩⟩ :=
    exists_first_token blPathDelimiter rest
  · exact absurd (tokens_separators k) hsome
  have hcnul : (0 : Byte) ∉ c := fun hmem =>
    hnul (List.mem_append_right _ (List.mem_append_left _ hmem))
  simp only [List.length_append, List.length_replicate] at hlen
  have hcall := blStrtok_token env world hbytes hlen hfuel hcnul hne hsep htail
  have hadvanced : Advanced t (t.cut (t.str + k + c.length)) :=
    cut_advanced (Nat.le_add_right_of_le (Nat.le_add_right _ _))
  obtain ⟨-, htoken, hbehind⟩ := hasBytes_parts hbytes
  have hended := cut_token htoken
  have hinside : t.str + k + c.length ≤ t.len := by omega
  have hbefore : t.str + k + c.length < t.str + k + c.length + 1 := Nat.lt_succ_self _
  obtain rfl | ⟨r, rfl⟩ := htail
  · have hleft : t.str + k + c.length + 1 = t.len + 1 := by
      rw [List.length_nil] at hlen
      omega
    refine ⟨_, _, c, none, hcall, ⟨hended, hcnul, hinside, hbefore, hleft⟩, hadvanced, ?_, ?_, ?_⟩
    · rw [tokens_replicate_append, List.append_nil, tokens_self hne hsep]
      simp [componentsLeft]
    · rw [List.append_nil]
      exact fun _ => endsInDelimiter_token k hne hsep
    · intro r hr
      cases hr
  · have hrnul : (0 : Byte) ∉ r := fun hmem =>
      hnul (List.mem_append_right _ (List.mem_append_right _ (List.mem_cons_of_mem _ hmem)))
    have hleft : t.str + k + c.length + 1 + r.length = t.len := by
      rw [List.length_cons] at hlen
      omega
    refine ⟨_, _, c, some r, hcall, ⟨hended, hcnul, hinside, hbefore,
      hasBytes_store hbehind.2 (.inl (Nat.lt_succ_self _)), hrnul, hleft⟩, hadvanced, ?_, ?_, ?_⟩
    · rw [tokens_replicate_append, tokens_append_sep hne hsep]
      rfl
    · intro hr
      cases hr
    · intro r' hr
      cases hr
      rw [endsInDelimiter, endsInDelimiter,
        List.getLast?_append_of_ne_nil _ (List.append_ne_nil_of_left_ne_nil hne _),
        List.getLast?_append_of_ne_nil _ (List.cons_ne_nil _ _)]

/-! ## Behind the copy -/

theorem skipDelims_shift {bytes bytes' : Mem} {k : Nat} (h : ∀ i, bytes (k + i) = bytes' i)
    (fuel i : Nat) :
    skipDelims bytes fuel (k + i) = (skipDelims bytes' fuel i).map (k + ·) := by
  induction fuel generalizing i with
  | zero => rfl
  | succ fuel ih =>
    rw [skipDelims, skipDelims, h, Nat.add_assoc, ih]
    split <;> rfl

/-- Behind the copy there are delimiters only, up to a zero byte. -/
def NothingBehind (env : FsEnv σ φ) (fuel : Nat) (world : σ) : Prop :=
  ∃ i, skipDelims (env.behind world) fuel 0 = some i ∧ env.behind world i = 0

theorem blStrtok_nothingBehind {t : Tokenizer} {fuel : Nat} {world : σ}
    (hstr : t.str = t.len + 1) (h : NothingBehind env fuel world) :
    ∃ t', blStrtok env fuel world t = some (world, t', none) ∧ Advanced t t' := by
  obtain ⟨i, hskip, hend⟩ := h
  have hshift := skipDelims_shift (byteAt_behind env world t) fuel 0
  rw [Nat.add_zero, ← hstr, hskip, Option.map_some] at hshift
  have hzero : byteAt env world t (t.str + i) = 0 := by rw [hstr, byteAt_behind, hend]
  refine ⟨{ t with str := t.str + i }, ?_, rfl, Nat.le_add_right _ _, fun _ _ => rfl⟩
  simp only [blStrtok, hshift, hzero, if_true]

/-- A look-ahead that finds something finds a token. -/
theorem blStrtok_stray {t t' : Tokenizer} {fuel : Nat} {world world' : σ} {next : Option Nat}
    (hstr : t.str = t.len + 1) (h : blStrtok env fuel world t = some (world', t', next))
    (hstray : ¬NothingBehind env fuel world) : Advanced t t' ∧ ∃ start, next = some start := by
  have hshift := skipDelims_shift (byteAt_behind env world t) fuel 0
  rw [Nat.add_zero, ← hstr] at hshift
  unfold blStrtok at h
  cases hskip : skipDelims (env.behind world) fuel 0 with
  | none => rw [hshift, hskip] at h; cases h
  | some i =>
    rw [hshift, hskip] at h
    simp only [Option.map_some] at h
    have hne : byteAt env world t (t.str + i) ≠ 0 := by
      rw [hstr, byteAt_behind]
      exact fun hzero => hstray ⟨i, hskip, hzero⟩
    rw [if_neg hne] at h
    split at h
    · cases h
    next stop hstop =>
    have hstop := tokenEnd_ge hstop
    rw [if_neg (by omega)] at h
    cases h
    exact ⟨⟨rfl, by simp only; omega, fun _ _ => rfl⟩, _, rfl⟩

end BootLoader.File
