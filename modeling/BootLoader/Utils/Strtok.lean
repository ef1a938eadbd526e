import BootLoader.Lib.ByteMemory
import BootLoader.Lib.Pieces
import Mathlib.Order.Filter.AtTopBot.Basic

/-!
# `bl_strtok` (`core/utils/string.c`)

The delimiters are the string before the zero of `delim`. Pointers are 32 bits wide; one that is
null is `0`.
-/

open ByteMemory Pieces Filter

namespace BootLoader.Utils

/-- `bl_strtok_str`, the memory, and the bytes that have been read or written by way of it. -/
structure Strtok where
  mem : Mem
  str : Nat
  touched : List Nat

def blIsdelim (c : Byte) : List Byte → Bool
  | [] => false
  | d :: delim => if c = d then true else blIsdelim c delim

/-- `while (bl_isdelim(*bl_strtok_str, delim))`: where it stops, and what it read. -/
def skipDelims (m : Mem) (delim : List Byte) : Nat → Nat → Option (Nat × List Nat)
  | 0, _ => none
  | fuel + 1, p =>
    if blIsdelim (m p) delim then
      (skipDelims m delim fuel ((p + 1) % 2 ^ 32)).map fun (stop, read) => (stop, p :: read)
    else some (p, [p])

/-- `while (*end != '\0' && !bl_isdelim(*end, delim))` -/
def tokenEnd (m : Mem) (delim : List Byte) : Nat → Nat → Option (Nat × List Nat)
  | 0, _ => none
  | fuel + 1, p =>
    if m p ≠ 0 ∧ ¬ blIsdelim (m p) delim then
      (tokenEnd m delim fuel ((p + 1) % 2 ^ 32)).map fun (stop, read) => (stop, p :: read)
    else some (p, [p])

/-- `none`: a scan does not end with this much fuel. -/
def blStrtok (fuel : Nat) (t : Strtok) (s : Nat) (delim : Option (List Byte)) :
    Option (Nat × Strtok) :=
  let str := if s ≠ 0 then s else t.str
  match delim with
  | none => some (str, { t with str })
  | some delim =>
    (skipDelims t.mem delim fuel str).bind fun (str, read) =>
      if t.mem str = 0 then some (0, ⟨t.mem, str, t.touched ++ read ++ [str]⟩)
      else
        (tokenEnd t.mem delim fuel str).map fun (stop, scanned) =>
          (str, ⟨store t.mem stop 0, (stop + 1) % 2 ^ 32,
            t.touched ++ read ++ [str] ++ scanned ++ [stop]⟩)

/-- `bl_strtok(NULL, delim)`, `k` times: what the calls return. -/
def nullCalls (fuel : Nat) (delim : List Byte) : Nat → Strtok → Option (List Nat × Strtok)
  | 0, t => some ([], t)
  | k + 1, t =>
    (blStrtok fuel t 0 (some delim)).bind fun (res, t) =>
      (nullCalls fuel delim k t).map fun (rest, t) => (res :: rest, t)

/-- `bl_strtok(s, delim)`, and then `k` calls with `NULL`. -/
def strtokCalls (fuel : Nat) (m : Mem) (saved s : Nat) (delim : List Byte) (k : Nat) :
    Option (List Nat × Strtok) :=
  (blStrtok fuel ⟨m, saved, []⟩ s (some delim)).bind fun (res, t) =>
    (nullCalls fuel delim k t).map fun (rest, t) => (res :: rest, t)

/-- What the call number `j` returns when `ts` are the tokens. -/
def answer (s : Nat) (ts : List (Nat × List Byte)) (j : Nat) : Nat :=
  match ts[j]? with
  | some t => s + t.1
  | none => 0

/-- The calls return the pieces of the text in their order and then nothing, and keep to the text
and its terminator. -/
def Tokenizes (m : Mem) (saved s : Nat) (text delim : List Byte) : Prop :=
  ∃ ts : List (Nat × List Byte),
    ts.Pairwise (fun t u => t.1 < u.1) ∧ (∀ t, t ∈ ts ↔ Maximal (· ∈ delim) text t.1 t.2) ∧
    ∀ k, ∀ᶠ fuel in atTop, ∃ rs t, strtokCalls fuel m saved s delim k = some (rs, t) ∧
      rs = (List.range (k + 1)).map (answer s ts) ∧
      (∀ j ≤ k, ∀ u ∈ ts[j]?, HasBytes t.mem (s + u.1) (u.2 ++ [0])) ∧
      ∀ a ∈ t.touched, s ≤ a ∧ a ≤ s + text.length

/-! ## Scans -/

variable {m : Mem} {delim seps c rest text : List Byte} {t t' t'' : Strtok}
  {ts : List (Nat × List Byte)} {fuel i k p s lo hi : Nat} {d : Byte}

theorem blIsdelim_iff : blIsdelim d delim = true ↔ d ∈ delim := by
  induction delim with
  | nil => simp [blIsdelim]
  | cons e delim ih =>
    rw [blIsdelim, List.mem_cons]
    split_ifs with h
    · simp [h]
    · rw [ih, or_iff_right h]

theorem skipDelims_eq (h : HasBytes m p (seps ++ [d])) (hseps : ∀ x ∈ seps, x ∈ delim)
    (hd : d ∉ delim) (hbound : p + seps.length < 2 ^ 32) (hfuel : seps.length < fuel) :
    skipDelims m delim fuel p = some (p + seps.length, List.range' p (seps.length + 1)) := by
  induction seps generalizing p fuel with
  | nil =>
    obtain ⟨fuel, rfl⟩ := Nat.exists_eq_succ_of_ne_zero (by omega : fuel ≠ 0)
    rw [skipDelims, if_neg (by rwa [blIsdelim_iff, h.1])]
    rfl
  | cons b seps ih =>
    obtain ⟨fuel, rfl⟩ := Nat.exists_eq_succ_of_ne_zero (by omega : fuel ≠ 0)
    obtain ⟨hb, hseps⟩ := List.forall_mem_cons.mp hseps
    rw [List.length_cons] at hbound hfuel
    rw [skipDelims, if_pos (by rwa [blIsdelim_iff, h.1]), Nat.mod_eq_of_lt (by omega),
      ih h.2 hseps (by omega) (by omega), List.length_cons]
    simp only [Option.map_some, List.range'_succ]
    rw [show p + 1 + seps.length = p + (seps.length + 1) by omega]

theorem tokenEnd_eq (h : HasBytes m p (c ++ [d])) (hfree : ∀ x ∈ c, x ∉ delim)
    (hnul : (0 : Byte) ∉ c) (hd : d = 0 ∨ d ∈ delim) (hbound : p + c.length < 2 ^ 32)
    (hfuel : c.length < fuel) :
    tokenEnd m delim fuel p = some (p + c.length, List.range' p (c.length + 1)) := by
  induction c generalizing p fuel with
  | nil =>
    obtain ⟨fuel, rfl⟩ := Nat.exists_eq_succ_of_ne_zero (by omega : fuel ≠ 0)
    rw [tokenEnd, if_neg (by rw [blIsdelim_iff, h.1]; tauto)]
    rfl
  | cons b c ih =>
    obtain ⟨fuel, rfl⟩ := Nat.exists_eq_succ_of_ne_zero (by omega : fuel ≠ 0)
    obtain ⟨hb, hfree⟩ := List.forall_mem_cons.mp hfree
    rw [List.mem_cons, not_or] at hnul
    rw [List.length_cons] at hbound hfuel
    have hgo : m p ≠ 0 ∧ ¬ blIsdelim (m p) delim := by
      rw [h.1, blIsdelim_iff]
      exact ⟨Ne.symm hnul.1, hb⟩
    rw [tokenEnd, if_pos hgo, Nat.mod_eq_of_lt (by omega),
      ih h.2 hfree hnul.2 (by omega) (by omega), List.length_cons]
    simp only [Option.map_some, List.range'_succ]
    rw [show p + 1 + c.length = p + (c.length + 1) by omega]

/-! ## One call -/

/-- A part of the run keeps to the bytes from `lo` to `hi`. -/
structure KeepsTo (lo hi : Nat) (t t' : Strtok) : Prop where
  touched : ∀ a ∈ t'.touched, a ∈ t.touched ∨ lo ≤ a ∧ a ≤ hi
  others : ∀ x, x < lo ∨ hi < x → t'.mem x = t.mem x

theorem KeepsTo.refl (t : Strtok) : KeepsTo lo hi t t := ⟨fun _ ha => .inl ha, fun _ _ => rfl⟩

theorem KeepsTo.trans {lo' hi' : Nat} (h : KeepsTo lo hi t t') (h' : KeepsTo lo' hi' t' t'')
    (hlo : lo ≤ lo') (hhi : hi ≤ hi') : KeepsTo lo hi' t t'' := by
  refine ⟨fun a ha => ?_, fun x hx => ?_⟩
  · rcases h'.touched a ha with ha | ha
    · rcases h.touched a ha with ha | ha
      · exact .inl ha
      · exact .inr (by omega)
    · exact .inr (by omega)
  · rw [h'.others x (by omega), h.others x (by omega)]

theorem blStrtok_first (hs : s ≠ 0) :
    blStrtok fuel t s (some delim) = blStrtok fuel { t with str := s } 0 (some delim) := by
  simp only [blStrtok, if_pos hs, ne_eq, not_true_eq_false, if_false]

/-- Nothing is left but delimiters. -/
theorem blStrtok_none (h : HasBytes t.mem t.str (seps ++ [0])) (hseps : ∀ x ∈ seps, x ∈ delim)
    (hdelim : (0 : Byte) ∉ delim) (hbound : t.str + seps.length < 2 ^ 32)
    (hfuel : seps.length < fuel) :
    ∃ t', blStrtok fuel t 0 (some delim) = some (0, t') ∧ t'.mem = t.mem ∧
      t'.str = t.str + seps.length ∧ KeepsTo t.str (t.str + seps.length) t t' := by
  have hend : t.mem (t.str + seps.length) = 0 := (hasBytes_append.mp h).2.1
  have hskip := skipDelims_eq h hseps hdelim hbound hfuel
  refine ⟨⟨t.mem, t.str + seps.length, t.touched ++ List.range' t.str (seps.length + 1) ++
    [t.str + seps.length]⟩, ?_, rfl, rfl, fun a ha => ?_, fun _ _ => rfl⟩
  · simp only [blStrtok, ne_eq, not_true_eq_false, if_false, hskip, Option.bind_some, hend, if_true]
  · simp only [List.mem_append, List.mem_range'_1, List.mem_singleton] at ha
    rcases ha with (ha | ha) | ha
    · exact .inl ha
    · exact .inr (by omega)
    · exact .inr (by omega)

/-- A token is left: it is ended in its place, and the pointer is put behind its end. -/
theorem blStrtok_token (h : HasBytes t.mem t.str (seps ++ (c ++ [d])))
    (hseps : ∀ x ∈ seps, x ∈ delim) (hne : c ≠ []) (hfree : ∀ x ∈ c, x ∉ delim)
    (hnul : (0 : Byte) ∉ c) (hd : d = 0 ∨ d ∈ delim)
    (hbound : t.str + seps.length + c.length < 2 ^ 32)
    (hfuel : seps.length + c.length < fuel) :
    ∃ t', blStrtok fuel t 0 (some delim) = some (t.str + seps.length, t') ∧
      t'.str = (t.str + seps.length + c.length + 1) % 2 ^ 32 ∧
      HasBytes t'.mem (t.str + seps.length) (c ++ [0]) ∧
      KeepsTo t.str (t.str + seps.length + c.length) t t' := by
  obtain ⟨hbefore, htoken⟩ := hasBytes_append.mp h
  have hstop := tokenEnd_eq htoken hfree hnul hd hbound (show c.length < fuel by omega)
  obtain ⟨hc, -⟩ := hasBytes_append.mp htoken
  obtain ⟨b, c', rfl⟩ := List.exists_cons_of_ne_nil hne
  have hhead : t.mem (t.str + seps.length) = b := hc.1
  have hseparated : HasBytes t.mem t.str (seps ++ [b]) :=
    hasBytes_append.mpr ⟨hbefore, hhead, trivial⟩
  have hskip := skipDelims_eq hseparated hseps (hfree b List.mem_cons_self) (by omega)
    (show seps.length < fuel by omega)
  have hstart : t.mem (t.str + seps.length) ≠ 0 := by
    rw [hhead]
    exact fun hzero => hnul (hzero ▸ List.mem_cons_self)
  refine ⟨⟨store t.mem (t.str + seps.length + (b :: c').length) 0,
    (t.str + seps.length + (b :: c').length + 1) % 2 ^ 32,
    t.touched ++ List.range' t.str (seps.length + 1) ++ [t.str + seps.length] ++
      List.range' (t.str + seps.length) ((b :: c').length + 1) ++
      [t.str + seps.length + (b :: c').length]⟩, ?_, rfl, ?_, fun a ha => ?_, fun x hx => ?_⟩
  · simp only [blStrtok, ne_eq, not_true_eq_false, if_false, hskip, Option.bind_some, if_neg hstart,
      hstop, Option.map_some]
  · refine hasBytes_append.mpr ⟨?_, store_same _ _ _, trivial⟩
    exact hc.congr fun x _ hx => store_other _ _ (by omega)
  · simp only [List.mem_append, List.mem_range'_1, List.mem_singleton] at ha
    rcases ha with (((ha | ha) | ha) | ha) | ha
    · exact .inl ha
    all_goals exact .inr (by omega)
  · exact store_other _ _ (by omega)

theorem skipDelims_reads {stop : Nat} {read : List Nat}
    (h : skipDelims m delim fuel p = some (stop, read)) : p ∈ read := by
  obtain ⟨fuel, rfl⟩ := Nat.exists_eq_succ_of_ne_zero (show fuel ≠ 0 by rintro rfl; cases h)
  rw [skipDelims] at h
  split_ifs at h
  · obtain ⟨r, -, hr⟩ := Option.map_eq_some_iff.mp h
    cases hr
    exact List.mem_cons_self
  · cases h
    exact List.mem_cons_self

/-- A call reads the byte under the pointer. -/
theorem blStrtok_reads {res : Nat} (h : blStrtok fuel t 0 (some delim) = some (res, t')) :
    t.str ∈ t'.touched := by
  simp only [blStrtok, ne_eq, not_true_eq_false, if_false] at h
  obtain ⟨⟨str, read⟩, hskip, h⟩ := Option.bind_eq_some_iff.mp h
  have hmem := skipDelims_reads hskip
  simp only [] at h
  split_ifs at h
  · cases h
    simp [hmem]
  · obtain ⟨r, -, hr⟩ := Option.map_eq_some_iff.mp h
    cases hr
    simp [hmem]

/-! ## All calls -/

theorem nullCalls_succ {res : Nat} (h : blStrtok fuel t 0 (some delim) = some (res, t')) :
    nullCalls fuel delim (k + 1) t =
      (nullCalls fuel delim k t').map fun r => (res :: r.1, r.2) := by
  rw [nullCalls, h]
  rfl

theorem answer_cons (t : Nat × List Byte) :
    (List.range (k + 1)).map (answer s (t :: ts)) =
      (s + t.1) :: (List.range k).map (answer s ts) := by
  rw [List.range_succ_eq_map, List.map_cons, List.map_map]
  rfl

/-- At the terminator all calls return null. -/
theorem nullCalls_none (hseps : ∀ x ∈ seps, x ∈ delim) (hdelim : (0 : Byte) ∉ delim)
    (h : HasBytes t.mem t.str (seps ++ [0])) (hbound : t.str + seps.length < 2 ^ 32)
    (hfuel : seps.length < fuel) (k : Nat) :
    ∃ t', nullCalls fuel delim k t = some ((List.range k).map (answer s []), t') ∧
      KeepsTo t.str (t.str + seps.length) t t' := by
  induction k generalizing t seps with
  | zero => exact ⟨t, rfl, .refl t⟩
  | succ k ih =>
    obtain ⟨t', hcall, hmem, hstr, hkeeps⟩ := blStrtok_none h hseps hdelim hbound hfuel
    have hend : HasBytes t'.mem t'.str ([] ++ [0]) := by
      rw [hmem, hstr]
      exact (hasBytes_append.mp h).2
    obtain ⟨t'', hcalls, hkeeps'⟩ := ih (by simp) hend (by simpa [hstr] using hbound)
      (Nat.zero_lt_of_lt hfuel)
    rw [hstr, List.length_nil, Nat.add_zero] at hkeeps'
    refine ⟨t'', ?_, hkeeps.trans hkeeps' (Nat.le_add_right _ _) (Nat.le_refl _)⟩
    rw [nullCalls_succ hcall, hcalls, List.range_succ_eq_map, List.map_cons, List.map_map]
    rfl

theorem getLast?_rest (hne : c ≠ []) (hd : d ∈ delim) :
    (∀ x ∈ (seps ++ (c ++ d :: rest)).getLast?, x ∈ delim) ↔
      ∀ x ∈ rest.getLast?, x ∈ delim := by
  rw [List.getLast?_append_of_ne_nil _ (List.append_ne_nil_of_left_ne_nil hne _),
    List.getLast?_append_of_ne_nil _ (List.cons_ne_nil d rest), List.getLast?_cons]
  cases rest.getLast? with
  | none => simpa using hd
  | some x => simp

theorem getLast?_token (hne : c ≠ []) (hfree : ∀ x ∈ c, x ∉ delim) :
    ¬ ∀ x ∈ (seps ++ c).getLast?, x ∈ delim := by
  rw [List.getLast?_append_of_ne_nil _ hne, List.getLast?_eq_some_getLast hne]
  intro h
  exact hfree _ (List.getLast_mem hne) (h _ rfl)

/-- The bytes of a token, of the delimiter that ends it, and of what is left. -/
theorem hasBytes_next (h : HasBytes m p (seps ++ (c ++ d :: rest) ++ [0])) :
    HasBytes m p (seps ++ (c ++ [d])) ∧
      HasBytes m (p + seps.length + c.length + 1) (rest ++ [0]) := by
  have hsplit : seps ++ (c ++ d :: rest) ++ [0] = seps ++ (c ++ [d]) ++ (rest ++ [0]) := by simp
  rw [hsplit, hasBytes_append] at h
  simpa [Nat.add_assoc] using h

/-- From any point of a text that ends in a delimiter the calls find the pieces that are left. -/
theorem nullCalls_cut (hcut : Cut (· ∈ delim) i rest ts)
    (hlast : ∀ x ∈ rest.getLast?, x ∈ delim) (hdelim : (0 : Byte) ∉ delim)
    (hnul : (0 : Byte) ∉ rest) (h : HasBytes t.mem (s + i) (rest ++ [0])) (hstr : t.str = s + i)
    (hbound : s + i + rest.length < 2 ^ 32) (hfuel : rest.length < fuel) (k : Nat) :
    ∃ t', nullCalls fuel delim k t = some ((List.range k).map (answer s ts), t') ∧
      KeepsTo (s + i) (s + i + rest.length) t t' ∧
      ∀ j < k, ∀ u ∈ ts[j]?, HasBytes t'.mem (s + u.1) (u.2 ++ [0]) := by
  induction hcut generalizing t k with
  | none hseps =>
    rw [← hstr] at h hbound ⊢
    obtain ⟨t', hcalls, hkeeps⟩ := nullCalls_none (s := s) hseps hdelim h hbound hfuel k
    exact ⟨t', hcalls, hkeeps, by simp⟩
  | last hseps hne hfree => exact absurd hlast (getLast?_token hne hfree)
  | @next i seps c rest d ts hseps hne hfree hd _ ih =>
    cases k with
    | zero => exact ⟨t, rfl, .refl t, fun j hj => absurd hj (Nat.not_lt_zero j)⟩
    | succ k =>
      obtain ⟨htoken, hbehind⟩ := hasBytes_next h
      have hcnul : (0 : Byte) ∉ c := fun hmem =>
        hnul (List.mem_append_right _ (List.mem_append_left _ hmem))
      have hrnul : (0 : Byte) ∉ rest := fun hmem =>
        hnul (List.mem_append_right _ (List.mem_append_right _ (List.mem_cons_of_mem _ hmem)))
      simp only [List.length_append, List.length_cons] at hbound hfuel
      rw [← hstr] at htoken
      obtain ⟨t₁, hcall, hstr₁, hended, hkeeps⟩ := blStrtok_token htoken hseps hne hfree hcnul
        (.inr hd) (by omega) (show seps.length + c.length < fuel by omega)
      rw [hstr] at hcall hstr₁ hended hkeeps
      rw [Nat.mod_eq_of_lt (by omega)] at hstr₁
      have hplace : s + i + seps.length + c.length + 1 = s + (i + seps.length + c.length + 1) := by
        omega
      -- The call has written no byte of what is left.
      have hleft : HasBytes t₁.mem (s + (i + seps.length + c.length + 1)) (rest ++ [0]) := by
        rw [← hplace]
        exact hbehind.congr fun x hx _ => hkeeps.others x (by omega)
      obtain ⟨t', hcalls, hkeeps', htokens⟩ := ih ((getLast?_rest hne hd).mp hlast) hrnul hleft
        (by omega) (by omega) (by omega) k
      refine ⟨t', ?_, ?_, fun j hj u hu => ?_⟩
      · rw [nullCalls_succ hcall, hcalls, answer_cons, Nat.add_assoc s i]
        rfl
      · have hall := hkeeps.trans hkeeps' (by omega) (by omega)
        simp only [List.length_append, List.length_cons]
        convert hall using 1
        omega
      · cases j with
        | zero =>
          cases hu
          -- No later call writes before its own pointer.
          simp only [← Nat.add_assoc]
          refine hended.congr fun x _ hx => hkeeps'.others x (.inl ?_)
          simp only [List.length_append, List.length_singleton] at hx
          omega
        | succ j => exact htokens j (by omega) u hu

/-- Behind a text that does not end in a delimiter some call reads the byte after the
terminator. -/
theorem nullCalls_beyond (hcut : Cut (· ∈ delim) i rest ts)
    (hlast : ¬ ∀ x ∈ rest.getLast?, x ∈ delim) (hnul : (0 : Byte) ∉ rest)
    (h : HasBytes t.mem (s + i) (rest ++ [0])) (hstr : t.str = s + i)
    (hbound : s + i + rest.length < 2 ^ 32) (hfuel : rest.length < fuel) :
    ∀ rs t', nullCalls fuel delim (ts.length + 1) t = some (rs, t') →
      (s + i + rest.length + 1) % 2 ^ 32 ∈ t'.touched := by
  induction hcut generalizing t with
  | none hseps => exact absurd (fun x hx => hseps x (List.mem_of_getLast? hx)) hlast
  | @last i seps c hseps hne hfree =>
    intro rs t' hcalls
    have hcnul : (0 : Byte) ∉ c := fun hmem => hnul (List.mem_append_right _ hmem)
    rw [List.length_append] at hbound hfuel
    rw [List.append_assoc, ← hstr] at h
    obtain ⟨t₁, hcall, hstr₁, -, -⟩ := blStrtok_token h hseps hne hfree hcnul (.inl rfl)
      (by omega) (show seps.length + c.length < fuel by omega)
    rw [List.length_singleton, nullCalls_succ hcall] at hcalls
    obtain ⟨r, hsecond, hr⟩ := Option.map_eq_some_iff.mp hcalls
    cases hr
    rw [nullCalls] at hsecond
    obtain ⟨r', hcall', hr'⟩ := Option.bind_eq_some_iff.mp hsecond
    have hreads := blStrtok_reads hcall'
    cases hr'
    rwa [hstr₁, hstr, Nat.add_assoc (s + i), ← List.length_append] at hreads
  | @next i seps c rest d ts hseps hne hfree hd _ ih =>
    intro rs t' hcalls
    obtain ⟨htoken, hbehind⟩ := hasBytes_next h
    have hcnul : (0 : Byte) ∉ c := fun hmem =>
      hnul (List.mem_append_right _ (List.mem_append_left _ hmem))
    have hrnul : (0 : Byte) ∉ rest := fun hmem =>
      hnul (List.mem_append_right _ (List.mem_append_right _ (List.mem_cons_of_mem _ hmem)))
    simp only [List.length_append, List.length_cons] at hbound hfuel
    rw [← hstr] at htoken
    obtain ⟨t₁, hcall, hstr₁, -, hkeeps⟩ := blStrtok_token htoken hseps hne hfree hcnul
      (.inr hd) (by omega) (show seps.length + c.length < fuel by omega)
    rw [hstr] at hcall hstr₁ hkeeps
    rw [Nat.mod_eq_of_lt (by omega)] at hstr₁
    have hplace : s + i + seps.length + c.length + 1 = s + (i + seps.length + c.length + 1) := by
      omega
    have hleft : HasBytes t₁.mem (s + (i + seps.length + c.length + 1)) (rest ++ [0]) := by
      rw [← hplace]
      exact hbehind.congr fun x hx _ => hkeeps.others x (by omega)
    rw [List.length_cons, nullCalls_succ hcall] at hcalls
    obtain ⟨r, hthen, hr⟩ := Option.map_eq_some_iff.mp hcalls
    cases hr
    have hreads := ih (fun h => hlast ((getLast?_rest hne hd).mpr h)) hrnul hleft (by omega)
      (by omega) (by omega) _ _ hthen
    simp only [List.length_append, List.length_cons]
    convert hreads using 2
    omega

/-! ## From the first call on -/

theorem strtokCalls_eq (saved : Nat) (hs : s ≠ 0) :
    strtokCalls fuel m saved s delim k = nullCalls fuel delim (k + 1) ⟨m, s, []⟩ := by
  rw [strtokCalls, nullCalls, blStrtok_first hs]

section Text

variable (saved : Nat) (hs : s ≠ 0) (hnul : (0 : Byte) ∉ text)
  (h : HasBytes m s (text ++ [0])) (hbound : s + text.length < 2 ^ 32)

include hs hnul h hbound

theorem tokenizes_of_delimiter (hdelim : (0 : Byte) ∉ delim)
    (hlast : ∀ x ∈ text.getLast?, x ∈ delim) : Tokenizes m saved s text delim := by
  obtain ⟨ts, hcut⟩ := exists_cut (· ∈ delim) 0 text
  refine ⟨ts, ?_, fun t => ?_, fun k => ?_⟩
  · exact (cut_pairwise hcut).imp fun hlt => Nat.lt_of_le_of_lt (Nat.le_add_right _ _) hlt
  · rw [mem_cut_iff hcut]
    simp
  · filter_upwards [eventually_gt_atTop text.length] with fuel hfuel
    obtain ⟨t, hcalls, hkeeps, htokens⟩ := nullCalls_cut (t := ⟨m, s, []⟩) hcut hlast hdelim hnul
      h rfl hbound hfuel (k + 1)
    refine ⟨_, t, (strtokCalls_eq saved hs).trans hcalls, rfl, fun j hj => htokens j (by omega),
      fun a ha => ?_⟩
    exact (hkeeps.touched a ha).resolve_left List.not_mem_nil

theorem not_tokenizes (hlast : ¬ ∀ x ∈ text.getLast?, x ∈ delim) :
    ¬ Tokenizes m saved s text delim := by
  rintro ⟨_, -, -, hcalls⟩
  obtain ⟨ts, hcut⟩ := exists_cut (· ∈ delim) 0 text
  obtain ⟨fuel, ⟨rs, t, hrun, -, -, htouched⟩, hfuel⟩ :=
    ((hcalls ts.length).and (eventually_gt_atTop text.length)).exists
  rw [strtokCalls_eq saved hs] at hrun
  have hbeyond := nullCalls_beyond hcut hlast hnul h rfl hbound hfuel rs t hrun
  have hinside := htouched _ hbeyond
  simp only [Nat.add_zero] at hinside
  omega

/-- **The tokenizer law** holds of the texts that are empty or end in a delimiter. -/
theorem blStrtok_tokenizes_iff (hdelim : (0 : Byte) ∉ delim) :
    Tokenizes m saved s text delim ↔ ∀ x ∈ text.getLast?, x ∈ delim := by
  constructor
  · intro htokens
    by_contra hlast
    exact not_tokenizes saved hs hnul h hbound hlast htokens
  · exact tokenizes_of_delimiter saved hs hnul h hbound hdelim

end Text

/-- `//a/b/`, with its terminator, at `0x1000`. -/
def sampleText : Mem := ofPieces [(0x1000, [47, 47, 97, 47, 98, 47, 0])]

theorem blStrtok_tokenizes_path : Tokenizes sampleText 0 0x1000 [47, 47, 97, 47, 98, 47] [47] :=
  (blStrtok_tokenizes_iff 0 (by decide) (by decide) (by simp [HasBytes]; decide) (by decide)
    (by decide)).mpr (by decide)

/-- `a` has no delimiter behind it: the call after its only token reads behind its terminator. -/
theorem byte_behind_read :
    ¬ Tokenizes (ofPieces [(0x1000, [97, 0])]) 0 0x1000 [97] [47] :=
  not_tokenizes 0 (by decide) (by decide) (by simp [HasBytes]; decide) (by decide) (by decide)

end BootLoader.Utils
