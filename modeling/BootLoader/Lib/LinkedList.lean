import Mathlib.Data.List.Nodup

/-!
# Linked lists

Nodes under addresses, each with the address of the next one or null.
-/

namespace LinkedList

variable {α : Type*} {next next' : α → Option α} {p q : Option α} {a : α} {as bs : List α}

/-- From `p` the links lead over the listed nodes to `q`. -/
inductive Segment (next : α → Option α) : Option α → List α → Option α → Prop
  | nil (q : Option α) : Segment next q [] q
  | cons {a : α} {as : List α} {q : Option α} (h : Segment next (next a) as q) :
    Segment next (some a) (a :: as) q

/-- The links lead to null. -/
def Chain (next : α → Option α) (p : Option α) (as : List α) : Prop := Segment next p as none

theorem Segment.append (h : Segment next p as q) {r : Option α} (h' : Segment next q bs r) :
    Segment next p (as ++ bs) r := by
  induction h with
  | nil => exact h'
  | cons _ ih => exact .cons (ih h')

/-- Only the links of the nodes that are passed count. -/
theorem Segment.congr (h : Segment next p as q) (heq : ∀ a ∈ as, next' a = next a) :
    Segment next' p as q := by
  induction h with
  | nil => exact .nil _
  | cons _ ih =>
    refine .cons ?_
    rw [heq _ List.mem_cons_self]
    exact ih fun a ha => heq a (List.mem_cons_of_mem _ ha)

/-- A chain through a segment goes on where the segment ends. -/
theorem Segment.chain_tail (h : Segment next p as q) (hc : Chain next p bs) :
    ∃ cs, bs = as ++ cs ∧ Chain next q cs := by
  induction h generalizing bs with
  | nil => exact ⟨bs, rfl, hc⟩
  | cons _ ih =>
    obtain - | hc := hc
    obtain ⟨cs, rfl, hcs⟩ := ih hc
    exact ⟨cs, rfl, hcs⟩

theorem Chain.unique (h : Chain next p as) (h' : Chain next p bs) : as = bs := by
  obtain ⟨cs, rfl, hcs⟩ := Segment.chain_tail h h'
  cases hcs
  exact (List.append_nil as).symm

theorem Segment.suffix (h : Segment next p (as ++ a :: bs) q) :
    Segment next (some a) (a :: bs) q := by
  induction as generalizing p with
  | nil =>
    cases h with
    | cons h => exact .cons h
  | cons b as ih =>
    cases h with
    | cons h => exact ih h

/-- A node that is met again leads round and round. -/
theorem Chain.nodup (h : Chain next p as) : as.Nodup := by
  induction as generalizing p with
  | nil => exact .nil
  | cons a as ih =>
    cases h with
    | cons h =>
      refine List.nodup_cons.mpr ⟨fun hmem => ?_, ih h⟩
      obtain ⟨s, t, rfl⟩ := List.append_of_mem hmem
      have hagain : a :: (s ++ a :: t) = a :: t := Chain.unique (.cons h) h.suffix
      have hlength := congrArg List.length hagain
      simp only [List.length_cons, List.length_append] at hlength
      omega

/-- A chain stays within a segment if the segment ends in null, and goes round otherwise. -/
theorem Segment.chain_within_iff (h : Segment next p as q) :
    (∃ bs, Chain next p bs ∧ ∀ b ∈ bs, b ∈ as) ↔ q = none := by
  constructor
  · rintro ⟨bs, hc, hin⟩
    obtain ⟨cs, rfl, hcs⟩ := h.chain_tail hc
    cases hcs with
    | nil => rfl
    | @cons c cs _ =>
      have hdisjoint := (List.nodup_append.mp hc.nodup).2.2
      have hc : c ∈ as := hin c (List.mem_append_right _ List.mem_cons_self)
      exact absurd rfl (hdisjoint c hc c List.mem_cons_self)
  · rintro rfl
    exact ⟨as, h, fun _ hb => hb⟩

/-- A new node before the others. -/
theorem Segment.push (h : Segment next p as q) (hnew : next' a = p)
    (heq : ∀ b ∈ as, next' b = next b) : Segment next' (some a) (a :: as) q :=
  .cons (hnew ▸ h.congr heq)

end LinkedList
