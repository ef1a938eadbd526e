import Mathlib.Order.Lattice

/-!
# Search trees whose nodes are walked entry by entry

A node is its entries from some point on. An entry of a parent comes after a child, and so does
the end of a parent; the label of a child says where the child is to be found. Keys strictly
increase when the tree is read from left to right.
-/

namespace SearchTree

inductive Node (ν α : Type*) where
  | leafEnd
  | leaf (e : α) (rest : Node ν α)
  | parentEnd (label : ν) (child : Node ν α)
  | parent (label : ν) (child : Node ν α) (e : α) (rest : Node ν α)

variable {ν α κ : Type*}

namespace Node

/-- Everything in the tree, from left to right. -/
def entries : Node ν α → List α
  | leafEnd => []
  | leaf e rest => e :: rest.entries
  | parentEnd _ child => child.entries
  | parent _ child e rest => child.entries ++ e :: rest.entries

def labels : Node ν α → List ν
  | leafEnd => []
  | leaf _ rest => rest.labels
  | parentEnd label child => label :: child.labels
  | parent label child _ rest => label :: child.labels ++ rest.labels

/-- A bound on the entries and ends that a search looks at. -/
def steps : Node ν α → Nat
  | leafEnd => 1
  | leaf _ rest => rest.steps + 1
  | parentEnd _ child => child.steps + 1
  | parent _ child _ rest => child.steps + rest.steps + 1

variable [LinearOrder κ] (key : α → κ) (target : κ)

/-- An entry is greater than what comes before it, and a child lies below the entry after it. -/
def Ordered : Node ν α → Prop
  | leafEnd => True
  | leaf e rest => (∀ x ∈ rest.entries, key e < key x) ∧ rest.Ordered
  | parentEnd _ child => child.Ordered
  | parent _ child e rest => (∀ x ∈ child.entries, key x < key e) ∧
      (∀ x ∈ rest.entries, key e < key x) ∧ child.Ordered ∧ rest.Ordered

/-- Leaves are searched one entry after the other. A parent is left by the first child whose
entry is greater, or by the last one. -/
def search : Node ν α → Option α
  | leafEnd => none
  | leaf e rest => if target = key e then some e else rest.search
  | parentEnd _ child => child.search
  | parent _ child e rest =>
    if target < key e then child.search else if target = key e then some e else rest.search

variable {key target} {t : Node ν α}

/-- No entry is skipped: a search finds what the whole tree holds. -/
theorem search_eq_find (h : t.Ordered key) :
    t.search key target = t.entries.find? fun x => target = key x := by
  induction t with
  | leafEnd => rfl
  | leaf e rest ih =>
    rw [search, entries, List.find?_cons, ih h.2]
    by_cases heq : target = key e <;> simp [heq]
  | parentEnd label child ih => exact ih h
  | parent label child e rest ihChild ihRest =>
    obtain ⟨hbelow, habove, hchild, hrest⟩ := h
    rw [search, entries, List.find?_append, List.find?_cons]
    rcases lt_trichotomy target (key e) with hlt | heq | hgt
    · have hnone : rest.entries.find? (fun x => decide (target = key x)) = none := by
        rw [List.find?_eq_none]
        intro x hx
        simpa using (hlt.trans (habove x hx)).ne
      rw [if_pos hlt, ihChild hchild, hnone]
      simp [hlt.ne]
    · have hnone : child.entries.find? (fun x => decide (target = key x)) = none := by
        rw [List.find?_eq_none]
        intro x hx
        simpa [heq] using (hbelow x hx).ne'
      rw [if_neg heq.not_lt, if_pos heq, hnone]
      simp [heq]
    · have hnone : child.entries.find? (fun x => decide (target = key x)) = none := by
        rw [List.find?_eq_none]
        intro x hx
        simpa using ((hbelow x hx).trans hgt).ne'
      rw [if_neg hgt.not_gt, if_neg hgt.ne', ihRest hrest, hnone]
      simp [hgt.ne']

theorem pairwise_entries (h : t.Ordered key) : t.entries.Pairwise fun x y => key x < key y := by
  induction t with
  | leafEnd => exact .nil
  | leaf e rest ih => exact List.pairwise_cons.mpr ⟨h.1, ih h.2⟩
  | parentEnd label child ih => exact ih h
  | parent label child e rest ihChild ihRest =>
    obtain ⟨hbelow, habove, hchild, hrest⟩ := h
    refine List.pairwise_append.mpr
      ⟨ihChild hchild, List.pairwise_cons.mpr ⟨habove, ihRest hrest⟩, ?_⟩
    intro x hx y hy
    rcases List.mem_cons.mp hy with rfl | hy
    · exact hbelow x hx
    · exact (hbelow x hx).trans (habove y hy)

theorem search_eq_some_of_mem (h : t.Ordered key) {e : α} (he : e ∈ t.entries)
    (hkey : key e = target) : t.search key target = some e := by
  rw [search_eq_find h]
  have hinj := pairwise_entries h
  generalize t.entries = es at he hinj
  induction es with
  | nil => cases he
  | cons x rest ih =>
    obtain ⟨hx, hrest⟩ := List.pairwise_cons.mp hinj
    rw [List.find?_cons]
    rcases List.mem_cons.mp he with rfl | he
    · simp [hkey]
    · have hne : target ≠ key x := fun heq => (hx e he).ne (heq.symm.trans hkey.symm)
      simp only [hne, decide_false]
      exact ih he hrest

theorem mem_of_search (h : t.Ordered key) {e : α} (hsearch : t.search key target = some e) :
    e ∈ t.entries ∧ key e = target := by
  rw [search_eq_find h] at hsearch
  have hkey := List.find?_some hsearch
  exact ⟨List.mem_of_find?_eq_some hsearch, (decide_eq_true_eq.mp hkey).symm⟩

end Node

end SearchTree
