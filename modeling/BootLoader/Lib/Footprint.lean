import BootLoader.Lib.ByteMemory

/-!
# What a change of memory depends on and reaches

A change is within a region if it writes nothing else, and if what it leaves there depends on
nothing else.
-/

namespace Footprint

open ByteMemory

variable {R S : Nat → Prop} {f g : Mem → Mem} {m m' : Mem} {d n : Nat} {α : Type*}

def AgreeOn (R : Nat → Prop) (m m' : Mem) : Prop := ∀ a, R a → m a = m' a

/-- Only bytes of the region matter to what is read. -/
def Reads (R : Nat → Prop) (v : Mem → α) : Prop := ∀ m m', AgreeOn R m m' → v m = v m'

structure Within (R : Nat → Prop) (f : Mem → Mem) : Prop where
  writes : ∀ m a, ¬R a → f m a = m a
  reads : ∀ m m', AgreeOn R m m' → AgreeOn R (f m) (f m')

theorem within_id (R : Nat → Prop) : Within R fun m => m :=
  ⟨fun _ _ _ => rfl, fun _ _ h => h⟩

theorem Within.comp (hg : Within R g) (hf : Within R f) : Within R fun m => g (f m) :=
  ⟨fun m a ha => (hg.writes (f m) a ha).trans (hf.writes m a ha),
    fun m m' h => hg.reads _ _ (hf.reads m m' h)⟩

theorem Within.mono (hf : Within R f) (hRS : ∀ a, R a → S a) : Within S f := by
  refine ⟨fun m a ha => hf.writes m a fun hr => ha (hRS a hr), fun m m' h a ha => ?_⟩
  by_cases hr : R a
  · exact hf.reads m m' (fun b hb => h b (hRS b hb)) a hr
  · rw [hf.writes m a hr, hf.writes m' a hr, h a ha]

theorem Reads.const (R : Nat → Prop) (v : α) : Reads R fun _ => v := fun _ _ _ => rfl

theorem reads_readLE {a : Nat} (h : ∀ i < n, R (a + i)) : Reads R fun m => readLE m a n := by
  intro m m' hagree
  refine readLE_congr_at fun i hi => ?_
  exact hagree _ (h i hi)

/-! ## Writes -/

theorem within_writeLE {v : Mem → Nat} (hd : ∀ i < n, R (d + i)) (hv : Reads R v) :
    Within R fun m => writeLE m d n (v m) := by
  constructor
  · intro m a ha
    apply writeLE_outside
    by_contra hin
    have hr := hd (a - d) (by omega)
    rw [Nat.add_sub_cancel' (by omega)] at hr
    exact ha hr
  · intro m m' h a ha
    unfold writeLE
    rw [hv m m' h]
    split_ifs
    · rfl
    · exact h a ha

theorem within_store {v : Mem → Byte} (hd : R d) (hv : Reads R v) :
    Within R fun m => store m d (v m) := by
  constructor
  · intro m a ha
    apply store_other
    rintro rfl
    exact ha hd
  · intro m m' h a ha
    unfold store
    rw [hv m m' h]
    split_ifs
    · rfl
    · exact h a ha

end Footprint
