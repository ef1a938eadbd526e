import BootLoader.Lib.ByteMemory

/-!
# Data that comes to pieces of memory

Whoever moves data by a list of pieces fills the first one, then the next. Where the pieces are one
behind the other, the data is in one place.
-/

open ByteMemory

namespace ScatterList

structure Piece where
  base : Nat
  bytes : Nat
  deriving DecidableEq, Repr

/-- The pieces are of `[start, stop)`, one behind the other. -/
def Tiles : List Piece → Nat → Nat → Prop
  | [], start, stop => start = stop
  | p :: ps, start, stop => p.base = start ∧ Tiles ps (start + p.bytes) stop

/-- The first `n` bytes of `data` at `start`. -/
def place (data : Mem) (start n : Nat) (m : Mem) : Mem :=
  fun x => if start ≤ x ∧ x < start + n then data (x - start) else m x

/-- The first `n` bytes of `data`, piece by piece. -/
def scatter (data : Mem) : List Piece → Nat → Mem → Mem
  | [], _, m => m
  | p :: ps, n, m =>
    scatter (fun k => data (p.bytes + k)) ps (n - p.bytes) (place data p.base (min p.bytes n) m)

variable {data m : Mem} {ps : List Piece} {start stop n : Nat}

theorem tiles_le (h : Tiles ps start stop) : start ≤ stop := by
  induction ps generalizing start with
  | nil => exact Nat.le_of_eq h
  | cons p ps ih =>
    have hrest := ih h.2
    omega

theorem place_none (data : Mem) (start : Nat) (m : Mem) : place data start 0 m = m := by
  funext x
  rw [place, if_neg (by omega)]

/-- What comes in two parts comes at once. -/
theorem place_place (data : Mem) (start a b : Nat) (m : Mem) :
    place (fun k => data (a + k)) (start + a) b (place data start a m) =
      place data start (a + b) m := by
  funext x
  unfold place
  by_cases hfirst : start ≤ x ∧ x < start + a
  · rw [if_neg (by omega), if_pos hfirst, if_pos (by omega)]
  · rw [if_neg hfirst]
    by_cases hsecond : start + a ≤ x ∧ x < start + a + b
    · rw [if_pos hsecond, if_pos (by omega)]
      dsimp only
      congr 1
      omega
    · rw [if_neg hsecond, if_neg (by omega)]

/-- **The pieces are one place.** -/
theorem scatter_eq_place (h : Tiles ps start stop) :
    scatter data ps n m = place data start (min (stop - start) n) m := by
  induction ps generalizing data m start n with
  | nil =>
    obtain rfl : start = stop := h
    rw [Nat.sub_self, Nat.zero_min, place_none]
    rfl
  | cons p ps ih =>
    obtain ⟨rfl, hrest⟩ := h
    have hle := tiles_le hrest
    rw [scatter, ih hrest]
    by_cases hn : p.bytes ≤ n
    · rw [min_eq_left hn, place_place]
      congr 1
      omega
    · rw [min_eq_right (by omega : n ≤ p.bytes), Nat.sub_eq_zero_of_le (by omega : n ≤ p.bytes),
        Nat.min_zero, place_none]
      congr 1
      omega

end ScatterList
