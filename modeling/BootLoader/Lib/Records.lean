import BootLoader.Lib.ByteMemory

/-!
# Records that begin with their length

The first byte of a record is its length, the second its kind; a walk steps from one to the next.
-/

namespace Records

open ByteMemory

def recordLength (data : Mem) (off : Nat) : Nat := (data off).toNat

def recordKind (data : Mem) (off : Nat) : Byte := data (off + 1)

/-- A walk from an offset that takes the records of one kind at the listed places and ends behind
the last of them. What it looks at lies below `limit`: two bytes of a record that is stepped over,
`need` bytes of one that is taken. -/
inductive Collect (data : Mem) (kind : Byte) (need limit : Nat) : Nat → List Nat → Nat → Prop
  | done (off : Nat) : Collect data kind need limit off [] off
  | take {off o : Nat} {ps : List Nat} (hkind : recordKind data off = kind)
      (hin : off + need ≤ limit)
      (hrest : Collect data kind need limit (off + recordLength data off) ps o) :
      Collect data kind need limit off (off :: ps) o
  | skip {off o q : Nat} {ps : List Nat} (hkind : recordKind data off ≠ kind)
      (hin : off + 2 ≤ limit) (hlen : recordLength data off ≠ 0)
      (hrest : Collect data kind need limit (off + recordLength data off) (q :: ps) o) :
      Collect data kind need limit off (q :: ps) o

theorem Collect.single {data : Mem} {kind : Byte} {need limit off q o : Nat}
    (h : Collect data kind need limit off [q] o) :
    recordKind data q = kind ∧ q + need ≤ limit ∧ o = q + recordLength data q := by
  generalize hps : [q] = ps at h
  induction h with
  | done => simp at hps
  | take hkind hin hrest =>
    obtain ⟨rfl, rfl⟩ := List.cons.inj hps
    cases hrest
    exact ⟨hkind, hin, rfl⟩
  | skip _ _ _ _ ih => exact ih hps

/-! ## Records one after another -/

structure Record where
  kind : Byte
  body : List Byte
  fits : body.length + 2 < 256

def Record.bytes (r : Record) : List Byte := BitVec.ofNat 8 (r.body.length + 2) :: r.kind :: r.body

variable {data : Mem} {a need limit o : Nat} {kind : Byte} {ps : List Nat}

@[simp] theorem Record.length_bytes (r : Record) : r.bytes.length = r.body.length + 2 := rfl

theorem recordLength_of_hasBytes {r : Record} (h : HasBytes data a r.bytes) :
    recordLength data a = r.bytes.length := by
  have hhead : data a = BitVec.ofNat 8 (r.body.length + 2) := h.1
  unfold recordLength
  rw [hhead, BitVec.toNat_ofNat, Nat.mod_eq_of_lt r.fits, r.length_bytes]

theorem recordKind_of_hasBytes {r : Record} (h : HasBytes data a r.bytes) :
    recordKind data a = r.kind := h.2.1

theorem Collect.take_record {r : Record} (h : HasBytes data a r.bytes) (hkind : r.kind = kind)
    (hin : a + need ≤ limit)
    (hrest : Collect data kind need limit (a + r.bytes.length) ps o) :
    Collect data kind need limit a (a :: ps) o := by
  refine Collect.take ((recordKind_of_hasBytes h).trans hkind) hin ?_
  rwa [recordLength_of_hasBytes h]

theorem Collect.skip_records {rs : List Record} {q : Nat}
    (h : HasBytes data a (rs.flatMap Record.bytes)) (hkind : ∀ r ∈ rs, r.kind ≠ kind)
    (hin : a + (rs.flatMap Record.bytes).length ≤ limit)
    (hrest : Collect data kind need limit (a + (rs.flatMap Record.bytes).length) (q :: ps) o) :
    Collect data kind need limit a (q :: ps) o := by
  induction rs generalizing a with
  | nil => simpa using hrest
  | cons r rs ih =>
    rw [List.flatMap_cons, hasBytes_append] at h
    obtain ⟨hr, hrs⟩ := h
    rw [List.flatMap_cons, List.length_append] at hin hrest
    have hlen := recordLength_of_hasBytes hr
    have hpos := r.length_bytes
    refine Collect.skip ?_ (by omega) (by omega) ?_
    · rw [recordKind_of_hasBytes hr]
      exact hkind r (by simp)
    · rw [hlen]
      exact ih hrs (fun r' hr' => hkind r' (by simp [hr'])) (by omega) (by rwa [Nat.add_assoc])

end Records
