import BootLoader.Heap.Room
import BootLoader.Lib.Tokens
import BootLoader.Shell.Command

/-!
# Sessions

What the lines that are entered mean, and that the interpreter does it: with the copies on the heap,
the calls of `bl_strtok` that go on behind their ends, and the arguments that earlier lines left.
-/

open ByteMemory Tokens

namespace BootLoader.Shell

open Heap Utils

/-! ## The meaning of a line -/

def space : Byte := 0x20

/-- The words in the four arguments, and what the lines left behind. -/
structure Session where
  words : Nat → List Byte
  record : Record

/-- The first four words of the line. A word is cut off at the length of the buffer. -/
def parts (text : List Byte) : List (List Byte) :=
  ((tokens space text).take blArguments).map (·.take blShellBufferLength)

/-- Arguments that a line has no word for stay, so that a line without words repeats the command
before it. -/
def Session.enter (s : Session) (text : List Byte) : Session :=
  if text = [] then s
  else
    let words := fun i => (parts text)[i]?.getD (s.words i)
    match blCommands.find? fun command => command.command = words 0 with
    | some command => ⟨words, s.record.execute command (parts text).length⟩
    | none => ⟨words, s.record⟩

variable {s s₁ : BlHeap} {bs bs' : List Block} {b c : Block} {text : List Byte}
  {src n e x : Nat} {m : Mem} {r : Copied}

/-! ## The copy of a line -/

/-- The bytes of the copy, up to the zero behind its terminator. -/
def Private (b : Block) (n x : Nat) : Prop := b.payload ≤ x ∧ x ≤ b.payload + n

/-- They are those of the block, and one more at most that is in no other one. -/
theorem private_apart (h : HeapInv s bs) (hb : b ∈ bs) (hroom : n ≤ b.size) (hn : ¬ 16 ∣ n)
    (hx : Private b n x) (hc : c ∈ bs) : ¬ c.InHead x ∧ (c.head ≠ b.head → ¬ c.InPayload x) := by
  have hbAligned := (h.blockOk b hb).aligned
  have hcAligned := (h.blockOk c hc).aligned
  simp only [Private, Block.InHead, Block.InPayload, Block.stop, Block.payload] at *
  rcases before_or_eq h.ordered hb hc with hbc | hcb | rfl
  · simp only [Before, Block.stop] at hbc
    have hne : c.head ≠ b.head + 16 + n := fun heq => hn (by omega)
    exact ⟨by omega, by omega⟩
  · simp only [Before, Block.stop] at hcb
    exact ⟨by omega, by omega⟩
  · exact ⟨by omega, fun hne => absurd rfl hne⟩

/-- The block was handed out, and since then only the bytes of the copy have been written. -/
structure Copying (s : BlHeap) (bs bs' : List Block) (b : Block) (n : Nat) (heap : BlHeap) :
    Prop where
  allocated : ∃ s₁, Allocated s s₁ bs bs' b n ∧ { s₁ with mem := heap.mem } = heap ∧
    ∀ x, ¬ Private b n x → heap.mem x = s₁.mem x
  notMultiple : ¬ 16 ∣ n

theorem Copying.write (h : Copying s bs bs' b n s₁) (hm : ∀ x, ¬ Private b n x → m x = s₁.mem x) :
    Copying s bs bs' b n { s₁ with mem := m } := by
  obtain ⟨s₂, hall, hsame, hkept⟩ := h.allocated
  refine ⟨⟨s₂, hall, ?_, fun x hx => (hm x hx).trans (hkept x hx)⟩, h.notMultiple⟩
  rw [← hsame]

theorem Copying.inv (h : Copying s bs bs' b n s₁) : HeapInv s₁ bs' := by
  obtain ⟨s₂, hall, hsame, hkept⟩ := h.allocated
  rw [← hsame]
  refine hall.inv.frame fun c hc x hx => hkept x fun hprivate => ?_
  exact (private_apart hall.inv hall.granted.mem_used.1 hall.room h.notMultiple hprivate hc).1 hx

/-- The bytes of the copy were the heap's. -/
theorem private_owned (h : Allocated s s₁ bs bs' b n) (hn : ¬ 16 ∣ n) (hx : Private b n x) :
    OwnedByHeap s bs x := by
  obtain ⟨hb, -⟩ := h.granted.mem_used
  have hhead := h.inv.heap_le_head hb
  have hbase := h.base
  refine ⟨?_, fun d hd hused hin => ?_⟩
  · simp only [Private, Block.payload] at hx
    omega
  · obtain ⟨hd', hne⟩ := h.granted.used_kept h.inv.ordered hd hused
    refine (private_apart h.inv hb h.room hn hx hd').2 (fun heq => hne ?_) hin
    rw [Block.payload, Block.payload, heq]

/-- What the loader has outside the heap stays, and what others have in it. -/
theorem Copying.kept (h : Copying s bs bs' b n s₁) (hx : ¬ OwnedByHeap s bs x) :
    s₁.mem x = s.mem x := by
  obtain ⟨s₂, hall, -, hkept⟩ := h.allocated
  exact (hkept x fun hprivate => hx (private_owned hall h.notMultiple hprivate)).trans
    (hall.frame_outside hx)

theorem strndup_copying (h : HeapInv s bs) (hheap : s.heap ≠ 0) (hs : StringAt s bs src text)
    (hends : EndsBy s bs e) (hroom : e + reach (text.length + 1) 0 ≤ 2 ^ 32)
    (hn : ¬ 16 ∣ text.length + 1) :
    ∃ r bs' b, blStrndup s src text.length = some r ∧ r.res = b.payload ∧
      Copying s bs bs' b (text.length + 1) r.heap ∧
      EndsBy r.heap bs' (e + reach (text.length + 1) 0) ∧
      HasBytes r.heap.mem b.payload (text ++ [0, 0]) ∧ b.payload + (text.length + 1) < 2 ^ 32 := by
  have hlen := hs.length_lt
  have hspace := hs.inSpace
  obtain ⟨s₁, bs', b, halloc, hall, hends'⟩ := h.alloc_ending hheap (by decide) hends hroom
  change blHeapAlloc s (text.length + 1) = some (s₁, b.payload) at halloc
  have hmem := hall.granted.mem_used.1
  have hend := hends'.2 b hmem
  have hsize := hall.room
  have haligned := (hall.inv.blockOk b hmem).aligned
  have hne : b.payload ≠ 0 := by
    rw [Block.payload]
    omega
  have hlast : b.payload + (text.length + 1) < 2 ^ 32 := by
    simp only [Block.stop, Block.payload] at hend ⊢
    omega
  have hcopy : blMemcpy (store s₁.mem (b.payload + (text.length + 1)) 0) b.payload src
      (text.length + 1) = copyRange (store s₁.mem (b.payload + (text.length + 1)) 0) b.payload src
      (text.length + 1) := blMemcpy_eq hne hs.notNull (by omega) (by omega)
  have hcall : blStrndup s src text.length = some
      ⟨{ s₁ with
          mem := blMemcpy (store s₁.mem (b.payload + (text.length + 1)) 0) b.payload src
            (text.length + 1) },
        b.payload, (b.payload + (text.length + 1)) ::
          (List.range (text.length + 1)).map fun i => (b.payload + i) % 2 ^ 32⟩ := by
    rw [hs.blStrndup_eq, Nat.min_self, copyOut_eq halloc hne, Nat.mod_eq_of_lt hlast]
  refine ⟨_, bs', b, hcall, rfl, ⟨⟨s₁, hall, rfl, fun x hx => ?_⟩, hn⟩, hends', ?_, hlast⟩
  · unfold Private at hx
    exact (blMemcpy_outside (by omega) (by omega)).trans (store_other _ _ (by omega))
  · have hzeros : text ++ [0, 0] = text ++ [0] ++ [(0 : Byte)] := by simp
    dsimp only
    rw [hcopy, hzeros, hasBytes_append]
    refine ⟨hasBytes_iff.mpr fun k hk => ?_, ?_⟩
    · rw [List.length_append, List.length_singleton] at hk
      have hout := hs.apart k (by omega)
      -- The byte behind the terminator is not one of the line.
      have hother : src + k ≠ b.payload + (text.length + 1) := fun heq =>
        hout (private_owned hall hn ⟨by omega, by omega⟩)
      rw [copyRange_inside _ _ hk, store_other _ _ hother, hall.frame_outside hout]
      exact hasBytes_iff.mp hs.bytes k _
    · rw [List.length_append, List.length_singleton]
      exact ⟨(copyRange_outside _ _ (by omega)).trans (store_same _ _ _), trivial⟩

/-! ## The words of a line -/

variable {t t' : Strtok} {rest w : List Byte} {words : List (List Byte)} {lo hi p : Nat}
  {arguments : Nat → Mem}

theorem delimiter_iff {x : Byte} : x ∈ blCommandDelimiter ↔ x = space := List.mem_singleton

/-- What is left of the line, with the zero behind its terminator. Once the last word has been
found, that zero is all. -/
def Left (t : Strtok) (rest : List Byte) (hi : Nat) : Prop :=
  (0 : Byte) ∉ rest ∧
    (HasBytes t.mem t.str (rest ++ [0, 0]) ∧ t.str + rest.length + 1 ≤ hi ∨
      rest = [] ∧ HasBytes t.mem t.str [0] ∧ t.str ≤ hi)

theorem Left.terminated (h : Left t rest hi) :
    HasBytes t.mem t.str (rest ++ [0]) ∧ t.str + rest.length ≤ hi := by
  rcases h.2 with ⟨hbytes, hle⟩ | ⟨rfl, hbytes, hle⟩
  · have hzeros : rest ++ [0, 0] = rest ++ [0] ++ [(0 : Byte)] := by simp
    rw [hzeros, hasBytes_append] at hbytes
    exact ⟨hbytes.1, by omega⟩
  · exact ⟨hbytes, hle⟩

theorem keepsTo_mono {hi' : Nat} (h : KeepsTo lo hi t t') (hle : hi ≤ hi') : KeepsTo lo hi' t t' :=
  h.trans (.refl t') le_rfl hle

/-- The word that a call returned, ended where it stands. -/
structure Word (t : Strtok) (p : Nat) (w : List Byte) : Prop where
  bytes : HasBytes t.mem p (w ++ [0])
  noNul : (0 : Byte) ∉ w
  notNull : p ≠ 0
  inSpace : p + w.length < 2 ^ 32

/-- A call returns the first word that is left. -/
inductive NextWord (rest : List Byte) (hi : Nat) (t' : Strtok) : Nat → Prop
  | none (hwords : tokens space rest = []) : NextWord rest hi t' 0
  | word {p w rest'} (hwords : tokens space rest = w :: tokens space rest') (hword : Word t' p w)
    (hleft : Left t' rest' hi) : NextWord rest hi t' p

theorem blStrtok_next (h : Left t rest hi) (hhi : hi < 2 ^ 32) (hpos : t.str ≠ 0) :
    ∃ p t', blStrtok strlenFuel t 0 (some blCommandDelimiter) = some (p, t') ∧
      KeepsTo t.str hi t t' ∧ t.str ≤ t'.str ∧ NextWord rest hi t' p := by
  obtain ⟨hbytes, hend⟩ := h.terminated
  have hfuel : rest.length < strlenFuel := by
    unfold strlenFuel
    omega
  have hspaces : ∀ k, ∀ x ∈ List.replicate k space, x ∈ blCommandDelimiter := fun k x hx =>
    delimiter_iff.mpr (List.eq_of_mem_replicate hx)
  obtain ⟨k, rfl | ⟨c, tail, rfl, hne, hfree, htail⟩⟩ := exists_first_token space rest
  · obtain ⟨t', hcall, -, hstr, hkeeps⟩ := blStrtok_none hbytes (hspaces k) (by decide)
      (lt_of_le_of_lt hend hhi) hfuel
    exact ⟨0, t', hcall, keepsTo_mono hkeeps hend, by omega, .none (tokens_separators k)⟩
  have hnul : (0 : Byte) ∉ c := fun hmem =>
    h.1 (List.mem_append_right _ (List.mem_append_left _ hmem))
  have hfree' : ∀ x ∈ c, x ∉ blCommandDelimiter := fun x hx hmem =>
    hfree (delimiter_iff.mp hmem ▸ hx)
  obtain ⟨hall, hlast⟩ := h.2.resolve_right fun hempty => by simp [hne] at hempty
  -- The word, what ends it, and what stands behind.
  obtain ⟨d, rest', behind, hd, hsplit, hwords, hnul', hbehind⟩ : ∃ d rest' behind,
      (d = 0 ∨ d ∈ blCommandDelimiter) ∧ List.replicate k space ++ (c ++ tail) ++ [0, 0] =
        List.replicate k space ++ (c ++ [d]) ++ behind ∧
      tokens space (List.replicate k space ++ (c ++ tail)) = c :: tokens space rest' ∧
      (0 : Byte) ∉ rest' ∧ (behind = rest' ++ [0, 0] ∨ rest' = [] ∧ behind = [0]) := by
    rcases htail with rfl | ⟨rest', rfl⟩
    · refine ⟨0, [], [0], .inl rfl, by simp, ?_, List.not_mem_nil, .inr ⟨rfl, rfl⟩⟩
      rw [tokens_replicate_append, List.append_nil, tokens_self hne hfree, tokens_nil]
    · refine ⟨space, rest', rest' ++ [0, 0], .inr (delimiter_iff.mpr rfl), by simp, ?_, ?_,
        .inl rfl⟩
      · rw [tokens_replicate_append, tokens_append_sep hne hfree]
      · exact fun hmem => h.1 (List.mem_append_right _ (List.mem_append_right _
          (List.mem_cons_of_mem _ hmem)))
  rw [hsplit] at hall
  have hlength := congrArg List.length hsplit
  simp only [List.length_append, List.length_replicate, List.length_cons,
    List.length_nil] at hlength
  simp only [List.length_append, List.length_replicate] at hlast hfuel
  obtain ⟨htoken, hrest⟩ := hasBytes_append.mp hall
  have hbehindPos : 0 < behind.length := by rcases hbehind with rfl | ⟨-, rfl⟩ <;> simp
  have hscan : (List.replicate k space).length + c.length < strlenFuel := by
    rw [List.length_replicate]
    omega
  obtain ⟨t', hcall, hstr, hword, hkeeps⟩ := blStrtok_token htoken (hspaces k) hne hfree' hnul hd
    (by rw [List.length_replicate]; omega) hscan
  rw [List.length_append, List.length_append, List.length_singleton] at hrest
  simp only [List.length_replicate] at hcall hstr hword hkeeps hrest
  rw [Nat.mod_eq_of_lt (by omega)] at hstr
  have hplace : t.str + (k + (c.length + 1)) = t'.str := by omega
  have hleft : HasBytes t'.mem t'.str behind := by
    rw [← hplace]
    exact hrest.congr fun x hx _ => hkeeps.others x (.inr (by omega))
  refine ⟨_, t', hcall, keepsTo_mono hkeeps (by omega), by omega, .word hwords
    ⟨hword, hnul, by omega, by omega⟩ ⟨hnul', ?_⟩⟩
  rcases hbehind with rfl | ⟨rfl, rfl⟩
  · refine .inl ⟨hleft, ?_⟩
    simp only [List.length_append, List.length_cons, List.length_nil] at hlength
    omega
  · exact .inr ⟨rfl, hleft, by omega⟩

/-! ## The arguments -/

/-- The word as an array that the loader reads. -/
def listed (w : List Byte) : Mem := fun k => w.getD k 0

/-- The argument is the word, as far as the buffer goes. -/
def Stands (m : Mem) (w : List Byte) : Prop := SameString blShellBufferLength (listed w) m

theorem stands_take (w : List Byte) :
    SameString blShellBufferLength (listed (w.take blShellBufferLength)) (listed w) := by
  intro k _ hk _
  rw [listed, listed, List.getD_eq_getElem?_getD, List.getD_eq_getElem?_getD,
    List.getElem?_take_of_lt hk]

theorem Word.pointed (h : Word t p w) : SameString n (listed w) (pointed t.mem p) := by
  intro k _ _ hbefore
  have hspace := h.inSpace
  have hk : k ≤ w.length := by
    by_contra hlong
    exact hbefore w.length (Nat.zero_le _) (by omega) (by simp [listed])
  have hbyte := hasBytes_iff.mp h.bytes k (by rw [List.length_append]; exact Nat.lt_succ_of_le hk)
  rw [Shell.pointed, Nat.mod_eq_of_lt (by omega), hbyte, listed]
  rcases Nat.lt_or_eq_of_le hk with hlt | rfl
  · rw [List.getElem_append_left hlt, List.getD_eq_getElem _ _ hlt]
  · simp

/-- The copy of a word into an argument. -/
theorem Word.copied (h : Word t p w) (m : Mem) :
    Stands (blStrncpy m (Shell.pointed t.mem p) blShellBufferLength)
      (w.take blShellBufferLength) :=
  (stands_take w).trans (h.pointed.trans (blStrncpy_same _ _ _))

/-- The loop copies the words that there is room for. -/
theorem copyParts_copies (left argc : Nat) (arguments : Nat → Mem) (hcur : (words = [] ∧ p = 0) ∨
      ∃ w rest, words = w :: tokens space rest ∧ Word t p w ∧ Left t rest hi)
    (hhi : hi < 2 ^ 32) (hlo : 0 < lo) (hstr : lo ≤ t.str) :
    ∃ t' arguments', copyParts left argc p t arguments =
        some (argc + (words.take left).length, t', arguments') ∧ KeepsTo lo hi t t' ∧
      (∀ i w, (words.take left)[i]? = some w →
        Stands (arguments' (argc + i)) (w.take blShellBufferLength) ∧ (0 : Byte) ∉ w) ∧
      ∀ i, i < argc ∨ argc + (words.take left).length ≤ i → arguments' i = arguments i := by
  induction left generalizing argc p t words arguments with
  | zero => exact ⟨t, arguments, rfl, .refl t, by simp, fun _ _ => rfl⟩
  | succ left ih =>
    rcases hcur with ⟨rfl, rfl⟩ | ⟨w, rest, rfl, hword, hleft⟩
    · refine ⟨t, arguments, ?_, .refl t, by simp, fun _ _ => rfl⟩
      rw [copyParts, if_pos rfl]
      rfl
    rw [copyParts, if_neg hword.notNull]
    obtain ⟨q, t₁, hcall, hkeeps, hforward, hnext⟩ := blStrtok_next hleft hhi (by omega)
    have hcur' : (tokens space rest = [] ∧ q = 0) ∨ ∃ w rest', tokens space rest =
        w :: tokens space rest' ∧ Word t₁ q w ∧ Left t₁ rest' hi := by
      cases hnext with
      | none hwords => exact .inl ⟨hwords, rfl⟩
      | word hwords hword hleft => exact .inr ⟨_, _, hwords, hword, hleft⟩
    obtain ⟨t', arguments', hrest, hkeeps', hstands, hsame⟩ := ih (argc + 1)
      (Function.update arguments argc
        (blStrncpy (arguments argc) (Shell.pointed t.mem p) blShellBufferLength))
      hcur' (hstr.trans hforward)
    rw [hcall, Option.bind_some]
    dsimp only
    rw [hrest, List.take_succ_cons, List.length_cons]
    refine ⟨t', arguments', by rw [Nat.add_right_comm argc, Nat.add_assoc argc], ?_, ?_, ?_⟩
    · exact ((KeepsTo.refl t).trans hkeeps hstr le_rfl).trans hkeeps' le_rfl le_rfl
    · intro i v hv
      cases i with
      | zero =>
        obtain rfl := Option.some.inj hv
        rw [Nat.add_zero, hsame argc (.inl (Nat.lt_succ_self argc)), Function.update_self]
        exact ⟨hword.copied _, hword.noNul⟩
      | succ i =>
        have h := hstands i v hv
        rwa [Nat.add_right_comm, Nat.add_assoc] at h
    · intro i hi
      rw [hsame i (by omega), Function.update_of_ne (by omega)]

/-! ## The command -/

variable {a v : List Byte} {k : Nat} {name : Mem}

theorem listed_same (ha : (0 : Byte) ∉ a) (hlen : a.length ≤ n) (h : SameString n (listed a) m)
    (hk : k < a.length) : m k = a[k] ∧ m k ≠ 0 := by
  have hne : ∀ j (hj : j < a.length), listed a j = a[j] ∧ a[j] ≠ 0 := fun j hj =>
    ⟨List.getD_eq_getElem _ _ hj, fun hzero => ha (hzero ▸ List.getElem_mem hj)⟩
  have hsame := h k (Nat.zero_le k) (by omega) fun j _ hj => by
    rw [(hne j (by omega)).1]
    exact (hne j (by omega)).2
  rw [← hsame, (hne k hk).1]
  exact ⟨rfl, (hne k hk).2⟩

theorem sameString_listed_iff (ha : (0 : Byte) ∉ a) (hv : (0 : Byte) ∉ v) (hlen : a.length ≤ n)
    (hlen' : v.length ≤ n) : SameString n (listed a) (listed v) ↔ a = v := by
  refine ⟨fun h => ?_, fun h => h ▸ fun _ _ _ _ => rfl⟩
  have hend : ∀ u : List Byte, ∀ k, listed u k ≠ 0 → k < u.length := fun u k hk => by
    by_contra hlong
    exact hk (by rw [listed, List.getD_eq_default _ _ (Nat.not_lt.mp hlong)])
  have hle : a.length ≤ v.length := by
    by_contra hlong
    exact absurd (hend v _ (listed_same ha hlen h (Nat.not_le.mp hlong)).2) (lt_irrefl _)
  have hge : v.length ≤ a.length := by
    by_contra hlong
    exact absurd (hend a _ (listed_same hv hlen' h.symm (Nat.not_le.mp hlong)).2) (lt_irrefl _)
  refine List.ext_getElem (le_antisymm hle hge) fun k hk hk' => ?_
  have hbyte := (listed_same ha hlen h hk).1
  rw [listed, List.getD_eq_getElem _ _ hk'] at hbyte
  exact hbyte.symm

theorem command_short (command : BlCommand) :
    (0 : Byte) ∉ command.command ∧ command.command.length ≤ blShellBufferLength := by
  cases command <;> decide

/-- The first argument decides. -/
theorem commandNamed_eq (h : Stands name w) (hw : (0 : Byte) ∉ w)
    (hlen : w.length ≤ blShellBufferLength) :
    commandNamed name = blCommands.find? fun command => command.command = w := by
  unfold commandNamed
  congr 1
  funext command
  obtain ⟨hzero, hshort⟩ := command_short command
  refine decide_eq_decide.mpr (blStrncmp_eq_zero_iff.trans ⟨fun hsame => ?_, fun hsame => ?_⟩)
  · exact ((sameString_listed_iff hw hzero hlen hshort).mp (h.trans hsame)).symm
  · subst hsame
    exact h.symm

/-! ## One line -/

/-- The variables are those of the session. -/
structure Means (c : Interpreter) (s : Session) : Prop where
  stands : ∀ i < blArguments, Stands (c.arguments i) (s.words i)
  noNul : ∀ i, (0 : Byte) ∉ s.words i
  short : ∀ i, (s.words i).length ≤ blShellBufferLength
  record : c.record = s.record

/-- A line that is entered: its text, where it stands, and what lies below the heap then. -/
structure Line where
  text : List Byte
  buffer : Nat
  below : Mem

/-- What lies below the heap is the loader's own. -/
def Line.mem (l : Line) (heap : BlHeap) : Mem :=
  fun x => if x < heap.heap then l.below x else heap.mem x

def Interpreter.enter (c : Interpreter) (l : Line) : Option Interpreter :=
  blCommandRun { c with heap := { c.heap with mem := l.mem c.heap } } l.buffer

/-- A line below the heap. Its copy does not end where a head may begin, since the zero behind the
copy's terminator would go there. -/
structure Line.Fits (l : Line) (base : Nat) : Prop where
  bytes : HasBytes l.below l.buffer (l.text ++ [0])
  noNul : (0 : Byte) ∉ l.text
  notNull : l.buffer ≠ 0
  outside : l.buffer + l.text.length < base
  spare : ¬ 16 ∣ l.text.length + 1

/-- What the copy takes of the heap. -/
def Line.reach (l : Line) : Nat := Heap.reach (l.text.length + 1) 0

theorem used_granted (h : Granted bs bs' b) :
    (bs'.filter (·.used)).length = (bs.filter (·.used)).length + 1 := by
  cases h with
  | first b hused => simp [hused]
  | reused pre post b hfree =>
    simp only [List.filter_append, List.filter_cons, hfree, List.length_append]
    simp
    omega
  | appended bs b hne hused => simp [hused]

theorem parts_word {i : Nat} (hw : (parts text)[i]? = some w) :
    ∃ v, ((tokens space text).take blArguments)[i]? = some v ∧ v.take blShellBufferLength = w := by
  rw [parts, List.getElem?_map] at hw
  exact Option.map_eq_some_iff.mp hw

/-- What the loop makes of the arguments is what the line says. -/
theorem means_words {c : Interpreter} {s : Session} {arguments' : Nat → Mem} (h : Means c s)
    (hnew : ∀ i w, ((tokens space text).take blArguments)[i]? = some w →
      Stands (arguments' (0 + i)) (w.take blShellBufferLength) ∧ (0 : Byte) ∉ w)
    (hold : ∀ i, i < 0 ∨ 0 + ((tokens space text).take blArguments).length ≤ i →
      arguments' i = c.arguments i) (heap : BlHeap) (str : Nat) (record : Record) :
    Means ⟨heap, str, arguments', record⟩
      ⟨fun i => (parts text)[i]?.getD (s.words i), record⟩ := by
  have hword : ∀ i, (∃ w, (parts text)[i]? = some w ∧ Stands (arguments' i) w ∧ (0 : Byte) ∉ w ∧
      w.length ≤ blShellBufferLength) ∨
        (parts text)[i]? = none ∧ arguments' i = c.arguments i := by
    intro i
    cases hi : (parts text)[i]? with
    | some w =>
      obtain ⟨v, hv, rfl⟩ := parts_word hi
      obtain ⟨hstands, hnul⟩ := hnew i v hv
      rw [Nat.zero_add] at hstands
      exact .inl ⟨_, rfl, hstands, fun hmem => hnul (List.mem_of_mem_take hmem),
        List.length_take_le _ _⟩
    | none =>
      refine .inr ⟨rfl, hold i (.inr ?_)⟩
      have hlen := List.getElem?_eq_none_iff.mp hi
      rwa [parts, List.length_map, ← Nat.zero_add (List.length _)] at hlen
  refine ⟨fun i hi => ?_, fun i => ?_, fun i => ?_, rfl⟩ <;>
    rcases hword i with ⟨w, hw, hstands, hnul, hshort⟩ | ⟨hw, hsame⟩ <;> simp only [hw]
  · exact hstands
  · rw [hsame]
    exact h.stands i hi
  · exact hnul
  · exact h.noNul i
  · exact hshort
  · exact h.short i

/-- The blocks that were in use are as they were, and `n` more are in use. -/
structure Kept (s s' : BlHeap) (bs bs' : List Block) (n : Nat) : Prop where
  inv : HeapInv s' bs'
  base : s.heap ≤ s'.heap
  leaked : (bs'.filter (·.used)).length = (bs.filter (·.used)).length + n
  inUse : InUseKept s s' bs bs'

theorem Kept.trans {s₂ : BlHeap} {bs₂ : List Block} {k : Nat} (h : Kept s s₁ bs bs' n)
    (h' : Kept s₁ s₂ bs' bs₂ k) : Kept s s₂ bs bs₂ (n + k) where
  inv := h'.inv
  base := h.base.trans h'.base
  leaked := by rw [h'.leaked, h.leaked, Nat.add_assoc]
  inUse := h.inUse.trans h'.inUse

/-- The copy of a command that is executed is never freed. -/
theorem Copying.leak (h : Copying s bs bs' b n s₁) : Kept s s₁ bs bs' 1 := by
  have hinv := h.inv
  obtain ⟨s₂, hall, hsame, -⟩ := h.allocated
  refine ⟨hinv, ?_, used_granted hall.granted, hall.inUseKept.used, fun d hd hused x hx =>
    h.kept fun howned => howned.2 d hd hused hx⟩
  rw [← hsame]
  exact hall.base

theorem Copying.free (h : Copying s bs bs' b n s₁) (hends : EndsBy s₁ bs' e) :
    ∃ bs₂, Kept s (blHeapFree s₁ b.payload) bs bs₂ 0 ∧
      EndsBy (blHeapFree s₁ b.payload) bs₂ e := by
  have hinv := h.inv
  have hleak := h.leak
  obtain ⟨s₂, hall, -, -⟩ := h.allocated
  obtain ⟨pre, post, rfl, hfilter⟩ := hall.granted.released
  have hb : b ∈ pre ++ b :: post := List.mem_append_right _ List.mem_cons_self
  refine ⟨_, ⟨hinv.free, ?_, by rw [hfilter]; rfl, ?_, ?_⟩, ?_, ?_⟩
  · rw [blHeapFree_heap]
    exact hleak.base
  · intro d hd hused
    exact List.mem_of_mem_filter (hfilter ▸ List.mem_filter.mpr ⟨hd, hused⟩)
  · intro d hd hused x hx
    have hd' := hleak.inUse.used d hd hused
    rw [blHeapFree_outside hinv hb (payload_not_head hinv.ordered hd' hb hx)]
    exact hleak.inUse.payloads d hd hused x hx
  · rw [blHeapFree_heap]
    exact hends.1
  · intro d hd
    rcases List.mem_append.mp hd with hd | hd
    · exact hends.2 d (List.mem_append_left _ hd)
    · rcases List.mem_cons.mp hd with rfl | hd
      · exact hends.2 b hb
      · exact hends.2 d (List.mem_append_right _ (List.mem_cons_of_mem _ hd))

variable {l : Line}

theorem Line.mem_heap (l : Line) (hx : s.heap ≤ x) : l.mem s x = s.mem x :=
  if_neg (Nat.not_lt.mpr hx)

theorem Line.heapInv (l : Line) (h : HeapInv s bs) : HeapInv { s with mem := l.mem s } bs :=
  h.frame fun _ hb _ hx => l.mem_heap ((h.heap_le_head hb).trans hx.1)

theorem Line.kept (l : Line) (h : HeapInv s bs) : Kept s { s with mem := l.mem s } bs bs 0 := by
  refine ⟨l.heapInv h, le_rfl, rfl, .of_memory fun d hd _ x hx => l.mem_heap ?_⟩
  have hhead := h.heap_le_head hd
  have hlow := hx.1
  rw [Block.payload] at hlow
  omega

theorem Line.Fits.string (h : l.Fits s.heap) (hinv : HeapInv s bs) :
    StringAt { s with mem := l.mem s } bs l.buffer l.text where
  bytes := h.bytes.congr fun x _ hx => if_pos (by
    have houtside := h.outside
    rw [List.length_append, List.length_singleton] at hx
    omega)
  noNul := h.noNul
  notNull := h.notNull
  inSpace := h.outside.trans hinv.baseInSpace
  apart i hi howned := by
    have hlow := howned.1
    have houtside := h.outside
    simp only at hlow
    omega

/-- The parts of the copy of a line. -/
theorem copied_parts (h : HeapInv s bs) (hheap : s.heap ≠ 0) (hs : StringAt s bs src text)
    (hends : EndsBy s bs e) (hroom : e + reach (text.length + 1) 0 ≤ 2 ^ 32)
    (hn : ¬ 16 ∣ text.length + 1) (str : Nat) (arguments : Nat → Mem) :
    ∃ r bs' b p t t' arguments', blStrndup s src text.length = some r ∧ r.res = b.payload ∧
      b.payload ≠ 0 ∧
      blStrtok strlenFuel ⟨r.heap.mem, str, []⟩ r.res (some blCommandDelimiter) = some (p, t) ∧
      copyParts blArguments 0 p t arguments = some ((parts text).length, t', arguments') ∧
      Copying s bs bs' b (text.length + 1) { r.heap with mem := t'.mem } ∧
      EndsBy { r.heap with mem := t'.mem } bs' (e + reach (text.length + 1) 0) ∧
      (∀ i w, ((tokens space text).take blArguments)[i]? = some w →
        Stands (arguments' (0 + i)) (w.take blShellBufferLength) ∧ (0 : Byte) ∉ w) ∧
      ∀ i, i < 0 ∨ 0 + ((tokens space text).take blArguments).length ≤ i →
        arguments' i = arguments i := by
  obtain ⟨r, bs', b, hdup, hres, hcopying, hends', hbytes, hend⟩ :=
    strndup_copying h hheap hs hends hroom hn
  have hpos : b.payload ≠ 0 := by
    rw [Block.payload]
    omega
  have hleft : Left ⟨r.heap.mem, b.payload, []⟩ text (b.payload + (text.length + 1)) :=
    ⟨hs.noNul, .inl ⟨hbytes, le_rfl⟩⟩
  obtain ⟨p, t, hcall, hkeeps, hforward, hnext⟩ := blStrtok_next hleft hend hpos
  have hcur : (tokens space text = [] ∧ p = 0) ∨ ∃ w rest, tokens space text =
      w :: tokens space rest ∧ Word t p w ∧ Left t rest (b.payload + (text.length + 1)) := by
    cases hnext with
    | none hwords => exact .inl ⟨hwords, rfl⟩
    | word hwords hword hleft => exact .inr ⟨_, _, hwords, hword, hleft⟩
  obtain ⟨t', arguments', hloop, hkeeps', hnew, hold⟩ := copyParts_copies blArguments 0 arguments
    hcur hend (Nat.pos_of_ne_zero hpos) hforward
  have hboth : KeepsTo b.payload (b.payload + (text.length + 1)) ⟨r.heap.mem, b.payload, []⟩ t' :=
    hkeeps.trans hkeeps' le_rfl le_rfl
  refine ⟨r, bs', b, p, t, t', arguments', hdup, hres, hpos, ?_, ?_, hcopying.write ?_, hends', hnew,
    hold⟩
  · rw [hres, blStrtok_first hpos]
    exact hcall
  · rw [hloop, parts, List.length_map, Nat.zero_add]
  · intro x hx
    unfold Private at hx
    exact hboth.others x (by omega)

theorem enter_means {c : Interpreter} {s : Session} (h : HeapInv c.heap bs)
    (hheap : c.heap.heap ≠ 0) (hends : EndsBy c.heap bs e) (hmeans : Means c s)
    (hl : l.Fits c.heap.heap) (hroom : e + l.reach ≤ 2 ^ 32) :
    ∃ c' bs' n, c.enter l = some c' ∧ Means c' (s.enter l.text) ∧ Kept c.heap c'.heap bs bs' n ∧
      EndsBy c'.heap bs' (e + l.reach) ∧
      (s.enter l.text).record.calls.length = s.record.calls.length + n := by
  have hentered := l.kept h
  have hstring := hl.string h
  rw [Interpreter.enter, blCommandRun, hstring.blStrlen_eq, Option.bind_some, Session.enter]
  by_cases hempty : l.text = []
  · rw [if_pos hempty, if_pos (by rw [hempty]; rfl)]
    refine ⟨_, bs, 0, rfl, ⟨hmeans.stands, hmeans.noNul, hmeans.short, hmeans.record⟩, hentered, ?_,
      rfl⟩
    exact ⟨hends.1.trans (Nat.le_add_right _ _),
      fun d hd => (hends.2 d hd).trans (Nat.le_add_right _ _)⟩
  obtain ⟨r, bs', b, p, t, t', arguments', hdup, hres, hpos, hcall, hloop, hcopying, hends', hnew,
    hold⟩ := copied_parts (l.heapInv h) hheap hstring hends hroom hl.spare c.strtokStr c.arguments
  have hwords := means_words hmeans hnew hold
  have hname := commandNamed_eq ((hwords c.heap 0 s.record).stands 0 (by decide))
    ((hwords c.heap 0 s.record).noNul 0) ((hwords c.heap 0 s.record).short 0)
  rw [if_neg hempty, if_neg (fun hlen => hempty (List.length_eq_zero_iff.mp hlen)), hdup,
    Option.bind_some, if_neg (hres ▸ hpos), hcall, Option.bind_some]
  dsimp only at hname ⊢
  rw [hloop, Option.map_some]
  dsimp only
  rw [hname]
  cases hcommand : blCommands.find? fun command =>
      command.command = (parts l.text)[0]?.getD (s.words 0) with
  | some command =>
    refine ⟨_, bs', 1, rfl, hmeans.record ▸ hwords _ _ _, hentered.trans hcopying.leak, hends', ?_⟩
    simp [Record.execute]
  | none =>
    obtain ⟨bs₂, hfreed, hends₂⟩ := hcopying.free hends'
    rw [hres]
    exact ⟨_, bs₂, 0, rfl, hmeans.record ▸ hwords _ _ _, hentered.trans hfreed, hends₂, rfl⟩

/-! ## All lines -/

theorem enterAll_means {c : Interpreter} {s : Session} {lines : List Line} {base : Nat}
    (h : HeapInv c.heap bs) (hheap : c.heap.heap ≠ 0) (hends : EndsBy c.heap bs e)
    (hmeans : Means c s) (hbase : base ≤ c.heap.heap) (hfits : ∀ l ∈ lines, l.Fits base)
    (hroom : e + (lines.map Line.reach).sum ≤ 2 ^ 32) :
    ∃ c' bs' n, lines.foldlM Interpreter.enter c = some c' ∧
      Means c' ((lines.map Line.text).foldl Session.enter s) ∧ Kept c.heap c'.heap bs bs' n ∧
      c'.record.calls.length = c.record.calls.length + n := by
  induction lines generalizing c s bs e with
  | nil =>
    exact ⟨c, bs, 0, rfl, hmeans, ⟨h, le_rfl, rfl, .of_memory fun _ _ _ _ _ => rfl⟩, rfl⟩
  | cons l lines ih =>
    rw [List.map_cons, List.sum_cons, ← Nat.add_assoc] at hroom
    have hl := hfits l List.mem_cons_self
    obtain ⟨c₁, bs₁, n, henter, hmeans₁, hkept, hends₁, hcalls⟩ := enter_means h hheap hends hmeans
      { hl with outside := hl.outside.trans_le hbase } (by omega)
    have hgrown := hkept.base
    obtain ⟨c', bs', k, hrest, hmeans', hkept', hcalls'⟩ := ih hkept.inv (by omega) hends₁ hmeans₁
      (hbase.trans hgrown) (fun l hl => hfits l (List.mem_cons_of_mem _ hl)) hroom
    refine ⟨c', bs', n + k, ?_, hmeans', hkept.trans hkept', ?_⟩
    · rw [List.foldlM_cons, henter]
      exact hrest
    · rw [hcalls', hmeans₁.record, hcalls, hmeans.record, Nat.add_assoc]

theorem setup_means (c : Interpreter) :
    Means (blCommandSetup c) ⟨fun _ => [], c.record⟩ where
  stands i hi k _ hk _ := by
    refine Eq.symm (if_pos ?_)
    simp only [blArguments, blShellBufferLength] at *
    omega
  noNul _ := List.not_mem_nil
  short _ := Nat.zero_le _
  record := rfl

/-- Nothing is on the heap, and the arguments have not been set up. -/
def console : Interpreter := ⟨⟨fun _ => 0, 0x100000, 0, 0⟩, 0, fun _ _ => 0xff, ⟨0, [], []⟩⟩

def typed (text : List Byte) : Line := ⟨text, 0x7000, fun x => text.getD (x - 0x7000) 0⟩

theorem typed_fits (hnul : (0 : Byte) ∉ text) (hlow : 0x7000 + text.length < 0x100000)
    (hspare : ¬ 16 ∣ text.length + 1) : (typed text).Fits 0x100000 where
  bytes := hasBytes_iff.mpr fun k hk => by
    simp only [typed, Nat.add_sub_cancel_left]
    rw [List.getD_eq_getElem?_getD, List.getElem_append]
    split <;> simp [*]
  noNul := hnul
  notNull := by simp [typed]
  outside := hlow
  spare := hspare

/-- `false  x`, and blanks. -/
def twoLines : List Line :=
  [typed [0x66, 0x61, 0x6c, 0x73, 0x65, 0x20, 0x20, 0x78], typed [0x20, 0x20, 0x20]]

end BootLoader.Shell
