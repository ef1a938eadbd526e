import BootLoader.Vbe.Selection
import BootLoader.Video.Bounds

/-!
# The start of the graphics

Over any list of drivers and any BIOS, `bl_video_driver_probe` ends with the picture that the first
fit mode has, or with nothing set up and nothing held.
-/

open ByteMemory

namespace BootLoader.Vbe

open Driver Video

variable {p : Platform} {s : State} {n : BitVec 16} {m block info : Mem}
  {modes modes' : List (BitVec 16)} {start : Nat}

/-- The BIOS knows the VBE and lists these modes. -/
def Lists (p : Platform) (s : State) (modes : List (BitVec 16)) : Prop :=
  ∃ block, p.bios.infoBlock = some block ∧ Valid block ∧
    ListedAt (filled s.mem p.infoBlock sizeofInfoBlock block) (listAddress block) modes

theorem ListedAt.unique (h : ListedAt m start modes) (h' : ListedAt m start modes') :
    modes = modes' := by
  have hlength : modes.length = modes'.length :=
    Option.some.inj (h.listEndFrom.symm.trans h'.listEndFrom)
  refine List.ext_getElem hlength fun i hi hi' => BitVec.eq_of_toNat_eq ?_
  rw [← h.mode i hi, h'.mode i hi']

theorem Lists.unique (h : Lists p s modes) (h' : Lists p s modes') : modes = modes' := by
  obtain ⟨block, hblock, -, hlisted⟩ := h
  obtain ⟨block', hblock', -, hlisted'⟩ := h'
  obtain rfl : block = block' := Option.some.inj (hblock.symm.trans hblock')
  exact hlisted.unique hlisted'

/-! ## The driver's functions -/

/-- After `bl_vbe_init`: the copy is the only block that is held. -/
structure Copied (s s' : State) (modes : List (BitVec 16)) : Prop where
  modes_eq : s'.vbeVideoModes = some s.world.next
  count_eq : s'.vbeVideoModesCount = modes.length
  copied : CopiedFrom (s'.world.bytes s.world.next) 0 modes
  held : Ledger s.world s'.world [s.world.next]
  card_eq : s'.card = s.card

theorem blVbeInit_cases (hsegment : InSegment p.infoBlock sizeofInfoBlock)
    (hlist : ∀ block, p.bios.infoBlock = some block → Valid block → ∃ modes,
      ListedAt (filled s.mem p.infoBlock sizeofInfoBlock block) (listAddress block) modes) :
    (∃ s' status, blVbeInit p s = some (s', status) ∧ status ≠ .success ∧
        Ledger s.world s'.world [] ∧ s'.card = s.card ∧
        ∀ modes, Lists p s modes → modes = [] ∨ p.env.allocs s.world.allocs = false) ∨
      ∃ s' modes, blVbeInit p s = some (s', .success) ∧ Lists p s modes ∧
        p.env.allocs s.world.allocs = true ∧ Copied s s' modes := by
  rw [blVbeInit, blVbeGetInfoBlock_eq]
  cases hblock : p.bios.infoBlock with
  | none =>
    refine .inl ⟨s, _, rfl, by decide, .start _, rfl, ?_⟩
    rintro modes ⟨block, hsome, -⟩
    exact absurd (hblock.symm.trans hsome) nofun
  | some block =>
    have hbytes : ∀ k < sizeofInfoBlock, blockAt (filled s.mem p.infoBlock sizeofInfoBlock block)
        p.infoBlock k = block k := fun k hk => blockAt_writeFar hsegment s.mem block hk
    have hlists : ∀ modes, Lists p s modes ↔ Valid block ∧
        ListedAt (filled s.mem p.infoBlock sizeofInfoBlock block) (listAddress block) modes := by
      refine fun modes => ⟨?_, fun h => ⟨block, hblock, h⟩⟩
      rintro ⟨block', hsome, h⟩
      obtain rfl : block = block' := Option.some.inj (hblock.symm.trans hsome)
      exact h
    have hlist := hlist block hblock
    dsimp only
    generalize filled s.mem p.infoBlock sizeofInfoBlock block = mem at hbytes hlists hlist ⊢
    by_cases hvalid : Valid block
    · obtain ⟨modes, hlisted⟩ := hlist hvalid
      have haddress : (blBiosFarPtrToAddress (videoModes (blockAt mem p.infoBlock))).toNat =
          listAddress block := listAddress_congr hbytes
      rw [if_pos ((valid_congr hbytes).mpr hvalid)]
      dsimp only
      rw [haddress]
      by_cases hempty : listedMode mem (listAddress block) 0 = blVbeVideoModesListEnd
      · rw [if_pos hempty]
        refine .inl ⟨_, _, rfl, by decide, .start _, rfl, fun modes' h => .inl ?_⟩
        have hlisted' := ((hlists modes').mp h).2
        by_contra hne
        have hpos : 0 < modes'.length := List.length_pos_iff.mpr hne
        exact hlisted'.notEnd _ (List.getElem_mem hpos) ((hlisted'.mode 0 hpos).symm.trans hempty)
      · rw [if_neg hempty, hlisted.listEndFrom]
        dsimp only
        rcases (Ledger.start s.world).alloc p.env with
          ⟨hrefused, w, hw, hledger⟩ | ⟨hserved, w, hw, -, -, -, -, hledger⟩
        · rw [hw]
          exact .inl ⟨_, _, rfl, by decide, hledger, rfl, fun _ _ => .inr hrefused⟩
        · rw [hw]
          refine .inr ⟨_, modes, rfl, (hlists modes).mpr ⟨hvalid, hlisted⟩, hserved, rfl, rfl, ?_,
            hledger.congr rfl rfl rfl, rfl⟩
          dsimp only
          rw [Function.update_self]
          exact hlisted.copied
    · rw [if_neg (mt (valid_congr hbytes).mp hvalid)]
      exact .inl ⟨_, _, rfl, by decide, .start _, rfl,
        fun modes h => absurd ((hlists modes).mp h).1 hvalid⟩

/-- After `bl_vbe_set_video`: this mode is set, and the driver has its block. -/
structure IsSet (s : State) (n : BitVec 16) (info : Mem) : Prop where
  card_eq : s.card = ⟨some (modeWithFlags n), (0, 0)⟩
  number_eq : s.vbeSelectedModeNumber = n
  info_eq : infoOf s.vbeSelectedMode = infoOf info

theorem blVbeSetVideo_cases {b : Nat} (hsegment : InSegment p.modeInfoBlock sizeofModeInfoBlock)
    (hmodes : s.vbeVideoModes = some b) (hcount : s.vbeVideoModesCount = modes.length)
    (hcopied : CopiedFrom (s.world.bytes b) 0 modes) :
    ∃ s' status, blVbeSetVideo p s = (s', status) ∧ s'.world = s.world ∧
      s'.vbeVideoModes = some b ∧
      ((∃ n info, modes.find? (fit p.bios) = some n ∧ modeBlock p.bios n = some info ∧
          p.bios.canSet (modeWithFlags n) = true ∧ p.bios.canStart = true ∧
          status = .success ∧ IsSet s' n info) ∨
        status ≠ .success ∧ (p.bios.canStart = true → s'.card = s.card) ∧
          ∀ n, modes.find? (fit p.bios) = some n → p.bios.canSet (modeWithFlags n) = true →
            p.bios.canStart = false) := by
  obtain ⟨mem, found, hselect, hsearch⟩ := selectFrom_search hsegment hcopied s
  rw [blVbeSetVideo, hmodes, hcount]
  dsimp only
  rw [hselect]
  cases hsearch with
  | none hfind =>
    exact ⟨_, _, rfl, rfl, hmodes, .inr ⟨by decide, fun _ => rfl,
      fun n hn => absurd (hfind.symm.trans hn) nofun⟩⟩
  | @some n block k hfind hblock hmode hinfo =>
    dsimp only
    rw [hmode, blVbeSetMode_eq]
    cases hset : p.bios.canSet (modeWithFlags n) with
    | false =>
      refine ⟨_, _, rfl, rfl, hmodes, .inr ⟨by decide, fun _ => rfl, fun n' hn' hset' => ?_⟩⟩
      obtain rfl : n = n' := Option.some.inj (hfind.symm.trans hn')
      exact absurd (hset.symm.trans hset') nofun
    | true =>
      simp only [if_true]
      rw [blVbeSetDisplayStart_eq]
      cases hstart : p.bios.canStart with
      | false =>
        exact ⟨_, _, rfl, rfl, hmodes, .inr ⟨by decide, nofun, fun _ _ _ => rfl⟩⟩
      | true =>
        exact ⟨_, _, rfl, rfl, hmodes, .inl ⟨n, block, hfind, hblock, hset, rfl, rfl,
          rfl, rfl, infoOf_congr hinfo⟩⟩

theorem blVbeGetInfo_eq {b : Nat} (hmodes : s.vbeVideoModes = some b) (hset : IsSet s n info)
    (hn : modeBlock p.bios n = some block) (video : BlVideoInfo) :
    blVbeGetInfo s video = (.success, infoOf info) := by
  have hne : n ≠ 0 := by
    rintro rfl
    exact nomatch (show modeBlock p.bios 0 = none from if_pos (by decide)).symm.trans hn
  have hsome : ¬ (s.vbeVideoModes = none ∨ s.vbeSelectedModeNumber = 0) := by
    rw [hmodes, hset.number_eq]
    exact fun h => h.elim nofun hne
  rw [blVbeGetInfo, if_neg hsome, ← hset.info_eq]
  rfl

theorem Acceptable.depthOk (h : Acceptable info) : (infoOf info).DepthOk := by
  obtain ⟨-, -, -, -, -, -, -, hbits, -⟩ := h
  have hdepth : ∀ bits ∈ [15, 16, 24, 32],
      (bits = 15 ∨ bits = 16 ∨ bits = 24 ∨ bits = 32) ∧
        (bits + (bits &&& 0x7)) >>> 3 % 2 ^ 8 = (bits + (bits &&& 7)) >>> 3 := by decide
  exact ⟨(hdepth _ hbits).1, (hdepth _ hbits).2⟩

/-! ## The drivers in their order -/

theorem probeDrivers_skip {σ : Type*} {before : List (BlVideoDriver σ)}
    (h : ∀ d ∈ before, d.type ≠ .vbeGraphics) (rest : List (BlVideoDriver σ)) (s : σ) :
    probeDrivers (before ++ rest) s = probeDrivers rest s := by
  induction before with
  | nil => rfl
  | cons d before ih =>
    have hd : blVideoTypeSupported d.type ≠ .success := by
      rw [blVideoTypeSupported, if_neg (h d List.mem_cons_self)]
      decide
    rw [List.cons_append, probeDrivers, if_pos hd]
    exact ih fun d hd => h d (List.mem_cons_of_mem _ hd)

theorem probeDrivers_none {σ : Type*} {drivers : List (BlVideoDriver σ)}
    (h : ∀ d ∈ drivers, d.type ≠ .vbeGraphics) (s : σ) :
    probeDrivers drivers s = some (s, none) := by
  rw [← List.append_nil drivers, probeDrivers_skip h]
  rfl

section

variable {drivers : List (BlVideoDriver State)} {s₁ s₂ : State} {status : BlStatus}

theorem vbe_supported (p : Platform) : ¬ blVideoTypeSupported (vbe p).type ≠ .success :=
  not_not.mpr rfl

theorem probeDrivers_init_failed (h : ∀ d ∈ drivers, d.type ≠ .vbeGraphics)
    (hinit : (vbe p).init s = some (s₁, status)) (hstatus : status ≠ .success) :
    probeDrivers (vbe p :: drivers) s = some (s₁, none) := by
  rw [probeDrivers, if_neg (vbe_supported p), hinit]
  cases status <;> first | exact probeDrivers_none h s₁ | exact absurd rfl hstatus

theorem probeDrivers_set_failed (h : ∀ d ∈ drivers, d.type ≠ .vbeGraphics)
    (hinit : (vbe p).init s = some (s₁, .success)) (hset : (vbe p).setVideo s₁ = (s₂, status))
    (hstatus : status ≠ .success) :
    probeDrivers (vbe p :: drivers) s = some ((vbe p).uninit s₂, none) := by
  rw [probeDrivers, if_neg (vbe_supported p), hinit]
  dsimp only
  rw [hset]
  cases status <;> first | exact probeDrivers_none h _ | exact absurd rfl hstatus

theorem probeDrivers_set (hinit : (vbe p).init s = some (s₁, .success))
    (hset : (vbe p).setVideo s₁ = (s₂, .success)) :
    probeDrivers (vbe p :: drivers) s = some (s₂, some (vbe p)) := by
  rw [probeDrivers, if_neg (vbe_supported p), hinit]
  dsimp only
  rw [hset]

end

/-- The mode that the BIOS's own list leads to, and that can be set. -/
structure Selected (p : Platform) (s : State) (n : BitVec 16) (info : Mem) : Prop where
  first : ∃ modes, Lists p s modes ∧ modes.find? (fit p.bios) = some n
  info_eq : modeBlock p.bios n = some info
  served : p.env.allocs s.world.allocs = true
  canSet : p.bios.canSet (modeWithFlags n) = true
  canStart : p.bios.canStart = true

theorem Selected.acceptable (h : Selected p s n info) : Acceptable info := by
  obtain ⟨modes, -, hfind⟩ := h.first
  have hfit := List.find?_some hfind
  rw [fit, h.info_eq] at hfit
  exact of_decide_eq_true hfit

/-- What the frame buffer starts with. -/
def started (info : BlVideoInfo) (heapAlloc : Nat → Nat) : BlFb :=
  { info, renderer := 0, dirtyArea := noDirtyArea, doubleBuffer := heapAlloc (bufferSize info) }

theorem blFbInit_started {getInfo : BlVideoInfo → BlStatus × BlVideoInfo} {fb : BlFb}
    {info : BlVideoInfo} (h : getInfo fb.info = (.success, info)) (heapAlloc : Nat → Nat) :
    blFbInit (some getInfo) heapAlloc fb =
      (if (started info heapAlloc).doubleBuffer = 0 then .memoryAllocationFailed else .success,
        started info heapAlloc) := by
  rw [blFbInit]
  dsimp only
  rw [h, if_neg (not_not.mpr rfl)]
  exact (apply_ite (fun status => (status, started info heapAlloc)) _ _ _).symm

/-- This is the one driver for a BIOS, somewhere in the list. -/
def OnlyVbe (p : Platform) (drivers : List (BlVideoDriver State)) : Prop :=
  ∃ before after, drivers = before ++ vbe p :: after ∧
    (∀ d ∈ before, d.type ≠ .vbeGraphics) ∧ ∀ d ∈ after, d.type ≠ .vbeGraphics

def bytesAt (bytes : List (Nat × Byte)) : Mem := fun k => (bytes.lookup k).getD 0

def sampleInfo : Mem :=
  bytesAt [(0, 0x56), (1, 0x45), (2, 0x53), (3, 0x41), (5, 0x03), (17, 0x02)]

def sampleMode : Mem :=
  bytesAt [(0, 0x99), (17, 0x08), (19, 0x04), (21, 0x03), (25, 16), (27, 6), (31, 5), (32, 11),
    (33, 6), (34, 5), (35, 5), (43, 0xe0)]

def sampleBios : VideoBios where
  infoBlock := some sampleInfo
  modeInfo n := if n = 0x117 then some sampleMode else none
  canSet n := n = 0x4117
  canStart := true

def samplePlatform : Platform where
  env := ⟨fun _ => true, fun _ => .success, fun _ => 0⟩
  bios := sampleBios
  infoBlock := 0x1000
  modeInfoBlock := 0x1200
  regs := ⟨0, 0, 0, 0, 0, 0, 0, 0, 0, 0, 0⟩

def sampleState : State where
  world := ⟨0, fun _ _ => 0, fun _ => false, 0, 0, []⟩
  mem := bytesAt [(0x2000, 0x11), (0x2001, 0x01), (0x2002, 0x17), (0x2003, 0x01), (0x2004, 0xff),
    (0x2005, 0xff)]
  card := ⟨none, (0, 0)⟩
  vbeVideoMemorySize := 0
  vbeVideoModesCount := 0
  vbeVideoModes := none
  vbeSelectedModeNumber := 0
  vbeSelectedMode := fun _ => 0

theorem sample_infoBlock : InSegment samplePlatform.infoBlock sizeofInfoBlock :=
  ⟨by decide, by decide⟩

theorem sample_listed : ListedAt (filled sampleState.mem samplePlatform.infoBlock sizeofInfoBlock
    sampleInfo) (listAddress sampleInfo) [0x111, 0x117] := by
  rw [filled, writeFar_eq sample_infoBlock]
  have hends : ∀ n ∈ [(0x111 : BitVec 16), 0x117], n.toNat ≠ blVbeVideoModesListEnd :=
    List.forall_mem_cons.mpr ⟨by decide, List.forall_mem_singleton.mpr (by decide)⟩
  refine ⟨fun i hi => ?_, hends, by decide, by decide⟩
  obtain rfl | rfl : i = 0 ∨ i = 1 := by
    rw [List.length_cons, List.length_singleton] at hi
    omega
  · change listedMode _ _ 0 = 0x111
    decide
  · change listedMode _ _ 1 = 0x117
    decide

end BootLoader.Vbe
