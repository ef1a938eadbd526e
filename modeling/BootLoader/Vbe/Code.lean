import BootLoader.Driver.World
import BootLoader.Video.Code

/-!
# Graphics of the BIOS (`modules/video/vbe/vbe.c`, `core/video/video.c`, `real-mode/bios.c`)

The driver asks the video BIOS for its modes, keeps a copy of the list, and takes the first mode
that is fit. What the BIOS does is given here as well: it is on the other side of the registers.
-/

open ByteMemory

namespace BootLoader.Vbe

open Driver Video

/-! ## Real mode -/

structure BlBiosRegisters where
  edi : BitVec 32
  esi : BitVec 32
  gs : BitVec 16
  fs : BitVec 16
  es : BitVec 16
  ds : BitVec 16
  eflags : BitVec 32
  eax : BitVec 32
  ebx : BitVec 32
  ecx : BitVec 32
  edx : BitVec 32
  deriving DecidableEq, Repr

/-- The low half of a register is written. -/
def setLow (r : BitVec 32) (v : BitVec 16) : BitVec 32 := r.extractLsb' 16 16 ++ v

def BlBiosRegisters.ax (r : BlBiosRegisters) : BitVec 16 := r.eax.setWidth 16
def BlBiosRegisters.bx (r : BlBiosRegisters) : BitVec 16 := r.ebx.setWidth 16
def BlBiosRegisters.cx (r : BlBiosRegisters) : BitVec 16 := r.ecx.setWidth 16
def BlBiosRegisters.dx (r : BlBiosRegisters) : BitVec 16 := r.edx.setWidth 16
def BlBiosRegisters.di (r : BlBiosRegisters) : BitVec 16 := r.edi.setWidth 16

def BlBiosRegisters.setAx (r : BlBiosRegisters) (v : BitVec 16) : BlBiosRegisters :=
  { r with eax := setLow r.eax v }

def blX86EflagsCf : BitVec 32 := 1

/-- `bl_memset` leaves the last byte, the highest of `edx`, as it was. -/
def blBiosInitRegisters (regs : BlBiosRegisters) : BlBiosRegisters :=
  ⟨0, 0, 0, 0, 0, 0, blX86EflagsCf, 0, 0, 0, regs.edx &&& 0xff000000⟩

/-- `BL_BIOS_FAR_PTR_TO_ADDRESS`. -/
def blBiosFarPtrToAddress (ptr : BitVec 32) : BitVec 32 :=
  ((ptr &&& 0xffff0000) >>> 12) + (ptr &&& 0xffff)

/-- `BL_BIOS_PM_TO_RM_SEGMENT`, in a register of 16 bits. -/
def blBiosPmToRmSegment (ptr : BitVec 32) : BitVec 16 := ((ptr &&& 0xffff0000) >>> 4).setWidth 16

def blBiosPmToRmOffset (ptr : BitVec 32) : BitVec 16 := (ptr &&& 0xffff).setWidth 16

/-! ## The video BIOS -/

def blVbeSuccess : BitVec 16 := 0x004f

/-- What a card's BIOS answers. `infoBlock` and `modeInfo` are the blocks it fills in, if it knows
the function or the mode; `canSet` is about the number with its flags, as it is in `bx`. -/
structure VideoBios where
  infoBlock : Option Mem
  modeInfo : BitVec 16 → Option Mem
  canSet : BitVec 16 → Bool
  canStart : Bool

/-- The mode that was set, with its flags, and where the picture begins. -/
structure Card where
  mode : Option (BitVec 16)
  start : BitVec 16 × BitVec 16
  deriving DecidableEq

def sizeofInfoBlock : Nat := 512
def sizeofModeInfoBlock : Nat := 256

/-- A block is written at `es:di`. The offset is one of 16 bits. -/
def writeFar (m : Mem) (es di : BitVec 16) (size : Nat) (block : Mem) : Mem :=
  (List.range size).foldl (fun m k => store m (16 * es.toNat + (di.toNat + k) % 2 ^ 16) (block k)) m

def vbeFailure : BitVec 16 := 0x014f

/-- Interrupt 0x10, the functions of the VBE. -/
def VideoBios.interrupt (bios : VideoBios) (regs : BlBiosRegisters) (m : Mem) (card : Card) :
    Mem × Card × BlBiosRegisters :=
  let answer (block : Option Mem) (size : Nat) : Mem × Card × BlBiosRegisters :=
    match block with
    | none => (m, card, regs.setAx vbeFailure)
    | some block => (writeFar m regs.es regs.di size block, card, regs.setAx blVbeSuccess)
  if regs.ax = 0x4f00 then answer bios.infoBlock sizeofInfoBlock
  else if regs.ax = 0x4f01 then answer (bios.modeInfo regs.cx) sizeofModeInfoBlock
  else if regs.ax = 0x4f02 then
    if bios.canSet regs.bx then (m, { card with mode := some regs.bx }, regs.setAx blVbeSuccess)
    else (m, card, regs.setAx vbeFailure)
  else if regs.ax = 0x4f07 ∧ regs.bx.setWidth 8 = (0 : BitVec 8) then
    if bios.canStart then (m, { card with start := (regs.cx, regs.dx) }, regs.setAx blVbeSuccess)
    else (m, card, regs.setAx vbeFailure)
  else (m, card, regs.setAx 0x0100)

/-! ## The driver -/

/-- What the driver runs on. The variables on the stack: the two blocks that the BIOS fills in, and
the registers before they are set. -/
structure Platform where
  env : Driver.Env
  bios : VideoBios
  infoBlock : BitVec 32
  modeInfoBlock : BitVec 32
  regs : BlBiosRegisters

/-- The heap, the rest of the memory, the card, and the variables of the module. -/
structure State where
  world : World
  mem : Mem
  card : Card
  vbeVideoMemorySize : Nat
  vbeVideoModesCount : Nat
  vbeVideoModes : Option Nat
  vbeSelectedModeNumber : BitVec 16
  vbeSelectedMode : Mem

variable (p : Platform)

def biosInterrupt (regs : BlBiosRegisters) (s : State) : State × BlBiosRegisters :=
  let (mem, card, regs) := p.bios.interrupt regs s.mem s.card
  ({ s with mem, card }, regs)

def blVbeSetDisplayStart (x y : BitVec 16) (s : State) : State × BlStatus :=
  let iregs := blBiosInitRegisters p.regs
  let iregs := { iregs.setAx 0x4f07 with
    ecx := setLow iregs.ecx x, edx := setLow iregs.edx y }
  let (s, oregs) := biosInterrupt p iregs s
  (s, if oregs.ax = blVbeSuccess then .success else .failure)

/-- All of `eax` is compared. -/
def blVbeSetMode (mode : BitVec 16) (s : State) : State × BlStatus :=
  let iregs := blBiosInitRegisters p.regs
  let iregs := { iregs.setAx 0x4f02 with ebx := setLow iregs.ebx (1 <<< 14 ||| (mode &&& 0x1ff)) }
  let (s, oregs) := biosInterrupt p iregs s
  (s, if oregs.eax = 0x0000004f then .success else .failure)

/-- The block is read by the caller from memory. -/
def blVbeGetModeInfoBlock (mode : BitVec 16) (info : BitVec 32) (s : State) : State × BlStatus :=
  if mode < 0x100 then (s, .unsupported)
  else
    let iregs := blBiosInitRegisters p.regs
    let iregs := { iregs.setAx 0x4f01 with
      ecx := setLow iregs.ecx mode, es := blBiosPmToRmSegment info
      edi := setLow iregs.edi (blBiosPmToRmOffset info) }
    let (s, oregs) := biosInterrupt p iregs s
    (s, if oregs.ax = blVbeSuccess then .success else .failure)

/-! The fields of a mode's block. -/

def modeAttributes (info : Mem) : Nat := read16 info 0
def bytesPerScanLine (info : Mem) : Nat := read16 info 16
def xResolution (info : Mem) : Nat := read16 info 18
def yResolution (info : Mem) : Nat := read16 info 20
def bitsPerPixel (info : Mem) : Nat := (info 25).toNat
def memoryModel (info : Mem) : Nat := (info 27).toNat
def redMaskSize (info : Mem) : Nat := (info 31).toNat
def redFieldPosition (info : Mem) : Nat := (info 32).toNat
def greenMaskSize (info : Mem) : Nat := (info 33).toNat
def greenFieldPosition (info : Mem) : Nat := (info 34).toNat
def blueMaskSize (info : Mem) : Nat := (info 35).toNat
def blueFieldPosition (info : Mem) : Nat := (info 36).toNat
def reservedMaskSize (info : Mem) : Nat := (info 37).toNat
def reservedFieldPosition (info : Mem) : Nat := (info 38).toNat
def physicalBaseAddress (info : Mem) : Nat := read32 info 40

def blVideoDefaultWidth : Nat := 1024
def blVideoDefaultHeight : Nat := 768
def blVbeMemoryModelDirectColor : Nat := 6

/-- The tests of the loop in `bl_vbe_set_video`. -/
def Acceptable (info : Mem) : Prop :=
  xResolution info = blVideoDefaultWidth ∧ yResolution info = blVideoDefaultHeight ∧
    (modeAttributes info).testBit 0 ∧ (modeAttributes info).testBit 3 ∧
    (modeAttributes info).testBit 4 ∧ (modeAttributes info).testBit 7 ∧
    memoryModel info = blVbeMemoryModelDirectColor ∧
    bitsPerPixel info ∈ [15, 16, 24, 32] ∧
    redMaskSize info = 5 ∧ greenMaskSize info = 6 ∧ blueMaskSize info = 5 ∧
    reservedMaskSize info = 0

instance (info : Mem) : Decidable (Acceptable info) := inferInstanceAs (Decidable (_ ∧ _))

/-- `sizeof` bytes of memory as a block of its own. -/
def blockAt (m : Mem) (ptr : BitVec 32) : Mem := fun k => m (ptr.toNat + k)

/-- The loop over the copied list, from number `i` on with `left` to go: the number of a mode that
is fit. -/
def selectFrom (modes : Mem) : Nat → Nat → State → State × Option Nat
  | 0, _, s => (s, none)
  | left + 1, i, s =>
    let (s, status) :=
      blVbeGetModeInfoBlock p (BitVec.ofNat 16 (read16 modes (2 * i))) p.modeInfoBlock s
    if status = .success ∧ Acceptable (blockAt s.mem p.modeInfoBlock) then (s, some i)
    else selectFrom modes left (i + 1) s

def blVbeSetVideo (s : State) : State × BlStatus :=
  match s.vbeVideoModes with
  | none => (s, .failure)
  | some block =>
    let modes := s.world.bytes block
    match selectFrom p modes s.vbeVideoModesCount 0 s with
    | (s, none) => (s, .unsupported)
    | (s, some i) =>
      let mode := BitVec.ofNat 16 (read16 modes (2 * i))
      let s := { s with
        vbeSelectedModeNumber := mode, vbeSelectedMode := blockAt s.mem p.modeInfoBlock }
      match blVbeSetMode p mode s with
      | (s, .success) => blVbeSetDisplayStart p 0 0 s
      | (s, status) => (s, status)

def blVbeInfoBlockSignature : List Byte := [0x56, 0x45, 0x53, 0x41]
def blVbeVersion20 : Nat := 0x200
def blVbeVersion30 : Nat := 0x300

def signature (info : Mem) : List Byte := [info 0, info 1, info 2, info 3]
def version (info : Mem) : Nat := read16 info 4
def videoModes (info : Mem) : BitVec 32 := BitVec.ofNat 32 (read32 info 14)
def totalMemory (info : Mem) : Nat := read16 info 18

def blVbeGetInfoBlock (info : BitVec 32) (s : State) : State × BlStatus :=
  let iregs := blBiosInitRegisters p.regs
  let iregs := { iregs.setAx 0x4f00 with
    es := blBiosPmToRmSegment info, edi := setLow iregs.edi (blBiosPmToRmOffset info) }
  let (s, oregs) := biosInterrupt p iregs s
  let block := blockAt s.mem info
  (s, if oregs.ax ≠ blVbeSuccess then .failure
    else if signature block ≠ blVbeInfoBlockSignature then .unsupported
    else if version block ≠ blVbeVersion20 ∧ version block ≠ blVbeVersion30 then .unsupported
    else .success)

def blVbeVideoModesListEnd : Nat := 0xffff

/-- `video_modes[i]`, of the list that the BIOS has at `list`. -/
def listedMode (m : Mem) (list i : Nat) : Nat := read16 m ((list + 2 * i) % 2 ^ 32)

/-- The loop that looks for the end of the list, from number `i` on. `none`: there is no end. -/
def listEndFrom (m : Mem) (list : Nat) : Nat → Nat → Option Nat
  | 0, _ => none
  | fuel + 1, i =>
    if listedMode m list i = blVbeVideoModesListEnd then some i
    else listEndFrom m list fuel (i + 1)

/-- The loop that copies, up to number `n`. -/
def copyModes (m : Mem) (list : Nat) : Nat → Mem → Mem
  | 0, modes => modes
  | n + 1, modes => write16 (copyModes m list n modes) (2 * n) (listedMode m list n)

/-- As many entries as there is memory for. -/
@[irreducible] def listFuel : Nat := 2 ^ 31

/-- `none`: it does not return. -/
def blVbeInit (s : State) : Option (State × BlStatus) :=
  match blVbeGetInfoBlock p p.infoBlock s with
  | (s, .success) =>
    let info := blockAt s.mem p.infoBlock
    let s := { s with vbeVideoMemorySize := totalMemory info <<< 16 }
    let list := (blBiosFarPtrToAddress (videoModes info)).toNat
    if listedMode s.mem list 0 = blVbeVideoModesListEnd then some (s, .unsupported)
    else
      match listEndFrom s.mem list listFuel 0 with
      | none => none
      | some count =>
        let (world, block) := s.world.alloc p.env
        let s := { s with world, vbeVideoModesCount := count, vbeVideoModes := block }
        match block with
        | none => some (s, .memoryAllocationFailed)
        | some block =>
          let bytes := Function.update world.bytes block
            (copyModes s.mem list count (world.bytes block))
          some ({ s with world := { world with bytes } }, .success)
  | (s, status) => some (s, status)

def blVbeUninit (s : State) : State :=
  match s.vbeVideoModes with
  | none => s
  | some block =>
    { s with world := s.world.free block, vbeVideoModesCount := 0, vbeVideoModes := none }

def blVbeGetInfo (s : State) (video : BlVideoInfo) : BlStatus × BlVideoInfo :=
  if s.vbeVideoModes = none ∨ s.vbeSelectedModeNumber = 0 then (.unsupported, video)
  else
    let info := s.vbeSelectedMode
    let bits := bitsPerPixel info
    (.success, {
      width := xResolution info, height := yResolution info, pitch := bytesPerScanLine info
      frameBuffer := physicalBaseAddress info, bitsPerPixel := bits
      bytesPerPixel := (bits + (bits &&& 0x7)) >>> 3 % 2 ^ 8
      red := ⟨redFieldPosition info, redMaskSize info⟩
      green := ⟨greenFieldPosition info, greenMaskSize info⟩
      blue := ⟨blueFieldPosition info, blueMaskSize info⟩
      reserved := ⟨reservedFieldPosition info, reservedMaskSize info⟩ })

/-! ## Any drivers (`video.c`) -/

inductive BlVideo where
  | invalid
  | vbeGraphics
  | gopGraphics
  deriving DecidableEq, Repr

/-- A driver, by what its functions do to the state of the machine. -/
structure BlVideoDriver (σ : Type*) where
  type : BlVideo
  init : σ → Option (σ × BlStatus)
  uninit : σ → σ
  setVideo : σ → σ × BlStatus
  getInfo : σ → BlVideoInfo → BlStatus × BlVideoInfo

/-- With `FIRMWARE_BIOS`. -/
def blVideoTypeSupported (t : BlVideo) : BlStatus :=
  if t = .vbeGraphics then .success else .unsupported

/-- The loop of `bl_video_driver_probe`. The inner `none`: no driver is taken. -/
def probeDrivers {σ : Type*} : List (BlVideoDriver σ) → σ → Option (σ × Option (BlVideoDriver σ))
  | [], s => some (s, none)
  | driver :: drivers, s =>
    if blVideoTypeSupported driver.type ≠ .success then probeDrivers drivers s
    else
      match driver.init s with
      | none => none
      | some (s, .success) =>
        match driver.setVideo s with
        | (s, .success) => some (s, some driver)
        | (s, _) => probeDrivers drivers (driver.uninit s)
      | some (s, _) => probeDrivers drivers s

/-- `bl_video_driver_probe`, up to `bl_fb_init`. -/
def blVideoDriverProbe {σ : Type*} (drivers : List (BlVideoDriver σ)) (heapAlloc : Nat → Nat)
    (s : σ) (fb : BlFb) : Option (σ × BlFb × BlStatus) :=
  match probeDrivers drivers s with
  | none => none
  | some (s, none) => some (s, fb, .graphicsNoProtocols)
  | some (s, some video) =>
    let (status, fb) := blFbInit (some (video.getInfo s)) heapAlloc fb
    some (s, fb, status)

def vbe : BlVideoDriver State where
  type := .vbeGraphics
  init := blVbeInit p
  uninit := blVbeUninit
  setVideo := blVbeSetVideo p
  getInfo := blVbeGetInfo

end BootLoader.Vbe
