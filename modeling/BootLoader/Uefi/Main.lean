import BootLoader.Loader.Code
import BootLoader.Uefi.Heap

/-!
# The EFI application (`core/firmware/uefi/main.c`, `utils.c`, `core/init.c`)

The module list is a file of the volume that the application itself was loaded from. What `bl_init`
sets up once the modules are loaded is a parameter, and of what is printed nothing is kept.
-/

open ByteMemory

namespace BootLoader.Uefi

open Heap

/-- `EFI_ERROR_STATUS(1)`. -/
def efiLoadError : BitVec 32 := 0x80000001

/-! ## The firmware's files -/

def efiOpenProtocolByHandleProtocol : Nat := 0x00000001
def efiOpenProtocolGetProtocol : Nat := 0x00000002

def efiFileModeRead : Nat := 0x0000000000000001
def efiFileReadOnly : Nat := 0x0000000000000001

/-- `sizeof(struct efi_file_info)`, with `EFI_FILE_INFO_MAX_NAME_LEN` characters. -/
def sizeofFileInfo : Nat := 24 + 3 * 16 + 8 + 2 * 32

/-- `\BLMODLST` -/
def efiModulesFilePath : List (BitVec 16) :=
  [0x5c, 0x42, 0x4c, 0x4d, 0x4f, 0x44, 0x4c, 0x53, 0x54]

inductive Protocol where
  | loadedImage
  | simpleFileSystem
  deriving DecidableEq, Repr

/-- The members of `boot_services`, of a volume and of a file that are called. What comes with the
status is the interface, the root directory, the file, its `file_size`, and how much was read. -/
structure FileServices (σ : Type) where
  openProtocol : Machine σ → Nat → Protocol → Nat → Machine σ × BitVec 32 × Nat
  openVolume : Machine σ → Nat → Machine σ × BitVec 32 × Nat
  openFile : Machine σ → Nat → List (BitVec 16) → Nat → Nat → Machine σ × BitVec 32 × Nat
  getInfo : Machine σ → Nat → Nat → Machine σ × BitVec 32 × BitVec 64
  read : Machine σ → Nat → Nat → Nat → Machine σ × BitVec 32 × Nat

section Code

variable {σ : Type} (S : BootServices σ) (F : FileServices σ)

def blEfiGetLoadedImage (imageHandle : Nat) (s : Machine σ) : Machine σ × BitVec 32 × Nat :=
  F.openProtocol s imageHandle .loadedImage efiOpenProtocolGetProtocol

/-- `device_handle` is the fourth word of the loaded image. -/
def blEfiGetBootFs (imageHandle : Nat) (s : Machine σ) : Machine σ × BitVec 32 × Nat :=
  let (s, status, loadedImage) := blEfiGetLoadedImage F imageHandle s
  if status ≠ efiSuccess then (s, status, 0)
  else
    let (s, status, fsInfo) := F.openProtocol s (read32 s.mem (loadedImage + 12))
      .simpleFileSystem efiOpenProtocolByHandleProtocol
    if status ≠ efiSuccess then (s, status, 0) else F.openVolume s fsInfo

def blEfiGetFile (imageHandle : Nat) (path : List (BitVec 16)) (s : Machine σ) :
    Machine σ × BitVec 32 × Nat :=
  let (s, status, rootDir) := blEfiGetBootFs F imageHandle s
  if status ≠ efiSuccess then (s, status, 0)
  else F.openFile s rootDir path efiFileModeRead efiFileReadOnly

/-- Where there is no room the status is still that of `get_info`. -/
def blEfiReadFile (file addr : Nat) (s : Machine σ) : Machine σ × BitVec 32 × Nat :=
  let (s, status, fileSize) := F.getInfo s file sizeofFileInfo
  if status ≠ efiSuccess then (s, status, addr)
  else
    let size := fileSize.toNat % 2 ^ 32
    let (s, ptr) := blHeapAllocAlign S s size 0x1000
    if ptr = 0 then (s, status, addr)
    else
      let (s, status, _) := F.read s file size ptr
      if status ≠ efiSuccess then (s, status, addr) else (s, status, ptr)

/-! ## Starting -/

variable {ρ : Type} (load : Loader.ElfLoad ρ) (setup : ρ → ρ × BlStatus)

def blInit (blModList : Nat) (s : Loader.Machine ρ) : Loader.Machine ρ × BlStatus :=
  let (s, status) := Loader.blLoaderInit load blModList s
  if status ≠ .success then (s, status)
  else
    let (rest, status) := setup s.rest
    ({ s with rest := rest }, status)

end Code

/-- The list is looked at in `mem`; the modules and the setup have the whole machine. -/
def blMain {σ : Type} (S : BootServices σ) (F : FileServices σ) (load : Loader.ElfLoad (Machine σ))
    (setup : Machine σ → Machine σ × BlStatus) (imageHandle : Nat) (s : Machine σ) :
    Loader.Machine (Machine σ) × BitVec 32 :=
  let (s, status, modulesFile) := blEfiGetFile F imageHandle efiModulesFilePath s
  if status ≠ efiSuccess then (⟨s.mem, s, []⟩, status)
  else
    let (s, status, addr) := blEfiReadFile S F modulesFile 0 s
    if status ≠ efiSuccess then (⟨s.mem, s, []⟩, status)
    else
      let (s, started) := blInit load setup addr ⟨s.mem, s, []⟩
      (s, if started ≠ .success then efiLoadError else status)

end BootLoader.Uefi
