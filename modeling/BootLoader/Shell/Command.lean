import BootLoader.Utils.Duplicate
import BootLoader.Utils.Strings
import BootLoader.Utils.Strtok

/-!
# Commands (`core/shell/command.c` and the files of the commands)

The arguments are static arrays, apart from the heap. The functions of the commands look at no
argument, and of the output only what is shown is kept.
-/

open ByteMemory

namespace BootLoader.Shell

open Heap Utils

def blShellBufferLength : Nat := 32
def blArguments : Nat := 4
def blCommandDelimiter : List Byte := [0x20]

/-- The entries of `bl_commands`. -/
inductive BlCommand where
  | help
  | true
  | false
  | lastResult
  | pciList
  | usbList
  deriving DecidableEq, Repr

def blCommands : List BlCommand := [.help, .true, .false, .lastResult, .pciList, .usbList]

def BlCommand.command : BlCommand → List Byte
  | .help => [0x68, 0x65, 0x6c, 0x70]
  | .true => [0x74, 0x72, 0x75, 0x65]
  | .false => [0x66, 0x61, 0x6c, 0x73, 0x65]
  | .lastResult => [0x6c, 0x61, 0x73, 0x74, 0x2d, 0x72, 0x65, 0x73, 0x75, 0x6c, 0x74]
  | .pciList => [0x70, 0x63, 0x69, 0x2d, 0x6c, 0x69, 0x73, 0x74]
  | .usbList => [0x75, 0x73, 0x62, 0x2d, 0x6c, 0x69, 0x73, 0x74]

inductive Output where
  | newline
  /-- `bl_print_hex` -/
  | hex (number : Nat)
  /-- `bl_pci_dump_devices` -/
  | pciDevices
  /-- `bl_usb_dump` -/
  | usbDevices
  deriving DecidableEq, Repr

/-- What a command shows, and its result. -/
def BlCommand.execute (lastResult : Nat) : BlCommand → List Output × Nat
  | .help => ([], 0)
  | .true => ([], 0)
  | .false => ([], 1)
  | .lastResult => ([.hex lastResult], 0)
  | .pciList => ([.pciDevices], 0)
  | .usbList => ([.usbDevices], 0)

/-- What the lines that were entered leave behind: the last result, what was shown, and which
commands were executed with how many arguments. -/
structure Record where
  lastResult : Nat
  output : List Output
  calls : List (BlCommand × Nat)

def Record.execute (r : Record) (command : BlCommand) (argc : Nat) : Record where
  lastResult := (command.execute r.lastResult).2
  output := r.output ++ .newline :: (command.execute r.lastResult).1
  calls := r.calls ++ [(command, argc)]

/-- The variables of `command.c`, `bl_strtok_str`, and the heap with all other memory.
`arguments i` is `bl_arguments[i]`, to which `bl_argv[i]` points. -/
structure Interpreter where
  heap : BlHeap
  strtokStr : Nat
  arguments : Nat → Mem
  record : Record

/-- `bl_memset` leaves the last byte. -/
def blCommandSetup (c : Interpreter) : Interpreter :=
  { c with arguments := fun i k =>
      if i * (blShellBufferLength + 1) + k < blArguments * (blShellBufferLength + 1) - 1 then 0
      else c.arguments i k }

/-- The string that a pointer points to. -/
def pointed (m : Mem) (p : Nat) : Mem := fun k => m ((p + k) % 2 ^ 32)

/-- The `while` loop over the parts, `left` being the arguments that there is room for. -/
def copyParts : Nat → Nat → Nat → Strtok → (Nat → Mem) → Option (Nat × Strtok × (Nat → Mem))
  | 0, argc, _, t, arguments => some (argc, t, arguments)
  | left + 1, argc, part, t, arguments =>
    if part = 0 then some (argc, t, arguments)
    else
      let arguments := Function.update arguments argc
        (blStrncpy (arguments argc) (pointed t.mem part) blShellBufferLength)
      (blStrtok strlenFuel t 0 (some blCommandDelimiter)).bind fun (part, t) =>
        copyParts left (argc + 1) part t arguments

/-- The first command that has the name. -/
def commandNamed (name : Mem) : Option BlCommand :=
  blCommands.find? fun command =>
    blStrncmp name (fun k => command.command.getD k 0) blShellBufferLength = 0

/-- `none`: it never returns. -/
def blCommandRun (c : Interpreter) (command : Nat) : Option Interpreter :=
  (blStrlen c.heap.mem command).bind fun len =>
    if len = 0 then some c
    else
      (blStrndup c.heap command len).bind fun copy =>
        if copy.res = 0 then some { c with heap := copy.heap }
        else
          (blStrtok strlenFuel ⟨copy.heap.mem, c.strtokStr, []⟩ copy.res
            (some blCommandDelimiter)).bind fun (part, t) =>
              (copyParts blArguments 0 part t c.arguments).map fun (argc, t, arguments) =>
                let heap := { copy.heap with mem := t.mem }
                match commandNamed (arguments 0) with
                | some command =>
                  -- The copy is not freed.
                  ⟨heap, t.str, arguments, c.record.execute command argc⟩
                | none => ⟨blHeapFree heap copy.res, t.str, arguments, c.record⟩

end BootLoader.Shell
