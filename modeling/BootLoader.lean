import BootLoader.Elf.Inside
import BootLoader.Elf.Atomic
import BootLoader.Heap.Edge
import BootLoader.Shell.Selection
import BootLoader.Fat.Coherence
import BootLoader.File.Ownership
import BootLoader.Video.Flush
import BootLoader.Usb.Parse
import BootLoader.Usb.Drivers
import BootLoader.Uhci.Bulk
import BootLoader.Usb.Addresses
import BootLoader.Usb.Selected
import BootLoader.Usb.Dump
import BootLoader.Usb.Topology
import BootLoader.Xhci.Runs
import BootLoader.Scsi.Outcome
import BootLoader.Scsi.Capacity
import BootLoader.Storage.UsbDisk
import BootLoader.Partition.Order
import BootLoader.Pata.Read
import BootLoader.Pata.Command
import BootLoader.Ahci.Scatter
import BootLoader.Fat.Balance
import BootLoader.Disks.Probe
import BootLoader.Disks.Ends
import BootLoader.Ohci.Lists
import BootLoader.Ehci.Pool
import BootLoader.Gui.Mirror
import BootLoader.Ntfs.Files
import BootLoader.Fat.ShortNames
import BootLoader.Loader.HeapBase
import BootLoader.Heap.Balanced
import BootLoader.Fat.Accept
import BootLoader.Fat.Types
import BootLoader.Fat.Regions
import BootLoader.Fat.Scan
import BootLoader.Loader.Lookup
import BootLoader.Uefi.Relocate
import BootLoader.Elf.Bounded
import BootLoader.Partition.Entries
import BootLoader.Ext.Accept
import BootLoader.Ntfs.Geometry
import BootLoader.Ntfs.Names
import BootLoader.Ntfs.Attributes
import BootLoader.Ntfs.UpdateSequence
import BootLoader.Ntfs.Listing
import BootLoader.Ntfs.SearchReads
import BootLoader.Ehci.Pages
import BootLoader.Ehci.QueueHeads
import BootLoader.Ohci.Bulk
import BootLoader.Uhci.Outcome
import BootLoader.Uhci.Token
import BootLoader.Video.Fill
import BootLoader.Video.Glyph
import BootLoader.Video.Bounds
import BootLoader.Gui.Text
import BootLoader.Mtrr.Ranges
import BootLoader.Pci.Discover
import BootLoader.Keyboard.Shift
import BootLoader.Video.Hex
import BootLoader.Utils.Strtok
import BootLoader.Utils.Duplicate
import BootLoader.Ohci.Release
import BootLoader.Utils.Caseless
import BootLoader.Uefi.HeapRuns
import BootLoader.Scsi.Transport
import BootLoader.Ahci.Disk
import BootLoader.Vbe.Start
import BootLoader.Gui.OnScreen
import BootLoader.Shell.Session
import BootLoader.Uefi.Boot
import BootLoader.Ahci.Controller
