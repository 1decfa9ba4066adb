import Nucleus.Kernel.Traps

/-!
The computer at the moment at which the boot code hands over to the kernel: memory with the boot page
tables and the boot information in it, and a kernel in which nothing is set up yet.
-/

namespace Nucleus.Kernel

open Descriptor Device Memory Paging

/-! ### Memory -/

def ramStop : Nat := 0x500000

/-- What memory holds that nobody wrote: zeros for the firmware's part, and a pattern above. -/
def untouched (word : Nat) : UInt64 :=
  if 8 * word < lowMemoryLimit.toNat then 0 else 0xAAAAAAAAAAAAAAAA

/-- The root of the boot page tables. -/
def bootRoot : PhysAddr := ⟨0x20000⟩
/-- The table below the root of the boot page tables. -/
def bootTable : PhysAddr := ⟨0x21000⟩

/-- The boot page tables map the identity range by one large page. -/
def bootTables (r : Ram) : Ram :=
  let link : Entry := .make bootTable (.present ∪ .writable)
  let page : Entry := .make .null (.present ∪ .writable ∪ .huge)
  (r.store bootRoot.toNat link.raw).store bootTable.toNat page.raw

def bootRam (information : PhysAddr) (bytes : List UInt8) : Ram :=
  (bootTables (.ofBackground untouched)).place information.toNat bytes

/-! ### The computer -/

/-- Where the parts of the kernel lie whose addresses the processor is told. -/
structure Placement where
  /-- The entry code of vector 0. -/
  stubs : UInt64
  /-- The fault stacks, one after the other. -/
  faultStacks : UInt64
  taskState : UInt64
  deriving DecidableEq, Repr

def Placement.default : Placement := ⟨0x100000, 0x104000, 0x110000⟩

/-- The computer as the boot code leaves it. -/
def Machine.powerOn (ram : Ram) (masks : MaskRegisters) : Machine where
  ram := ram
  root := bootRoot
  faultAddress := .null
  gates := .empty
  segments := .new
  taskState := .empty
  stacksInUse := []
  halted := false
  filter := .off
  sink := none
  sinkBusy := false
  memory := none
  memoryBusy := false
  dispatcher := ⟨.powerOn masks, .empty⟩
  dispatcherBusy := false
  outputs := #[]

end Nucleus.Kernel
