import Nucleus.Address
import Nucleus.Descriptor.Gate
import Nucleus.Descriptor.Segment
import Nucleus.Trap.Exception

/-!
The fixed layout of the kernel: vectors of the interrupt lines, stacks for faults that must not depend on the
stack they interrupt, and the use of memory. The gate table and the task state segment are built from it.
-/

namespace Nucleus.Kernel

open Descriptor

/-! ### Constants -/

/-- Vector of interrupt line 0. -/
def masterBase : UInt8 := 0x20
/-- Vector of interrupt line 8. -/
def slaveBase : UInt8 := 0x28

/-- Bytes of each fault stack. -/
def guardStackSize : Nat := 16 * 1024
/-- The number of fault stacks. -/
def guardStackCount : Nat := 3

/-- Stack slot of double faults. -/
def doubleFaultStack : UInt8 := 1
/-- Stack slot of page faults. -/
def pageFaultStack : UInt8 := 2
/-- Stack slot of general protection faults. -/
def generalProtectionStack : UInt8 := 3

/-- Frames below this address are left to the firmware and the boot code. -/
def lowMemoryLimit : PhysAddr := ⟨0x100000⟩
/-- Bytes of physical memory that are visible at their own addresses. -/
def identitySize : UInt64 := 1024 * 1024 * 1024
/-- The physical memory that is visible at its own addresses. -/
def identityRange : PhysRange := ⟨⟨0⟩, ⟨identitySize⟩⟩

/-- Start of the heap window. -/
def heapStart : VirtAddr := ⟨0x10000000000⟩
/-- End of the heap window. -/
def heapStop : VirtAddr := ⟨0x20000000000⟩
/-- A page for the self test. -/
def scratchPage : VirtAddr := ⟨0x20000000000⟩

/-! ### Gates -/

/-- Distance between the entry code of two vectors. -/
def stubSize : Nat := 16

/-- The stack slot of the gate of a vector, 0 to stay on the stack in use. -/
def stackIndex (vector : UInt8) : UInt8 :=
  match Trap.Exception.ofVector? vector with
  | none => 0
  | some e =>
    if e = .doubleFault then doubleFaultStack
    else if e = .pageFault then pageFaultStack
    else if e = .generalProtection then generalProtectionStack
    else 0

/-- Installs the gates of vectors whose entry code starts at `stubs` plus a multiple of the stub size. -/
def installGates (stubs : UInt64) (t : GateTable) : List UInt8 → Checked (Except GateError GateTable)
  | [] => .ok (.ok t)
  | v :: vs => do
    let address ← Word.add stubs (UInt64.ofNat (v.toNat * stubSize))
    match t.install v address codeSelector (stackIndex v) .interrupt .kernel with
    | .ok t' => installGates stubs t' vs
    | .error e => return .error e

def buildGates (stubs : UInt64) : Checked (Except GateError GateTable) :=
  installGates stubs .empty GateTable.vectors

/-! ### Fault stacks -/

/-- The end of the fault stack of a slot, where the stacks lie one after the other from `base` on. -/
def stackTop (base : UInt64) (slot : UInt8) : UInt64 :=
  base + UInt64.ofNat (slot.toNat * guardStackSize)

def guardSlots : List UInt8 := [doubleFaultStack, pageFaultStack, generalProtectionStack]

def publishStacks (base : UInt64) (t : TaskState) : List UInt8 → Except InvalidStackSlot TaskState
  | [] => .ok t
  | s :: ss => do publishStacks base (← t.setStack s (stackTop base s)) ss

def buildTaskState (base : UInt64) : Except InvalidStackSlot TaskState :=
  publishStacks base .empty guardSlots

end Nucleus.Kernel
