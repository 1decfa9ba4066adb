import Nucleus.Kernel.Traps

/-!
Memory accesses of the processor: it walks the page tables on its own, and raises a page fault where the
access is not allowed. After the fault the access is tried again.
-/

namespace Nucleus.Kernel

open Memory Paging Trap

/-! ### The walk -/

/-- What the processor finds for an address. -/
structure Found where
  address : PhysAddr
  /-- Writing is allowed at all levels. -/
  writable : Bool
  deriving DecidableEq, Repr

/-- The walk from a table of level `l` on; `writable` is about the levels above. -/
def walkFrom (r : Ram) (v : VirtAddr) (writable : Bool) : Nat → PhysAddr → Option Found
  | l, table =>
    let e : Entry := ⟨r.load (slotAddress table l v)⟩
    let writable := writable && e.Writable
    let offset : UInt64 := UInt64.ofNat (Level.span l) - 1
    let page : Found := ⟨⟨(e.base.word &&& ~~~offset) + (v.word &&& offset)⟩, writable⟩
    if ¬ e.Present then none
    else
      match l with
      | 0 => some page
      | l' + 1 => if e.Huge ∧ l' + 1 < Level.root then some page else walkFrom r v writable l' e.base

/-- The walk from the root table. -/
def walk (r : Ram) (root : PhysAddr) (v : VirtAddr) : Option Found := walkFrom r v true Level.root root

inductive AccessKind where
  | read
  | write
  deriving DecidableEq, Repr

/-- The bit of a write in the error code of a page fault. -/
def AccessKind.code : AccessKind → UInt64
  | read => 0
  | write => PageFaultCode.write

/-- The physical address for an access, or the error code of the fault that it raises. -/
def resolveAccess (r : Ram) (root : PhysAddr) (kind : AccessKind) (v : VirtAddr) : Except UInt64 PhysAddr :=
  match walk r root v with
  | none => .error kind.code
  | some p =>
    if kind = .write ∧ ¬ p.writable then .error (kind.code ||| PageFaultCode.protection)
    else .ok p.address

/-! ### Accesses -/

def faultAt (v : VirtAddr) (errorCode : UInt64) : TrapRequest :=
  ⟨Exception.pageFault.vector, errorCode, v, kernelProcessor⟩

/-- Tries an access up to the given number of times, with a page fault after each failure. -/
def tryAccess (kind : AccessKind) (v : VirtAddr) : Nat → KernelM PhysAddr
  | 0 => throw .stuck
  | n + 1 => do
    let m ← get
    match resolveAccess m.ram m.root kind v with
    | .ok a => return a
    | .error code =>
      takeOrHalt (faultAt v code)
      tryAccess kind v n

/-- How often an access can fail and be tried again: each fault that is resolved takes a frame. -/
def patience (m : Machine) : Nat :=
  match m.memory with
  | none => 1
  | some core => core.frames.count + 1

/-- The physical address for an access that succeeds in the end. -/
def accessible (kind : AccessKind) (v : VirtAddr) : KernelM PhysAddr := do
  tryAccess kind v (patience (← get))

/-- Reads the word at `v`. -/
def readWord (v : VirtAddr) : KernelM UInt64 := do
  let a ← accessible .read v
  return (← get).ram.load a.toNat

/-- Writes the word at `v`. -/
def writeWord (v : VirtAddr) (w : UInt64) : KernelM Unit := do
  let a ← accessible .write v
  modify fun m => { m with ram := m.ram.store a.toNat w }

end Nucleus.Kernel
