import Nucleus.Paging.Tables

/-!
The heap window, whose pages are handed out first and get a frame when they are touched for the first time.
A break address separates the pages that were handed out from the rest; it only ever moves up.
-/

namespace Nucleus.Paging

open Memory

/-- The part of the heap window that was not handed out yet. -/
structure Heap where
  /-- The next address to hand out. -/
  brk : VirtAddr
  /-- The end of the window. -/
  stop : VirtAddr
  deriving DecidableEq, Repr

/-- The heap in the whole pages between two addresses. -/
def Heap.new (start stop : VirtAddr) : Checked Heap := return ⟨← start.pageAbove, stop.pageBase⟩

/-- The first address of the page number `i` after `start`. -/
def pageFrom (start : VirtAddr) (i : Nat) : Checked VirtAddr := do
  start.add (← Word.mul (UInt64.ofNat i) (UInt64.ofNat pageSize))

/-- The entry of a page that waits for the first access. -/
def pendingEntry : Entry := .make .null (.demand ∪ .writable)

/-! ### Releasing -/

/-- Releases one page; a frame behind it is freed. -/
def releaseOne (root : PhysAddr) (v : VirtAddr) : StoreM Unit := do
  match ← unmap root v with
  | none => return
  | some old => if old.Present then let _ ← FrameList.free old.base

/-- `v` is in the last page that its lowest table covers. -/
def EndsTable (v : VirtAddr) : Prop := (v.toNat + pageSize) % 0x10000000000000000 % Level.span 1 = 0

instance (v : VirtAddr) : Decidable (EndsTable v) := inferInstanceAs (Decidable (_ = _))

/-- Releases the pages from number `i` after `start` on, of which there are `n`. Tables are given back once
for each lowest table: after its last page, or at the end of the range. -/
def releaseFrom (root : PhysAddr) (start : VirtAddr) (i : Nat) : Nat → StoreM Unit
  | 0 => return
  | n + 1 => do
    let v ← Store.check (pageFrom start i)
    releaseOne root v
    if n = 0 ∨ EndsTable v then
      let _ ← reclaim root v
    releaseFrom root start (i + 1) n

/-- Releases `count` pages from `v` on, the frames behind them and the tables that became empty. -/
def release (root : PhysAddr) (v : VirtAddr) (count : Nat) : StoreM Unit := releaseFrom root v 0 count

/-! ### Reserving -/

/-- `count` pages from `h.brk` on lie in the heap window. -/
def Heap.Fits (h : Heap) (count : Nat) : Prop :=
  count * pageSize < 0x10000000000000000 ∧ h.brk.toNat + count * pageSize < 0x10000000000000000 ∧
    h.brk.toNat + count * pageSize ≤ h.stop.toNat

instance (h : Heap) (count : Nat) : Decidable (h.Fits count) := inferInstanceAs (Decidable (_ ∧ _))

/-- Marks the pages from number `i` after `start` on, of which there are `n`, as waiting. If a table cannot
be made, all pages marked so far are released again. -/
def markFrom (root : PhysAddr) (start : VirtAddr) (i : Nat) : Nat → StoreM (Except MapError Unit)
  | 0 => return .ok ()
  | n + 1 => do
    let v ← Store.check (pageFrom start i)
    match ← leafOrCreate root v with
    | .ok a =>
      setEntry a pendingEntry
      markFrom root start (i + 1) n
    | .error e =>
      releaseFrom root start 0 i
      let _ ← reclaim root v
      return .error e

/-- Hands out `count` pages without frames. The answer is the first address, and the heap afterwards. -/
def tryReserve (root : PhysAddr) (h : Heap) (count : Nat) : StoreM (Except ReserveError VirtAddr × Heap) := do
  if count = 0 then return (.error .nothing, h)
  if ¬ h.Fits count then return (.error .windowExhausted, h)
  match ← markFrom root h.brk 0 count with
  | .error e => return (.error (.map e), h)
  | .ok () =>
    let h' := { h with brk := ← Store.check (pageFrom h.brk count) }
    Store.emit (.reserved count h.brk)
    return (.ok h.brk, h')

/-- Hands out `count` pages without frames; a failure is reported. -/
def reserve (root : PhysAddr) (h : Heap) (count : Nat) : StoreM (Option VirtAddr × Heap) := do
  match ← tryReserve root h count with
  | (.ok v, h') => return (some v, h')
  | (.error e, h') =>
    Store.emit (.reserveFailed count e)
    return (none, h')

/-! ### Faults -/

/-- Why a fault is not resolved. -/
inductive UnresolvedFault where
  /-- No table reaches the address. -/
  | noEntry
  /-- The page does not wait for its first access. -/
  | notPending (entry : Entry)
  /-- No frame is left. -/
  | outOfMemory
  deriving DecidableEq, Repr

def UnresolvedFault.message : UnresolvedFault → String
  | noEntry => "no page table entry"
  | notPending e => "not a demand page: " ++ e.describe
  | outOfMemory => "out of memory during demand paging"

/-- Puts a zeroed frame behind the waiting page around `address`. The flags stay, but the page is present
now and does not wait any more. The answer is the frame. -/
def resolveFault (root : PhysAddr) (address : VirtAddr) : StoreM (Except UnresolvedFault PhysAddr) := do
  let page := address.pageBase
  match leaf? (← get) root page with
  | none => return .error .noEntry
  | some a =>
    let old ← getEntry a
    if ¬ old.Demand ∨ old.Present then return .error (.notPending old)
    match ← FrameList.alloc with
    | none => return .error .outOfMemory
    | some frame =>
      setEntry a (.make frame (old.flags.remove .demand ∪ .present))
      invalidate page
      Store.emit (.backed page frame)
      return .ok frame

end Nucleus.Paging
