import Nucleus.Kernel.Access

/-!
The self test of the memory core on the running machine: frames that were freed come back first, mappings
can be made and taken away without loss, and heap pages get their frames at the first access.
-/

namespace Nucleus.Kernel

/-- The step of the self test that failed. -/
inductive SelfTestError where
  | noFrame
  | freeFailed
  | notReused
  | mapFailed
  | wrongAddress
  | wrongUnmap
  | mappingLeft
  | mapLeaked
  | reserveFailed
  | backedTooEarly
  | reserveTookFrames
  | notZeroed
  | writeLost
  | notBacked
  | notOneFrame
  | reserveLeaked
  deriving DecidableEq, Repr

def SelfTestError.message : SelfTestError → String
  | noFrame => "no frame"
  | freeFailed => "free failed"
  | notReused => "freed frame not reused first"
  | mapFailed => "map failed"
  | wrongAddress => "translate after map"
  | wrongUnmap => "unmap"
  | mappingLeft => "translate after unmap"
  | mapLeaked => "frames leaked by map/unmap"
  | reserveFailed => "reserve failed"
  | backedTooEarly => "reserved page is backed"
  | reserveTookFrames => "reserve consumed page frames"
  | notZeroed => "demand page not zeroed"
  | writeLost => "demand page lost a write"
  | notBacked => "touched page not backed"
  | notOneFrame => "exactly one frame for one page"
  | reserveLeaked => "frames leaked by reserve/release"

namespace SelfTest

/-- Code of the self test, which may end with a failed step. -/
abbrev TestM := ExceptT SelfTestError KernelM

/-- Fails unless the condition holds. -/
def ensure (c : Prop) [Decidable c] (e : SelfTestError) : TestM Unit :=
  ExceptT.mk (return if c then .ok () else .error e)

/-- Fails unless there is an answer. -/
def need {α : Type} (x : KernelM (Option α)) (e : SelfTestError) : TestM α :=
  ExceptT.mk do
    match ← x with
    | some a => return .ok a
    | none => return .error e

def free (a : PhysAddr) : TestM Unit := do
  let answer ← freeFrame a
  ensure answer.isOk .freeFailed

/-- An offset within a page that is not its start. -/
def probe : UInt64 := 0x42

def offset {space : Space} (a : Addr space) : KernelM (Addr space) := check (a.add probe)

/-- The frame that was freed last is handed out first; the answer is that frame. -/
def reuse : TestM PhysAddr := do
  let a ← need allocFrame .noFrame
  free a
  let b ← need allocFrame .noFrame
  ensure (a = b) .notReused
  return b

/-- A page can be mapped to a frame and unmapped again, and no frame is lost. -/
def mapping (frame : PhysAddr) (before : Nat) : TestM Unit := do
  let mapped ← mapPage scratchPage frame .writable
  ensure mapped.isOk .mapFailed
  let inPage ← offset scratchPage
  let inFrame ← offset frame
  let found ← translateAddress inPage
  ensure (found = some inFrame) .wrongAddress
  let old ← unmapPage scratchPage
  ensure (old = some frame) .wrongUnmap
  let left ← translateAddress scratchPage
  ensure (left = none) .mappingLeft
  free frame
  let after ← freeFrames
  ensure (after = before) .mapLeaked

def pattern : UInt64 := 0x5EED

/-- A heap page that is touched holds zeros and keeps what is written. -/
def touch (heap : VirtAddr) : TestM Unit := do
  let first ← readWord heap
  ensure (first = 0) .notZeroed
  writeWord heap pattern
  let second ← readWord heap
  ensure (second = pattern) .writeLost

/-- Heap pages get a frame each at the first access, and no frame is lost. -/
def demandPaging (before : Nat) : TestM Unit := do
  let heap ← need (reserveHeap 2) .reserveFailed
  let early ← translateAddress heap
  ensure (early = none) .backedTooEarly
  let reserved ← freeFrames
  ensure (before ≤ reserved + 3) .reserveTookFrames
  touch heap
  let late ← translateAddress heap
  ensure (late ≠ none) .notBacked
  let touched ← freeFrames
  ensure (touched + 1 = reserved) .notOneFrame
  releaseHeap heap 2
  let after ← freeFrames
  ensure (after = before) .reserveLeaked

def steps : TestM Unit := do
  let before ← freeFrames
  let frame ← reuse
  mapping frame before
  demandPaging before
  log (memoryRecord .info ("[MEM] self test passed, " ++ Text.decimal before ++ " free frames"))

end SelfTest

/-- Exercises the memory core on the running machine. -/
def selfTest : KernelM (Except SelfTestError Unit) := SelfTest.steps.run

end Nucleus.Kernel
