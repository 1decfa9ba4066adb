import Nucleus.Kernel.Console
import Nucleus.Trap.Cause

/-!
The memory core of the running kernel: frames, page tables and heap, used by one at a time, and the reaction
to page faults, which never waits for the core.
-/

namespace Nucleus.Kernel

open Memory Paging Trap

/-! ### Steps of the core -/

/-- An operation on the page tables with the given root and on the heap. -/
abbrev CoreOp (α : Type) := PhysAddr → Heap → StoreM (α × Heap)

/-- What an operation leaves behind. -/
structure CoreStep (α : Type) where
  ram : Ram
  core : MemoryCore
  events : List Event
  answer : Checked α

def MemoryCore.step {α : Type} (core : MemoryCore) (ram : Ram) (root : PhysAddr) (op : CoreOp α) :
    CoreStep α :=
  match op root core.heap ⟨ram, core.frames, #[]⟩ with
  | .ok (a, heap) s => ⟨s.ram, ⟨s.frames, heap⟩, s.events.toList, .ok a⟩
  | .error f s => ⟨s.ram, ⟨s.frames, core.heap⟩, s.events.toList, .error f⟩

def keepHeap {α : Type} (op : PhysAddr → StoreM α) : CoreOp α := fun root heap => do
  return (← op root, heap)

/-! ### Using the core -/

/-- Lets an event take effect outside of memory. -/
def perform (e : Event) : KernelM Unit := do
  match e.record? with
  | some r => log r
  | none =>
    match e.invalidation? with
    | some v => output (.invalidation v)
    | none => return

def performAll : List Event → KernelM Unit
  | [] => return
  | e :: es => do
    perform e
    performAll es

/-- Runs an operation on the memory core, which is busy until all events have taken effect; there is no
answer before the core is set up. -/
def withCore {α : Type} (op : CoreOp α) : KernelM (Option α) := do
  let m ← get
  if m.memoryBusy then throw .stuck
  match m.memory with
  | none => return none
  | some core =>
    let step := core.step m.ram m.root op
    set { m with ram := step.ram, memory := some step.core, memoryBusy := true }
    performAll step.events
    modify fun m => { m with memoryBusy := false }
    return some (← check step.answer)

/-! ### Operations -/

def allocFrame : KernelM (Option PhysAddr) := Option.join <$> withCore (keepHeap fun _ => FrameList.alloc)

def freeFrame (a : PhysAddr) : KernelM (Except FreeError Unit) :=
  (·.getD (.error (.unmapped a))) <$> withCore (keepHeap fun _ => FrameList.free a)

def freeFrames : KernelM Nat :=
  (·.getD 0) <$> withCore (keepHeap fun _ => return (← get).frames.count)

def reserveHeap (count : Nat) : KernelM (Option VirtAddr) :=
  Option.join <$> withCore fun root heap => reserve root heap count

def releaseHeap (v : VirtAddr) (count : Nat) : KernelM Unit := do
  let _ ← withCore (keepHeap fun root => release root v count)

def translateAddress (v : VirtAddr) : KernelM (Option PhysAddr) :=
  Option.join <$> withCore (keepHeap fun root => return translate (← get) root v)

def mapPage (v : VirtAddr) (p : PhysAddr) (flags : Flags) : KernelM (Except MapError Unit) :=
  (·.getD (.error .outOfMemory)) <$> withCore (keepHeap fun root => Paging.map root v p flags)

/-- Removes the mapping of a page and gives back tables that became empty. The answer is the frame that the
page was mapped to. -/
def unmapPage (v : VirtAddr) : KernelM (Option PhysAddr) :=
  Option.join <$> withCore (keepHeap fun root => do
    let old ← unmap root v
    let _ ← reclaim root v
    return old.map (·.base))

/-! ### Page faults -/

def memoryRecord (level : Log.Level) (text : String) : Log.Record := ⟨level, "kcore::memory", text⟩

/-- Tries to put a frame behind the page of a fault, unless the core is busy or not set up. -/
def tryResolve (address : VirtAddr) : KernelM (Option (Except UnresolvedFault PhysAddr)) := do
  if (← get).memoryBusy then return none
  withCore (keepHeap fun root => resolveFault root address)

/-- Tells all about a page fault that stops the machine. -/
def reportPageFault (fault : PageFault) (f : Frame) : KernelM Outcome := do
  log (memoryRecord .error ("[PF] === PAGE FAULT ===\n" ++ fault.describe))
  log (memoryRecord .error ("[PF] registers:\n" ++ f.describe))
  return .halt

/-- The reaction to a page fault: a page that waits for its first access gets a frame, everything else is
reported and stops the machine. -/
def handlePageFault (f : Frame) : KernelM Outcome := do
  let m ← get
  let fault := PageFault.new m.faultAddress m.root f.errorCode f.interrupted.rip
  if fault.NotPresent then
    match ← tryResolve fault.address with
    | some (.ok frame) =>
      log (memoryRecord .trace ("[PF] " ++ fault.address.pretty ++ " backed by " ++ frame.pretty))
      return .resume
    | some (.error e) => log (memoryRecord .error ("[PF] cannot resolve: " ++ e.message))
    | none => log (memoryRecord .error "[PF] memory core unavailable")
  reportPageFault fault f

end Nucleus.Kernel
