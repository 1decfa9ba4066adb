import Nucleus.Kernel.Layout
import Nucleus.Paging.Demand
import Nucleus.Trap.Dispatch
import Nucleus.Trap.Entry

/-!
A computer that runs the kernel: its memory and registers, the state of the kernel, and everything that left
the computer so far. The memory core, the dispatcher and the text sink are each used by one at a time; a
trap that arrives in between finds them busy.
-/

namespace Nucleus.Kernel

open Descriptor Device Memory Paging Trap

/-! ### Traps from outside -/

/-- A trap that the processor is made to take. -/
structure TrapRequest where
  vector : UInt8
  errorCode : UInt64
  /-- The address that a page fault reports. -/
  faultAddress : VirtAddr
  processor : Processor
  deriving DecidableEq, Repr

/-- What became of a trap that was raised while the kernel was working. -/
inductive NestedOutcome where
  | resume
  | halt
  /-- It was not raised: the processor had halted, or the stack of its gate was in use. -/
  | skipped
  deriving DecidableEq, Repr

/-- An interrupt handler: it may allocate a frame, and it may be interrupted by a trap after that. -/
structure Handler where
  id : Nat
  allocates : Bool
  raises : Option TrapRequest
  deriving DecidableEq, Repr

/-- A call of a handler, with what it allocated and what became of its trap if it has these. -/
structure HandlerCall where
  id : Nat
  line : UInt8
  errorCode : UInt64
  allocated : Option (Option PhysAddr)
  nested : Option NestedOutcome
  deriving DecidableEq, Repr

/-! ### Console -/

/-- A text sink in place of the serial device. It may raise a trap when a line with a given text is
complete. -/
structure Sink where
  /-- The line that is not complete yet. -/
  line : String
  trigger : Option (String × TrapRequest)
  deriving DecidableEq, Repr

/-- Something that left the computer. -/
inductive Output where
  /-- Text on the serial device. -/
  | serial (text : String)
  /-- Text in the sink. -/
  | sink (text : String)
  | port (port : Port) (value : UInt8)
  | invalidation (address : VirtAddr)
  | handled (call : HandlerCall)
  /-- The sink raised its trap. -/
  | injected (outcome : NestedOutcome)
  deriving DecidableEq, Repr

/-! ### The computer -/

/-- The part of memory management that is set up once. -/
structure MemoryCore where
  frames : FrameList
  heap : Heap
  deriving DecidableEq, Repr

/-- The computer and the kernel on it. -/
structure Machine where
  ram : Ram
  /-- The root of the page tables in use. -/
  root : PhysAddr
  /-- The address that the last page fault reported. -/
  faultAddress : VirtAddr
  gates : GateTable
  segments : SegmentTable
  taskState : TaskState
  /-- Stack slots that traps in progress use. -/
  stacksInUse : List UInt8
  /-- A trap in the middle of other code halted the processor. That code goes on unseen. -/
  halted : Bool
  filter : Log.Filter
  sink : Option Sink
  sinkBusy : Bool
  memory : Option MemoryCore
  memoryBusy : Bool
  dispatcher : Dispatcher Handler
  dispatcherBusy : Bool
  outputs : Array Output

/-- Why the computer does not go on. -/
inductive Stop where
  /-- The kernel halted the processor. -/
  | halted
  | fault (fault : Fault)
  /-- Code waits for something that the code it interrupted holds. -/
  | stuck
  deriving DecidableEq, Repr

/-- Code on the computer; what it did stays when it stops. -/
abbrev MachineM := EStateM Stop Machine

/-- Raises a trap in the middle of other code. -/
abbrev Interrupting := TrapRequest → MachineM NestedOutcome

/-- Code on the computer that traps can interrupt. -/
abbrev KernelM := ReaderT Interrupting MachineM

/-- It is an account of how a trap in the middle of other code ended, which is given in any case. -/
def Output.IsAccount : Output → Prop
  | .handled _ | .injected _ => True
  | _ => False

instance (o : Output) : Decidable o.IsAccount := by cases o <;> unfold Output.IsAccount <;> infer_instance

/-- Lets something leave the computer, unless the processor has halted. -/
def output (o : Output) : KernelM Unit := modify fun m =>
  if m.halted ∧ ¬ o.IsAccount then m else { m with outputs := m.outputs.push o }

def check {α : Type} : Checked α → KernelM α
  | .ok a => return a
  | .error f => throw (.fault f)

end Nucleus.Kernel
