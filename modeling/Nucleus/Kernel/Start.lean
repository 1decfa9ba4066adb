import Nucleus.Boot.CommandLine
import Nucleus.Boot.Report
import Nucleus.Kernel.PowerOn
import Nucleus.Kernel.SelfTest

/-!
The start of the kernel: segments and fault stacks, gates and interrupt controllers, the boot information
and at last the memory core. What cannot be done without stops the machine.
-/

namespace Nucleus.Kernel

open Boot Descriptor Device Memory

/-! ### Trouble -/

/-- A record of the kernel as a whole. -/
def kernelRecord (level : Log.Level) (text : String) : Log.Record := ⟨level, "kcore", text⟩

/-- Tells what is wrong and stops the processor. -/
def fatal {α : Type} (what reason : String) : KernelM α := do
  log (kernelRecord .error (what ++ ": " ++ reason))
  throw .halted

/-! ### Segments and gates -/

def segmentsRecord : Log.Record :=
  ⟨.info, "kcore::gdt", "[GDT] loaded with " ++ Text.decimal guardStackCount ++ " guard stacks of " ++
    Text.decimal (guardStackSize / 1024) ++ " KiB"⟩

/-- Publishes the fault stacks, then the segments. -/
def loadSegments (p : Placement) : KernelM Unit := do
  match buildTaskState p.faultStacks with
  | .error e => fatal "bad stack slot" (Text.decimal e.index.toNat)
  | .ok t =>
    modify fun m => { m with taskState := t, segments := SegmentTable.new.setTask p.taskState }
    log segmentsRecord

def loadGates (p : Placement) : KernelM Unit := do
  match ← check (buildGates p.stubs) with
  | .error e => fatal "trap setup failed" ("IDT: " ++ e.message)
  | .ok t =>
    match t.validate with
    | .error e => fatal "trap setup failed" ("IDT: " ++ e.message)
    | .ok () => modify fun m => { m with gates := t }

/-- The record about new windows of the interrupt controllers. -/
def remapRecord? (s : PicStep (Except PicError Unit)) : Option Log.Record :=
  match s.answer with
  | .ok () => some s.controllers.remapRecord
  | .error _ => none

/-- Moves the interrupt lines to the vectors of the kernel. -/
def loadControllers : KernelM Unit := do
  match ← withControllers (·.remap masterBase slaveBase) remapRecord? with
  | .error e => fatal "trap setup failed" ("PIC: " ++ e.message)
  | .ok () =>
    log (trapRecord .info ("[TRAP] " ++ Text.decimal vectorCount ++ " vectors installed, IRQs at " ++
      Text.byte masterBase ++ " and " ++ Text.byte slaveBase))

/-! ### Boot information -/

/-- The `size` bytes from `a` on, as far as memory goes. -/
def blobAt (r : Ram) (a : PhysAddr) (size : Nat) : Blob :=
  ⟨size, r.bytes a.toNat (min size (ramStop - a.toNat))⟩

/-- Reads boot information of the size that it declares out of memory. -/
def informationAt (r : Ram) (a : PhysAddr) : Except ParseError Information :=
  if a.toNat % 8 ≠ 0 then .error (.misaligned a.toNat)
  else Information.ofBlob (blobAt r a (u32 (r.bytes a.toNat headerSize) 0))

/-- Reads the options from the command line and sets the filter. -/
def readOptions (i : Information) : KernelM Options := do
  let text := i.commandLine?.getD ""
  logAll (Options.complaints text)
  let options := Options.ofCommandLine text
  modify fun m => { m with filter := options.logLevel }
  return options

/-- Reads the memory regions, less the memory that the boot information itself takes. -/
def readRegions (i : Information) (a : PhysAddr) : KernelM RegionTable := do
  let own ← check (i.physicalRange a)
  let (notices, answer) ← check (readMemory i [own])
  logAll (notices.map (·.record))
  match answer with
  | .error e => fatal "cannot read boot memory" e.message
  | .ok boot => return boot.regions

def showMemory (i : Information) (regions : RegionTable) : KernelM Unit := do
  let (lines, sum) := memoryMapReport i
  logAll (lines.map reportLine)
  check sum
  logAll ((regionsReport regions).map reportLine)

/-! ### The memory core -/

/-- Sets up the memory core on the given regions. -/
def startMemory (regions : RegionTable) : KernelM Unit := do
  let frames ← check (FrameList.new regions (.identity identityRange) lowMemoryLimit)
  let heap ← check (Paging.Heap.new heapStart heapStop)
  log (memoryRecord .info ("[MEM] " ++ Text.decimal frames.count ++ " free frames, page tables at " ++
    (← get).root.pretty))
  modify fun m => { m with memory := some ⟨frames, heap⟩ }

/-- Runs the self test and tells its result. -/
def reportSelfTest : KernelM Unit := do
  match ← selfTest with
  | .ok () => log (kernelRecord .info "[MEM] selftest passed")
  | .error e => log (kernelRecord .error ("[MEM] selftest failed: " ++ e.message))

/-! ### All of it -/

/-- Starts the kernel with the boot information at `a`. It returns when the kernel is idle. -/
def start (p : Placement) (a : PhysAddr) : KernelM Unit := do
  modify fun m => { m with filter := .upTo .info }
  loadSegments p
  loadGates p
  loadControllers
  smokeTest
  match informationAt (← get).ram a with
  | .error e => fatal "invalid boot information" e.message
  | .ok i =>
    let options ← readOptions i
    let regions ← readRegions i a
    if options.memoryMap then showMemory i regions
    startMemory regions
    if options.selfTest then reportSelfTest
    log (kernelRecord .info "initialization complete")

end Nucleus.Kernel
