import Nucleus.Kernel.Core

/-!
Traps on the running kernel: their way through the entry code to the reaction and back, the interrupt
handlers, and traps that arrive while the kernel works on something else.
-/

namespace Nucleus.Kernel

open Device Trap

def trapRecord (level : Log.Level) (text : String) : Log.Record := ⟨level, "kcore::traps", text⟩

/-! ### Exceptions -/

def reportRegisters (f : Frame) : KernelM Unit :=
  log (trapRecord .error ("[TRAP] registers:\n" ++ f.describe))

def handleGeneralProtection (f : Frame) : KernelM Outcome := do
  log (trapRecord .error "[TRAP] === GENERAL PROTECTION FAULT ===")
  match SelectorCode.ofCode? f.errorCode with
  | some s => log (trapRecord .error ("[TRAP] caused by " ++ s.describe))
  | none => log (trapRecord .error "[TRAP] not selector related")
  reportRegisters f
  return .halt

/-- What the kernel does about exceptions and about vectors without a meaning. -/
def policy : Policy KernelM where
  pageFault := handlePageFault
  generalProtection := handleGeneralProtection
  report e f := do
    log (trapRecord .error ("[TRAP] === " ++ e.name ++ " (vector " ++ Text.decimal e.vector.toNat ++ ") ==="))
    reportRegisters f
  unknown f := log (trapRecord .warn ("[TRAP] unexpected interrupt on vector " ++ Text.byte f.vectorNumber))

/-! ### Interrupts -/

/-- The port that a write to leaves devices some time. -/
def delayPort : Port := 0x80

/-- Makes a port access; reads leave no trace. -/
def access : PortAccess → KernelM Unit
  | .read _ => return
  | .write p v => output (.port p v)
  | .wait => output (.port delayPort 0)

def runHandler (h : Handler) (line : UInt8) (errorCode : UInt64) : KernelM Unit := do
  let allocated ← if h.allocates then some <$> allocFrame else pure none
  let nested ← match h.raises with
    | some t => some <$> (← read) t
    | none => pure none
  output (.handled ⟨h.id, line, errorCode, allocated, nested⟩)

/-- What interrupts do on the running kernel. -/
def surroundings : Surroundings KernelM Handler where
  handle := runHandler
  unhandled line := log (unhandledRecord line)
  access := access

/-- Uses the dispatcher, which is busy meanwhile. -/
def withDispatcher {α : Type} (x : Dispatcher Handler → KernelM (α × Dispatcher Handler)) : KernelM α := do
  let m ← get
  if m.dispatcherBusy then throw .stuck
  set { m with dispatcherBusy := true }
  let (a, d) ← x m.dispatcher
  modify fun m => { m with dispatcher := d, dispatcherBusy := false }
  return a

/-- Carries out a step of the interrupt controllers and tells what is to be told about it. -/
def withControllers {α : Type} (step : Controllers → PicStep α) (record? : PicStep α → Option Log.Record) :
    KernelM α :=
  withDispatcher fun d => do
    let s := step d.controllers
    accessAll access s.accesses
    match record? s with
    | some r => log r
    | none => pure ()
    return (s.answer, { d with controllers := s.controllers })

/-- Routes a line to a handler in place of the one it had. -/
def registerHandler (line : UInt8) (h : Handler) : KernelM (Except RegisterError Unit) :=
  withDispatcher fun d => do
    let (notices, answer) := d.handlers.register line h
    logAll (notices.map (·.record))
    match answer with
    | .ok handlers => return (.ok (), { d with handlers := handlers })
    | .error e => return (.error e, d)

def unregisterHandler (line : UInt8) : KernelM (Option Handler) :=
  withDispatcher fun d =>
    let (handlers, old) := d.handlers.unregister line
    return (old, { d with handlers := handlers })

def maskLine (line : UInt8) : KernelM (Except PicError Unit) := withControllers (·.mask line) fun _ => none

def unmaskLine (line : UInt8) : KernelM (Except PicError Unit) :=
  withControllers (·.unmask line) fun _ => none

/-! ### The way in and back -/

/-- The reaction to a vector that is no exception. -/
def dispatchOther (f : Frame) : KernelM Outcome := do
  if (← get).dispatcherBusy then
    log (trapRecord .error ("[TRAP] vector " ++ Text.byte f.vectorNumber ++ " arrived while dispatching"))
    return .halt
  else withDispatcher fun d => do return (← d.dispatch surroundings policy f, d)

/-- What the entry code runs with the frame it made. Exceptions do not need the dispatcher, for they can hit
while a handler runs. -/
def trapEntry (f : Frame) : KernelM Outcome := do
  let outcome ← match Exception.ofVector? f.vectorNumber with
    | some e => dispatchException policy e f
    | none => dispatchOther f
  if outcome = .halt then log (trapRecord .error "[TRAP] halting")
  return outcome

/-- What became of a trap. -/
structure Delivery where
  /-- The stack slot of its gate. -/
  slot : UInt8
  outcome : Outcome
  /-- The interrupted code goes on with everything as it was. -/
  preserved : Bool
  deriving DecidableEq, Repr

/-- Lets the processor take a trap, on the stack of the gate. -/
def take (t : TrapRequest) : KernelM Delivery := do
  let m ← get
  let slot := (m.gates.get t.vector).stackIndex
  let faultAddress := if t.vector = Exception.pageFault.vector then t.faultAddress else m.faultAddress
  let stack := enter t.processor t.vector t.errorCode
  match frameOn? stack with
  | none => throw .stuck
  | some f =>
    set { m with faultAddress := faultAddress, stacksInUse := slot :: m.stacksInUse }
    let outcome ← trapEntry f
    modify fun m => { m with stacksInUse := m.stacksInUse.erase slot }
    return ⟨slot, outcome, leave? stack = some t.processor⟩

/-- Lets the processor take a trap, and stops if the trap ends in a halt. -/
def takeOrHalt (t : TrapRequest) : KernelM Unit := do
  let d ← take t
  if d.outcome = .halt then throw .halted

/-! ### Nested traps -/

/-- The trap needs a stack that another trap uses. -/
def StackInUse (m : Machine) (t : TrapRequest) : Prop :=
  (m.gates.get t.vector).stackIndex ≠ 0 ∧ (m.gates.get t.vector).stackIndex ∈ m.stacksInUse

instance (m : Machine) (t : TrapRequest) : Decidable (StackInUse m t) :=
  inferInstanceAs (Decidable (_ ∧ _))

/-- Raises a trap in the middle of other code. If it halts the processor, that code goes on unseen. -/
def raiseNested (t : TrapRequest) : KernelM NestedOutcome := do
  let d ← take t
  match d.outcome with
  | .resume => return .resume
  | .halt =>
    modify fun m => { m with halted := true }
    return .halt

/-- Raises a trap in the middle of other code, with up to `depth` traps nested in each other. -/
def interruptingWithin : Nat → Interrupting
  | 0 => fun _ => throw .stuck
  | depth + 1 => fun t => do
    let m ← get
    if m.halted ∨ StackInUse m t then return .skipped
    else raiseNested t (interruptingWithin depth)

/-- How deep traps can nest: only the sink, once, and a handler under the lock of the dispatcher raise
traps. -/
def nestingDepth : Nat := 2

/-- Runs code of the kernel on a machine. How code goes on that a trap halted is not seen. -/
def run {α : Type} (x : KernelM α) (m : Machine) : EStateM.Result Stop Machine α :=
  match x (interruptingWithin nestingDepth) m with
  | .ok a m' => if m'.halted then .error .halted m' else .ok a m'
  | .error e m' => .error (if m'.halted then .halted else e) m'

/-! ### Traps of the kernel itself -/

/-- The processor while kernel code runs. -/
def kernelProcessor : Processor := ⟨.zero, ⟨0, 8, 0x202, 0, 0x10⟩⟩

/-- Raises the vector of line 0 in software. Nothing handles it yet, so this checks that an interrupt
without a handler is acknowledged and returns. -/
def smokeTest : KernelM Unit := do
  log (trapRecord .info "[TRAP] testing software interrupt 0x20")
  takeOrHalt ⟨masterBase, 0, .null, kernelProcessor⟩
  log (trapRecord .info "[TRAP] software interrupt returned")

end Nucleus.Kernel
