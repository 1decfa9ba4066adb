import Nucleus.Device.Pic
import Nucleus.Trap.Exception
import Nucleus.Trap.Frame
import Nucleus.Trap.Handlers

/-!
What happens to a trap: exceptions follow a policy, interrupts go to the handler of their line and are
acknowledged, and all other vectors are reported. The policy and the surroundings act in a monad of their
own, about which nothing is assumed.
-/

namespace Nucleus.Trap

open Device

/-- How execution goes on after a trap. -/
inductive Outcome where
  /-- Back to what was interrupted. -/
  | resume
  /-- The machine stops. -/
  | halt
  deriving DecidableEq, Repr

/-- What a vector means. -/
inductive TrapKind where
  | exception (e : Exception)
  | interrupt (line : UInt8)
  | unknown (vector : UInt8)
  deriving DecidableEq, Repr

/-- What a vector means while the controllers deliver on their present windows. -/
def classify (vector : UInt8) (c : Controllers) : TrapKind :=
  match Exception.ofVector? vector with
  | some e => .exception e
  | none =>
    match c.line? vector with
    | some l => .interrupt l
    | none => .unknown vector

/-- The reaction to exceptions. Only for page faults and general protection faults the policy decides
whether execution goes on. -/
structure Policy (m : Type → Type) where
  pageFault : Frame → m Outcome
  generalProtection : Frame → m Outcome
  /-- Tells about an exception that stops the machine. -/
  report : Exception → Frame → m Unit
  /-- Tells about a vector without a meaning. -/
  unknown : Frame → m Unit

def reportAndHalt {m : Type → Type} [Monad m] (report : Exception → Frame → m Unit) (f : Frame) :
    m Outcome := do
  report .generalProtection f
  return .halt

/-- What interrupts do to the surroundings. -/
structure Surroundings (m : Type → Type) (η : Type) where
  /-- Runs a handler with its line and the error code. -/
  handle : η → UInt8 → UInt64 → m Unit
  /-- Tells about an interrupt on a line without a handler. -/
  unhandled : UInt8 → m Unit
  access : PortAccess → m Unit

/-- The reaction to an exception. It needs nothing but the policy. -/
def dispatchException {m : Type → Type} [Monad m] (policy : Policy m) (e : Exception) (f : Frame) :
    m Outcome :=
  if e = .doubleFault then do
    policy.report e f
    return .halt
  else if e = .pageFault then policy.pageFault f
  else if e = .generalProtection then policy.generalProtection f
  else do
    policy.report e f
    return .halt

/-- The controllers and the handlers of their lines. -/
structure Dispatcher (η : Type) where
  controllers : Controllers
  handlers : HandlerTable η

def accessAll {m : Type → Type} [Monad m] (access : PortAccess → m Unit) : List PortAccess → m Unit
  | [] => pure ()
  | a :: as => do
    access a
    accessAll access as

/-- The reaction to an interrupt: its handler runs, and the line is acknowledged in any case, for a line
without acknowledgement blocks all others of lower priority. -/
def Dispatcher.interrupt {m : Type → Type} {η : Type} [Monad m] (d : Dispatcher η)
    (env : Surroundings m η) (line : UInt8) (errorCode : UInt64) : m Unit := do
  match d.handlers.get? line with
  | some h => env.handle h line errorCode
  | none => env.unhandled line
  accessAll env.access (Controllers.acknowledgement line)

def Dispatcher.dispatch {m : Type → Type} {η : Type} [Monad m] (d : Dispatcher η)
    (env : Surroundings m η) (policy : Policy m) (f : Frame) : m Outcome :=
  match classify f.vectorNumber d.controllers with
  | .exception e => dispatchException policy e f
  | .interrupt line => do
    d.interrupt env line f.errorCode
    return .resume
  | .unknown _ => do
    policy.unknown f
    return .resume

def unhandledRecord (line : UInt8) : Log.Record :=
  ⟨.trace, "interrupts::dispatch", "[IRQ] no handler for line " ++ Text.decimal line.toNat⟩

end Nucleus.Trap
