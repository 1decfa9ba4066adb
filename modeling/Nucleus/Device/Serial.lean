import Nucleus.Device.Port
import Nucleus.Fault

/-!
Text output through a serial device. Before each byte the driver waits until the device is ready, but not
forever: a missing device must not stop the kernel. A carriage return goes before each line feed.
-/

namespace Nucleus.Device.Serial

/-- Offset of the port that takes bytes. -/
def dataOffset : UInt16 := 0
/-- Offset of the port that tells the state of the device. -/
def statusOffset : UInt16 := 5
def Ready (status : UInt8) : Prop := status &&& 0x20 ≠ 0

instance (status : UInt8) : Decidable (Ready status) := inferInstanceAs (Decidable (_ ≠ _))

/-- How often the state is read at most before a byte is sent. -/
def patience : Nat := 10000

/-- How many of at most `k` answers, from number `n` on, are read until the device is ready. -/
def polls (answers : Nat → UInt8) (n : Nat) : Nat → Nat
  | 0 => 0
  | k + 1 => if Ready (answers n) then 1 else polls answers (n + 1) k + 1

def portAt (base : Port) (offset : UInt16) : Checked Port :=
  if base.toNat + offset.toNat < 0x10000 then .ok (base + offset) else .error .addOverflow

/-- The accesses on a serial device, and how many of its answers they have read. -/
structure Transmission where
  accesses : List PortAccess
  answersRead : Nat
  deriving DecidableEq, Repr

/-- Sends a byte, where `n` answers were read before. -/
def sendByte (base : Port) (answers : Nat → UInt8) (n : Nat) (b : UInt8) : Checked Transmission := do
  let status ← portAt base statusOffset
  let data ← portAt base dataOffset
  let k := polls answers n patience
  return ⟨List.replicate k (.read status) ++ [.write data b], n + k⟩

def sendRaw (base : Port) (answers : Nat → UInt8) (n : Nat) : List UInt8 → Checked Transmission
  | [] => .ok ⟨[], n⟩
  | b :: bs => do
    let first ← sendByte base answers n b
    let rest ← sendRaw base answers first.answersRead bs
    return ⟨first.accesses ++ rest.accesses, rest.answersRead⟩

def lineFeed : UInt8 := 10
/-- The carriage return. -/
def carriageReturn : UInt8 := 13

def withReturns : List UInt8 → List UInt8
  | [] => []
  | b :: bs => if b = lineFeed then carriageReturn :: b :: withReturns bs else b :: withReturns bs

/-- Sends bytes with a carriage return before each line feed. -/
def send (base : Port) (answers : Nat → UInt8) (n : Nat) (bs : List UInt8) : Checked Transmission :=
  sendRaw base answers n (withReturns bs)

theorem withReturns_append (a b : List UInt8) : withReturns (a ++ b) = withReturns a ++ withReturns b := by
  induction a with
  | nil => rfl
  | cons c cs ih =>
    simp only [List.cons_append, withReturns, ih]
    split <;> rfl

end Nucleus.Device.Serial
