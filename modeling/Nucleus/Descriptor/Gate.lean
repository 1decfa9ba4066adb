import Nucleus.Descriptor.Selector
import Nucleus.Text.Number

/-!
The interrupt descriptor table: for each of the 256 vectors a gate, which holds the address of the handler
in three pieces, the selector of its code segment, the stack to switch to, and a byte with type, privilege
and presence.
-/

namespace Nucleus.Descriptor

/-- What a gate does to the interrupt flag on entry. -/
inductive GateType where
  /-- Clears it. -/
  | interrupt
  /-- Leaves it as it is. -/
  | trap
  deriving DecidableEq, Repr

/-- The type in the low bits of the attribute byte. -/
def GateType.code : GateType → UInt8
  | interrupt => 0x0E
  | trap => 0x0F

def GateType.ofCode? (c : UInt8) : Option GateType :=
  if c = 0x0E then some .interrupt else if c = 0x0F then some .trap else none

/-- An entry of the interrupt descriptor table, as the hardware lays it out. -/
structure Gate where
  offsetLow : UInt16
  selector : Selector
  /-- The stack slot in the low three bits. -/
  stack : UInt8
  /-- Presence in bit 7, privilege in bits 5 and 6, type in the low four bits. -/
  attributes : UInt8
  offsetMiddle : UInt16
  offsetHigh : UInt32
  deriving DecidableEq, Repr

namespace Gate

def empty : Gate := ⟨0, .null, 0, GateType.interrupt.code, 0, 0⟩

/-- The gate may be used. -/
def Present (g : Gate) : Prop := g.attributes &&& 0x80 ≠ 0

instance (g : Gate) : Decidable g.Present := inferInstanceAs (Decidable (_ ≠ _))

/-- The address of the handler. -/
def handler (g : Gate) : UInt64 :=
  g.offsetLow.toUInt64 ||| (g.offsetMiddle.toUInt64 <<< 16) ||| (g.offsetHigh.toUInt64 <<< 32)

/-- The stack slot to switch to, 0 to stay on the stack in use. -/
def stackIndex (g : Gate) : UInt8 := g.stack &&& 0x07

/-- The type of the gate, if it is one of the two. -/
def type? (g : Gate) : Option GateType := GateType.ofCode? (g.attributes &&& 0x0F)

/-- The ring that may call the gate by an instruction. -/
def privilege (g : Gate) : Ring := Ring.ofBits ((g.attributes &&& 0x60) >>> 5)

def setHandler (g : Gate) (a : UInt64) : Gate :=
  { g with
    offsetLow := a.toUInt16
    offsetMiddle := (a >>> 16).toUInt16
    offsetHigh := (a >>> 32).toUInt32 }

def setSelector (g : Gate) (s : Selector) : Gate := { g with selector := s }

def setStackIndex (g : Gate) (i : UInt8) : Gate := { g with stack := i &&& 0x07 }

def setType (g : Gate) (t : GateType) : Gate :=
  { g with attributes := (g.attributes &&& 0xF0) ||| t.code }

def setPrivilege (g : Gate) (r : Ring) : Gate :=
  { g with attributes := (g.attributes &&& 0x9F) ||| ((r.number <<< (5 : UInt8)) &&& 0x60) }

def setPresent (g : Gate) (present : Bool) : Gate :=
  { g with attributes := if present then g.attributes ||| 0x80 else g.attributes &&& 0x7F }

def bytes (g : Gate) : List UInt8 :=
  bytesOf 2 g.offsetLow.toNat ++ bytesOf 2 g.selector.value.toNat ++ [g.stack, g.attributes] ++
    bytesOf 2 g.offsetMiddle.toNat ++ bytesOf 4 g.offsetHigh.toNat ++ bytesOf 4 0

end Gate

/-- Why a gate table is refused. -/
inductive GateError where
  /-- The vector has no present gate with a handler. -/
  | missing (vector : UInt8)
  /-- The stack slot is not one of 0 to 7. -/
  | invalidStack (index : UInt8)
  deriving DecidableEq, Repr

def GateError.message : GateError → String
  | missing v => "vector " ++ Text.byte v ++ " has no present gate"
  | invalidStack i => "interrupt stack index " ++ Text.decimal i.toNat ++ " out of range"

def vectorCount : Nat := 256

/-- The interrupt descriptor table. -/
structure GateTable where
  gates : Vector Gate vectorCount
  deriving DecidableEq, Repr

namespace GateTable

def empty : GateTable := ⟨Vector.replicate _ .empty⟩

def get (t : GateTable) (v : UInt8) : Gate := t.gates.get ⟨v.toNat, v.toNat_lt⟩

def set (t : GateTable) (v : UInt8) (g : Gate) : GateTable := ⟨t.gates.set v.toNat g v.toNat_lt⟩

/-- The table with a present gate for a vector, whatever it had before. -/
def install (t : GateTable) (v : UInt8) (handler : UInt64) (selector : Selector) (stackIndex : UInt8)
    (type : GateType) (privilege : Ring) : Except GateError GateTable :=
  if 7 < stackIndex then .error (.invalidStack stackIndex)
  else
    .ok (t.set v (((((Gate.empty.setHandler handler).setSelector selector).setStackIndex
      stackIndex).setType type).setPrivilege privilege |>.setPresent true))

/-- The vector has a present gate with a handler. -/
def Served (t : GateTable) (v : UInt8) : Prop := (t.get v).Present ∧ (t.get v).handler ≠ 0

instance (t : GateTable) (v : UInt8) : Decidable (t.Served v) := inferInstanceAs (Decidable (_ ∧ _))

def vectors : List UInt8 := (List.range vectorCount).map UInt8.ofNat

/-- Refuses a table in which a vector is not served; the error names the least one. -/
def validate (t : GateTable) : Except GateError Unit :=
  match vectors.find? (¬ t.Served ·) with
  | some v => .error (.missing v)
  | none => .ok ()

end GateTable

end Nucleus.Descriptor
