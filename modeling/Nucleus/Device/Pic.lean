import Nucleus.Device.Port
import Nucleus.Log

/-!
The two cascaded interrupt controllers, which deliver 16 lines on two windows of eight vectors. The slave
hangs on line 2 of the master. The masks that suppress lines live in the controllers themselves and are
read and written through their data ports.
-/

namespace Nucleus.Device

/-! ### The mask registers -/

def masterCommand : Port := 0x20
def masterData : Port := 0x21
def slaveCommand : Port := 0xA0
def slaveData : Port := 0xA1

/-- The masks of both controllers; a set bit suppresses its line. -/
structure MaskRegisters where
  master : UInt8
  slave : UInt8
  deriving DecidableEq, Repr

namespace MaskRegisters

/-- What a read of a port gives. -/
def read (m : MaskRegisters) (p : Port) : UInt8 :=
  if p = masterData then m.master else if p = slaveData then m.slave else 0

/-- The masks after a port access. -/
def after (m : MaskRegisters) : PortAccess → MaskRegisters
  | .write p v =>
    if p = masterData then { m with master := v }
    else if p = slaveData then { m with slave := v }
    else m
  | _ => m

/-- The line is suppressed. -/
def Masked (m : MaskRegisters) (line : UInt8) : Prop :=
  (if line < 8 then m.master else m.slave) &&& (1 <<< (line % 8)) ≠ 0

end MaskRegisters

/-! ### The controllers -/

/-- Why an operation on the controllers is refused. -/
inductive PicError where
  /-- Vector windows lie above the exceptions and start at multiples of eight. -/
  | invalidBase (base : UInt8)
  /-- Both controllers would deliver on the same vectors. -/
  | overlappingBases (master slave : UInt8)
  /-- There are only 16 lines. -/
  | invalidLine (line : UInt8)
  deriving DecidableEq, Repr

def PicError.message : PicError → String
  | invalidBase b => "invalid PIC vector base " ++ Text.byte b
  | overlappingBases m s => "PIC vector bases " ++ Text.byte m ++ " and " ++ Text.byte s ++ " overlap"
  | invalidLine l => "invalid IRQ line " ++ Text.decimal l.toNat

/-- The number of lines of both controllers together. -/
def lineCount : UInt8 := 16

/-- Both controllers: their masks, and the first vectors of their windows. -/
structure Controllers where
  masks : MaskRegisters
  masterBase : UInt8
  slaveBase : UInt8
  deriving DecidableEq, Repr

/-- The controllers after an operation, the accesses that it made, and its answer. -/
structure PicStep (α : Type) where
  controllers : Controllers
  accesses : List PortAccess
  answer : α

namespace Controllers

/-- The controllers as they start up. -/
def powerOn (masks : MaskRegisters) : Controllers := ⟨masks, 0x08, 0x70⟩

/-- The controllers after port accesses. -/
def after (c : Controllers) (accesses : List PortAccess) : Controllers :=
  { c with masks := accesses.foldl MaskRegisters.after c.masks }

def perform {α : Type} (c : Controllers) (accesses : List PortAccess) (answer : α) : PicStep α :=
  ⟨c.after accesses, accesses, answer⟩

/-- Reads both masks. -/
def readMasks (c : Controllers) : PicStep (UInt8 × UInt8) :=
  c.perform [.read masterData, .read slaveData] (c.masks.read masterData, c.masks.read slaveData)

/-- The accesses that write both masks. -/
def maskWrites (master slave : UInt8) : List PortAccess :=
  [.write masterData master, .write slaveData slave]

/-- Writes both masks. -/
def writeMasks (c : Controllers) (master slave : UInt8) : PicStep Unit :=
  c.perform (maskWrites master slave) ()

/-- The accesses that start both controllers anew: initialization, windows, cascade and mode. -/
def initialization (master slave : UInt8) : List PortAccess :=
  [.write masterCommand 0x11, .wait, .write slaveCommand 0x11, .wait,
   .write masterData master, .wait, .write slaveData slave, .wait,
   .write masterData 0x04, .wait, .write slaveData 0x02, .wait,
   .write masterData 0x01, .wait, .write slaveData 0x01, .wait]

def ValidBase (base : UInt8) : Prop := 32 ≤ base ∧ base % 8 = 0

instance (base : UInt8) : Decidable (ValidBase base) := inferInstanceAs (Decidable (_ ∧ _))

/-- Why the windows cannot start at the given vectors, if they cannot. -/
def remapRefusal? (master slave : UInt8) : Option PicError :=
  if ¬ ValidBase master then some (.invalidBase master)
  else if ¬ ValidBase slave then some (.invalidBase slave)
  else if master = slave then some (.overlappingBases master slave)
  else none

/-- Moves the windows to the given vectors; the masks are as before afterwards. -/
def remap (c : Controllers) (master slave : UInt8) : PicStep (Except PicError Unit) :=
  match remapRefusal? master slave with
  | some e => ⟨c, [], .error e⟩
  | none =>
    let read := c.readMasks
    let accesses := read.accesses ++ initialization master slave ++ maskWrites read.answer.1 read.answer.2
    { c with masterBase := master, slaveBase := slave }.perform accesses (.ok ())

def remapRecord (c : Controllers) : Log.Record :=
  ⟨.debug, "interrupts::pic", "[PIC] remapped to " ++ Text.byte c.masterBase ++ "/" ++
    Text.byte c.slaveBase ++ ", masks " ++ Text.byte c.masks.master ++ "/" ++ Text.byte c.masks.slave⟩

/-- Changes the mask of the controller of a line; `change` gets the mask and the bit of the line. -/
def updateMask (c : Controllers) (line : UInt8) (change : UInt8 → UInt8 → UInt8) :
    PicStep (Except PicError Unit) :=
  if lineCount ≤ line then ⟨c, [], .error (.invalidLine line)⟩
  else
    let port := if line < 8 then masterData else slaveData
    c.perform [.read port, .write port (change (c.masks.read port) (1 <<< (line % 8)))] (.ok ())

/-- Suppresses a line. -/
def mask (c : Controllers) (line : UInt8) : PicStep (Except PicError Unit) :=
  c.updateMask line fun m bit => m ||| bit

def unmask (c : Controllers) (line : UInt8) : PicStep (Except PicError Unit) :=
  c.updateMask line fun m bit => m &&& ~~~bit

/-- The accesses that acknowledge a line: lines of the slave went through both controllers. -/
def acknowledgement (line : UInt8) : List PortAccess :=
  (if 8 ≤ line then [.write slaveCommand 0x20] else []) ++ [.write masterCommand 0x20]

/-- Acknowledges a line. -/
def acknowledge (c : Controllers) (line : UInt8) : PicStep Unit := c.perform (acknowledgement line) ()

/-- The line that is delivered on a vector, if there is one. -/
def line? (c : Controllers) (vector : UInt8) : Option UInt8 :=
  if vector - c.masterBase < 8 then some (vector - c.masterBase)
  else if vector - c.slaveBase < 8 then some (vector - c.slaveBase + 8)
  else none

end Controllers

end Nucleus.Device
