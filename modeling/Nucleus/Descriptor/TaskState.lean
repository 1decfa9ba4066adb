import Nucleus.Bytes

/-!
The task state segment. All that matters of it are the stacks that gates switch to.
-/

namespace Nucleus.Descriptor

def stackSlots : Nat := 7

/-- Bytes of the segment. -/
def taskStateSize : Nat := 104

/-- The task state segment. -/
structure TaskState where
  /-- Stacks for a change to the rings 0 to 2. -/
  privilegeStacks : Vector UInt64 3
  /-- Stacks that gates select by the slots 1 to 7. -/
  interruptStacks : Vector UInt64 stackSlots
  /-- Where the permissions for device ports would start. -/
  permissionsBase : UInt16
  deriving DecidableEq, Repr

/-- A stack slot that is not one of 1 to 7. -/
structure InvalidStackSlot where
  index : UInt8
  deriving DecidableEq, Repr

namespace TaskState

def empty : TaskState := ⟨Vector.replicate _ 0, Vector.replicate _ 0, UInt16.ofNat taskStateSize⟩

/-- The segment with the interrupt stack of slot `index` ending at `top`. -/
def setStack (t : TaskState) (index : UInt8) (top : UInt64) : Except InvalidStackSlot TaskState :=
  if h : 0 < index.toNat ∧ index.toNat ≤ stackSlots then
    .ok { t with interruptStacks := t.interruptStacks.set (index.toNat - 1) top (by omega) }
  else .error ⟨index⟩

/-- The end of the interrupt stack of slot `index`, if there is such a slot. -/
def stack? (t : TaskState) (index : UInt8) : Option UInt64 :=
  if h : 0 < index.toNat ∧ index.toNat ≤ stackSlots then
    some (t.interruptStacks.get ⟨index.toNat - 1, by omega⟩)
  else none

/-- The bytes of the segment. -/
def bytes (t : TaskState) : List UInt8 :=
  bytesOf 4 0 ++ t.privilegeStacks.toList.flatMap (bytesOf 8 ·.toNat) ++ bytesOf 8 0 ++
    t.interruptStacks.toList.flatMap (bytesOf 8 ·.toNat) ++ bytesOf 8 0 ++ bytesOf 2 0 ++
    bytesOf 2 t.permissionsBase.toNat

end TaskState

end Nucleus.Descriptor
