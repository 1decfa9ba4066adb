import Nucleus.Text.Number

/-!
The ways in which a computation stops without a result: arithmetic that leaves its type, an alignment
that is none, and an access to physical memory that the direct mapping does not reach.
-/

namespace Nucleus

/-- Why a computation stopped. -/
inductive Fault where
  | addOverflow
  | subOverflow
  | mulOverflow
  | shiftLeftOverflow
  | shiftRightOverflow
  /-- Rounding to a multiple of a number that is neither zero nor a power of two. -/
  | alignment
  /-- The next multiple of the alignment does not fit into the type. -/
  | alignUpOverflow
  /-- The physical address lies outside of the direct mapping. -/
  | unreachable (address : UInt64)
  deriving DecidableEq, Repr

def Fault.message : Fault → String
  | addOverflow => "attempt to add with overflow"
  | subOverflow => "attempt to subtract with overflow"
  | mulOverflow => "attempt to multiply with overflow"
  | shiftLeftOverflow => "attempt to shift left with overflow"
  | shiftRightOverflow => "attempt to shift right with overflow"
  | alignment => "alignment must be power of two"
  | alignUpOverflow => "align_up overflowed"
  | unreachable a => "[kmem] 0x" ++ Text.word a ++ "_P is outside the direct mapping"

/-- A value, or the fault that prevented it. -/
abbrev Checked (α : Type) := Except Fault α

/-! ### Arithmetic within 64 bits -/

namespace Word

/-- The sum of two words if it fits. -/
def add (a b : UInt64) : Checked UInt64 :=
  if a.toNat + b.toNat < 0x10000000000000000 then .ok (a + b) else .error .addOverflow

/-- The difference of two words if it is not negative. -/
def sub (a b : UInt64) : Checked UInt64 :=
  if b.toNat ≤ a.toNat then .ok (a - b) else .error .subOverflow

/-- The product of two words if it fits. -/
def mul (a b : UInt64) : Checked UInt64 :=
  if a.toNat * b.toNat < 0x10000000000000000 then .ok (a * b) else .error .mulOverflow

/-- The sum of two words, cut off at the largest word. -/
def addSaturating (a b : UInt64) : UInt64 := UInt64.ofNat (min (a.toNat + b.toNat) 0xFFFFFFFFFFFFFFFF)

theorem toNat_add {a b c : UInt64} (h : add a b = .ok c) : c.toNat = a.toNat + b.toNat := by
  unfold add at h
  split at h
  · cases h
    rw [UInt64.toNat_add]
    exact Nat.mod_eq_of_lt ‹_›
  · cases h

theorem toNat_addSaturating (a b : UInt64) :
    (addSaturating a b).toNat = min (a.toNat + b.toNat) 0xFFFFFFFFFFFFFFFF := by
  unfold addSaturating
  rw [UInt64.toNat_ofNat']
  omega

end Word

end Nucleus
