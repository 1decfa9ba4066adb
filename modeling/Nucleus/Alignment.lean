import Nucleus.Fault

/-!
Rounding words of any width to multiples of a power of two. The alignment zero leaves every word as it
is; any other number that is not a power of two is refused.
-/

namespace Nucleus.Alignment

variable {w : Nat}

/-- `a` has at most one bit set: adding or clearing the bits below it is rounding. -/
def IsBit (a : BitVec w) : Prop := a &&& (a - 1) = 0

instance (a : BitVec w) : Decidable (IsBit a) := inferInstanceAs (Decidable (_ = _))

/-- The largest multiple of `a` that is at most `x`. -/
def down (x a : BitVec w) : Checked (BitVec w) :=
  if a = 0 then .ok x
  else if IsBit a then .ok (x &&& ~~~(a - 1))
  else .error .alignment

/-- The least multiple of `a` that is at least `x`, if it fits into the width. -/
def up? (x a : BitVec w) : Checked (Option (BitVec w)) :=
  if a = 0 then .ok (some x)
  else if IsBit a then
    if x.toNat + (a - 1).toNat < Nat.pow 2 w then .ok (some ((x + (a - 1)) &&& ~~~(a - 1))) else .ok none
  else .error .alignment

/-- The least multiple of `a` that is at least `x`; a fault if it does not fit. -/
def up (x a : BitVec w) : Checked (BitVec w) := do
  match ← up? x a with
  | some y => return y
  | none => throw .alignUpOverflow

/-- Whether rounding down leaves `x` as it is. -/
def isAligned (x a : BitVec w) : Checked Bool := do
  return (← down x a) = x

end Nucleus.Alignment
