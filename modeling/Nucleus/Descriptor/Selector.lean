import Nucleus.Bytes

/-!
Privilege rings and segment selectors.
-/

namespace Nucleus.Descriptor

/-- A privilege level, from 0 for the kernel to 3 for user programs. -/
structure Ring where
  number : UInt8
  number_le : number ≤ 3
  deriving DecidableEq, Repr

namespace Ring

/-- The most privileged ring. -/
def kernel : Ring := ⟨0, by decide⟩

/-- The ring with the given number, if it is one. -/
def new? (n : UInt8) : Option Ring := if h : n ≤ 3 then some ⟨n, h⟩ else none

/-- The ring in the two low bits of a number. -/
def ofBits (n : UInt8) : Ring := ⟨n % 4, by
  rw [UInt8.le_iff_toNat_le, UInt8.toNat_mod]
  exact Nat.le_of_lt_succ (Nat.mod_lt _ (by decide))⟩

end Ring

/-- Names a slot of the descriptor table and the ring that asks for it. -/
structure Selector where
  value : UInt16
  deriving DecidableEq, Repr

namespace Selector

def null : Selector := ⟨0⟩

/-- The selector of the slot `index`, asked for by `ring`. -/
def new (index : UInt16) (ring : Ring) : Selector := ⟨(index <<< 3) ||| ring.number.toUInt16⟩

def index (s : Selector) : UInt16 := s.value >>> 3

end Selector

end Nucleus.Descriptor
