import Nucleus.Address

/-!
The four levels of the page table hierarchy, numbered from 0 for the tables of base pages up to 3 for the
root, and the slots of a virtual address. An entry of level `l` covers `2 ^ (12 + 9 * l)` bytes.
-/

namespace Nucleus.Paging

def entriesPerTable : Nat := 512

namespace Level

def root : Nat := 3

/-- The bit of an address at which its slot in tables of level `l` starts. -/
def shift (l : Nat) : Nat := 12 + 9 * l

/-- The bytes that one entry of level `l` covers. -/
def span (l : Nat) : Nat := Nat.pow 2 (shift l)

/-- The level above, none above the root; level numbers have 32 bits. -/
def parent (l : Nat) : Checked (Option Nat) :=
  if l = root then .ok none
  else if l + 1 < 0x100000000 then .ok (some (l + 1))
  else .error .addOverflow

/-- The level below, none below the tables of base pages. -/
def child : Nat → Option Nat
  | 0 => none
  | l + 1 => some l

/-- The shift of a level, computed in 32 bits; `tooFar` is the fault of shifting a word by 64 or more. -/
def checkedShift (l : Nat) (tooFar : Fault) : Checked Nat :=
  if 0x100000000 ≤ 9 * l then .error .mulOverflow
  else if 0x100000000 ≤ shift l then .error .addOverflow
  else if 64 ≤ shift l then .error tooFar
  else .ok (shift l)

/-- The span of a level as a word. -/
def checkedSpan (l : Nat) : Checked UInt64 :=
  return 1 <<< UInt64.ofNat (← checkedShift l .shiftLeftOverflow)

end Level

/-- The slot of a table of level `l` that is responsible for the address `v`. -/
def slot (l : Nat) (v : VirtAddr) : Nat :=
  ((v.word >>> UInt64.ofNat (Level.shift l)) &&& 0x1FF).toNat

/-- The slot at a level that may lie outside of the hierarchy. -/
def checkedSlot (l : Nat) (v : VirtAddr) : Checked Nat := do
  let _ ← Level.checkedShift l .shiftRightOverflow
  return slot l v

/-- A number as a slot of a table, if it is one. -/
def slot? (n : Nat) : Option Nat := if n < entriesPerTable then some n else none

theorem slot_eq {l : Nat} (h : l ≤ Level.root) (v : VirtAddr) :
    slot l v = v.toNat / Level.span l % entriesPerTable := by
  have hs : Level.shift l < 64 := by unfold Level.shift; unfold Level.root at h; omega
  have h512 : (0x1FF : UInt64).toNat = 2 ^ 9 - 1 := rfl
  rw [slot, UInt64.toNat_and, UInt64.toNat_shiftRight, h512, Nat.and_two_pow_sub_one_eq_mod,
    UInt64.toNat_ofNat_of_lt' (by simp only [UInt64.size]; omega), Nat.mod_eq_of_lt hs,
    Nat.shiftRight_eq_div_pow]
  rfl

theorem slot_lt {l : Nat} (h : l ≤ Level.root) (v : VirtAddr) : slot l v < entriesPerTable := by
  rw [slot_eq h]
  exact Nat.mod_lt _ (by decide)

end Nucleus.Paging
