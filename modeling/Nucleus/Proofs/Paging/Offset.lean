import Nucleus.Paging.Level
import Nucleus.Proofs.Memory.Page

/-!
The levels as numbers. Up to the root every shift and every span fits into a word, and masking with a span divides a
word into the multiple of the span below it and the offset from there.
-/

namespace Nucleus.Paging

variable {l : Nat}

/-! ### Shifts and spans -/

lemma shift_lt (h : l ≤ Level.root) : Level.shift l < 40 := by
  unfold Level.shift
  unfold Level.root at h
  omega

lemma checkedShift_eq (h : l ≤ Level.root) (tooFar : Fault) : Level.checkedShift l tooFar = .ok (Level.shift l) := by
  have hshift := shift_lt h
  unfold Level.root at h
  unfold Level.checkedShift
  rw [if_neg (by omega), if_neg (by omega), if_neg (by omega)]

lemma checkedSlot_eq (h : l ≤ Level.root) (v : VirtAddr) : checkedSlot l v = .ok (slot l v) := by
  unfold checkedSlot
  rw [checkedShift_eq h]
  rfl

lemma span_lt (h : l ≤ Level.root) : Level.span l < 2 ^ 40 := Nat.pow_lt_pow_right (by decide) (shift_lt h)

lemma span_pos (l : Nat) : 0 < Level.span l := Nat.two_pow_pos _

lemma span_eq (l : Nat) : Level.span l = 2 ^ (12 + 9 * l) := rfl

lemma span_succ (l : Nat) : Level.span (l + 1) = Level.span l * entriesPerTable := by
  rw [span_eq, span_eq, show 12 + 9 * (l + 1) = 12 + 9 * l + 9 by omega, Nat.pow_add]
  rfl

lemma toNat_span (h : l ≤ Level.root) : (UInt64.ofNat (Level.span l)).toNat = Level.span l :=
  UInt64.toNat_ofNat_of_lt' (Nat.lt_trans (span_lt h) (by decide))

lemma checkedSpan_eq (h : l ≤ Level.root) : Level.checkedSpan l = .ok (UInt64.ofNat (Level.span l)) := by
  unfold Level.checkedSpan
  rw [checkedShift_eq h]
  unfold Level.root at h
  obtain rfl | rfl | rfl | rfl : l = 0 ∨ l = 1 ∨ l = 2 ∨ l = 3 := by omega
  all_goals rfl

/-! ### Offsets -/

lemma toNat_and_not_offset (h : l ≤ Level.root) (x : UInt64) :
    (x &&& ~~~(UInt64.ofNat (Level.span l) - 1)).toNat = x.toNat / Level.span l * Level.span l := by
  have hspan : (UInt64.ofNat (Level.span l)).toBitVec.toNat = Level.span l := toNat_span h
  have hne : (UInt64.ofNat (Level.span l)).toBitVec ≠ 0 := fun h0 => by
    rw [h0] at hspan
    exact absurd hspan.symm (span_pos l).ne'
  have hmask := Alignment.toNat_and_not x.toBitVec hne (hspan.trans (span_eq l))
  rw [hspan] at hmask
  exact hmask

lemma toNat_and_offset (h : l ≤ Level.root) (x : UInt64) :
    (x &&& (UInt64.ofNat (Level.span l) - 1)).toNat = x.toNat % Level.span l := by
  have hsum := toNat_and_add_and_not x (UInt64.ofNat (Level.span l) - 1)
  rw [toNat_and_not_offset h] at hsum
  have hdiv := Nat.div_add_mod' x.toNat (Level.span l)
  omega

end Nucleus.Paging
