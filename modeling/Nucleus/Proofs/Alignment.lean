import Mathlib.Algebra.Group.Nat.Defs
import Mathlib.Order.Bounds.Basic
import Mathlib.Tactic.Common
import Nucleus.Alignment

/-!
Rounding words of any width. Clearing the bits below a power of two gives the greatest multiple that is not above the
word, and doing so after adding all of these bits gives the least multiple that is not below it. The sum leaves the
width exactly if this multiple does, because the power of two divides the first number that is too large.
-/

namespace Nucleus.Alignment

/-! ### Multiples of a number -/

section Multiples

variable {n m : Nat}

lemma isGreatest_div_mul (n m : Nat) : IsGreatest {k | m ∣ k ∧ k ≤ n} (n / m * m) := by
  refine ⟨⟨Nat.dvd_mul_left m (n / m), Nat.div_mul_le_self n m⟩, ?_⟩
  rintro _ ⟨⟨c, rfl⟩, hle⟩
  rcases Nat.eq_zero_or_pos m with rfl | hm
  · simp
  · rw [Nat.mul_comm m c] at hle ⊢
    exact Nat.mul_le_mul_right m ((Nat.le_div_iff_mul_le hm).mpr hle)

lemma isLeast_div_mul (n : Nat) (hm : 0 < m) : IsLeast {k | m ∣ k ∧ n ≤ k} ((n + (m - 1)) / m * m) := by
  have hdiv := Nat.div_add_mod (n + (m - 1)) m
  have hmod := Nat.mod_lt (n + (m - 1)) hm
  rw [Nat.mul_comm] at hdiv
  refine ⟨⟨Nat.dvd_mul_left m _, by omega⟩, ?_⟩
  rintro _ ⟨⟨c, rfl⟩, hle⟩
  -- `c` multiples reach `n`, so one more would be above the sum
  have hlt : n + (m - 1) < (c + 1) * m := by
    rw [Nat.add_mul, Nat.one_mul, Nat.mul_comm c m]
    omega
  have hc : (n + (m - 1)) / m ≤ c := Nat.le_of_lt_succ (Nat.div_lt_of_lt_mul (Nat.mul_comm m _ ▸ hlt))
  rw [Nat.mul_comm m c]
  exact Nat.mul_le_mul_right m hc

/-- The sum and the multiple below it reach a multiple of `m` together. -/
lemma div_mul_lt_iff {N : Nat} (hm : 0 < m) (hN : m ∣ N) : n / m * m < N ↔ n < N := by
  obtain ⟨c, rfl⟩ := hN
  rw [Nat.mul_comm m c, Nat.mul_lt_mul_right hm, Nat.div_lt_iff_lt_mul hm]

end Multiples

/-! ### Bits -/

section Bits

variable {w k : Nat} {a : BitVec w}

lemma toNat_sub_one (ha : a ≠ 0) : (a - 1).toNat = a.toNat - 1 := by
  have hpos : a.toNat ≠ 0 := fun h => ha (BitVec.eq_of_toNat_eq (by simp [h]))
  have hlt := a.isLt
  have hone : (1 : BitVec w).toNat = 1 := (BitVec.toNat_ofNat 1 w).trans (Nat.mod_eq_of_lt (by omega))
  have hle : (1 : BitVec w) ≤ a := by
    rw [BitVec.le_def, hone]
    omega
  rw [BitVec.toNat_sub_of_le hle, hone]

/-- **One bit** is what the powers of two have. -/
lemma isBit_iff (ha : a ≠ 0) : IsBit a ↔ a.toNat.isPowerOfTwo := by
  have hpos : a.toNat ≠ 0 := fun h => ha (BitVec.eq_of_toNat_eq (by simp [h]))
  rw [← Nat.and_sub_one_eq_zero_iff_isPowerOfTwo hpos, ← toNat_sub_one ha, ← BitVec.toNat_and]
  unfold IsBit
  rw [← BitVec.toNat_inj, show (0 : BitVec w).toNat = 0 from BitVec.toNat_zero]

lemma toNat_and_add_and_not (x m : BitVec w) : (x &&& m).toNat + (x &&& ~~~m).toNat = x.toNat := by
  have hapart : (x &&& m) &&& (x &&& ~~~m) = 0#w := by
    ext i hi
    simp only [BitVec.getElem_and, BitVec.getElem_not, BitVec.getElem_zero]
    cases x[i] <;> cases m[i] <;> rfl
  have hsplit : (x &&& m) + (x &&& ~~~m) = x := by
    rw [BitVec.add_eq_or_of_and_eq_zero _ _ hapart]
    ext i hi
    simp only [BitVec.getElem_and, BitVec.getElem_not, BitVec.getElem_or]
    cases x[i] <;> cases m[i] <;> rfl
  rw [← BitVec.toNat_add_of_and_eq_zero hapart, hsplit]

lemma toNat_and_not (x : BitVec w) (ha : a ≠ 0) (hk : a.toNat = 2 ^ k) :
    (x &&& ~~~(a - 1)).toNat = x.toNat / a.toNat * a.toNat := by
  have hsum := toNat_and_add_and_not x (a - 1)
  rw [BitVec.toNat_and, toNat_sub_one ha, hk, Nat.and_two_pow_sub_one_eq_mod] at hsum
  have hdiv := Nat.div_add_mod x.toNat (2 ^ k)
  rw [Nat.mul_comm] at hdiv
  rw [hk]
  omega

lemma dvd_two_pow_width (hk : a.toNat = 2 ^ k) : a.toNat ∣ 2 ^ w := by
  have hlt := a.isLt
  rw [hk] at hlt ⊢
  exact Nat.pow_dvd_pow 2 (Nat.le_of_lt ((Nat.pow_lt_pow_iff_right (by decide)).mp hlt))

end Bits

/-! ### Rounding -/

section Rounding

variable {w : Nat} {x a : BitVec w}

lemma ne_zero_of_isPowerOfTwo (ha : a.toNat.isPowerOfTwo) : a ≠ 0 := by
  rintro rfl
  exact Nat.not_isPowerOfTwo_zero (BitVec.toNat_zero ▸ ha)

lemma down_eq (x : BitVec w) (ha : a.toNat.isPowerOfTwo) :
    ∃ d, down x a = .ok d ∧ d.toNat = x.toNat / a.toNat * a.toNat := by
  have hne := ne_zero_of_isPowerOfTwo ha
  obtain ⟨k, hk⟩ := ha
  refine ⟨x &&& ~~~(a - 1), ?_, toNat_and_not x hne hk⟩
  unfold down
  rw [if_neg hne, if_pos ((isBit_iff hne).mpr ⟨k, hk⟩)]

/-- **Rounding up** gives the least multiple that is not below the word, exactly if it fits. -/
lemma up?_eq (x : BitVec w) (ha : a.toNat.isPowerOfTwo) {m : Nat}
    (hm : m = (x.toNat + (a.toNat - 1)) / a.toNat * a.toNat) :
    (m < 2 ^ w → ∃ u, up? x a = .ok (some u) ∧ u.toNat = m) ∧ (2 ^ w ≤ m → up? x a = .ok none) := by
  have hne := ne_zero_of_isPowerOfTwo ha
  obtain ⟨k, hk⟩ := ha
  have hfits : m < 2 ^ w ↔ x.toNat + (a - 1).toNat < 2 ^ w := by
    rw [hm, div_mul_lt_iff (hk ▸ Nat.two_pow_pos k) (dvd_two_pow_width hk), toNat_sub_one hne]
  have hup : up? x a = if x.toNat + (a - 1).toNat < 2 ^ w then .ok (some ((x + (a - 1)) &&& ~~~(a - 1)))
      else .ok none := by
    unfold up?
    rw [if_neg hne, if_pos ((isBit_iff hne).mpr ⟨k, hk⟩)]
    rfl
  rw [hup]
  constructor
  · intro hlt
    rw [if_pos (hfits.mp hlt)]
    refine ⟨_, rfl, ?_⟩
    rw [toNat_and_not _ hne hk, BitVec.toNat_add, Nat.mod_eq_of_lt (hfits.mp hlt), toNat_sub_one hne, hm]
  · intro hle
    exact if_neg fun hlt => Nat.not_le_of_lt (hfits.mpr hlt) hle

lemma isAligned_eq (x : BitVec w) (ha : a.toNat.isPowerOfTwo) : isAligned x a = .ok (decide (a.toNat ∣ x.toNat)) := by
  obtain ⟨d, hd, hvalue⟩ := down_eq x ha
  unfold isAligned
  rw [hd]
  refine congrArg Except.ok (decide_eq_decide.mpr ?_)
  rw [← BitVec.toNat_inj, hvalue]
  exact ⟨fun h => ⟨_, (Nat.mul_comm _ _ ▸ h).symm⟩, Nat.div_mul_cancel⟩

/-- Rounding up ends with a fault where the multiple does not fit, and else agrees with the rounding that says so. -/
lemma up_iff (x a : BitVec w) : (∀ u, up x a = .ok u ↔ up? x a = .ok (some u)) ∧
    (up x a = .error .alignUpOverflow ↔ up? x a = .ok none) := by
  have hfault : up? x a ≠ .error .alignUpOverflow := by
    unfold up?
    split_ifs <;> simp
  unfold up
  cases h : up? x a with
  | error e =>
    rw [h] at hfault
    exact ⟨fun u => ⟨nofun, nofun⟩, fun he => absurd (Except.error.inj he) fun he' => hfault (he' ▸ rfl), nofun⟩
  | ok o =>
    cases o with
    | none => exact ⟨fun u => ⟨nofun, nofun⟩, fun _ => rfl, fun _ => rfl⟩
    | some v => exact ⟨fun u => ⟨fun hv => by cases hv; rfl, fun hv => by cases hv; rfl⟩, nofun, nofun⟩

/-- **Rounding is exact up to the limits of the width.** For a power of two, rounding down gives the greatest multiple
that is not above the word; rounding up gives the least multiple that is not below it, and nothing exactly if that
multiple does not fit; a word is aligned iff it is a multiple. Where rounding up says that there is nothing, the
rounding that has to give a word ends with a fault, and else both agree. Any other number but zero is refused by all
of them, and zero leaves every word as it is. -/
theorem rounding_exact (x a : BitVec w) :
    (a.toNat.isPowerOfTwo →
      (∃ d, down x a = .ok d ∧ IsGreatest {m | a.toNat ∣ m ∧ m ≤ x.toNat} d.toNat) ∧
      (∃ m, IsLeast {m | a.toNat ∣ m ∧ x.toNat ≤ m} m ∧
        (m < 2 ^ w → ∃ u, up? x a = .ok (some u) ∧ u.toNat = m) ∧ (2 ^ w ≤ m → up? x a = .ok none)) ∧
      isAligned x a = .ok (decide (a.toNat ∣ x.toNat))) ∧
    ((∀ u, up x a = .ok u ↔ up? x a = .ok (some u)) ∧ (up x a = .error .alignUpOverflow ↔ up? x a = .ok none)) ∧
    (a ≠ 0 → ¬ a.toNat.isPowerOfTwo → down x a = .error .alignment ∧ up? x a = .error .alignment ∧
      up x a = .error .alignment ∧ isAligned x a = .error .alignment) ∧
    (a = 0 → down x a = .ok x ∧ up? x a = .ok (some x) ∧ up x a = .ok x ∧ isAligned x a = .ok true) := by
  refine ⟨fun ha => ⟨?_, ?_, isAligned_eq x ha⟩, up_iff x a, fun hne ha => ?_, ?_⟩
  · obtain ⟨d, hd, hvalue⟩ := down_eq x ha
    exact ⟨d, hd, hvalue ▸ isGreatest_div_mul x.toNat a.toNat⟩
  · exact ⟨_, isLeast_div_mul x.toNat (Nat.pos_of_isPowerOfTwo ha), up?_eq x ha rfl⟩
  · have hdown : down x a = .error .alignment := by
      unfold down
      rw [if_neg hne, if_neg fun h => ha ((isBit_iff hne).mp h)]
    have hup : up? x a = .error .alignment := by
      unfold up?
      rw [if_neg hne, if_neg fun h => ha ((isBit_iff hne).mp h)]
    unfold up isAligned
    rw [hdown, hup]
    exact ⟨rfl, rfl, rfl, rfl⟩
  · rintro rfl
    simp [down, up?, up, isAligned, bind, Except.bind, pure, Except.pure]

/-- In the last partial block below the limit of 64 bits there is a multiple below the word, and none above it. -/
theorem rounding_exact_last_block : (0x1000 : BitVec 64).toNat.isPowerOfTwo ∧
    IsGreatest {m | 0x1000 ∣ m ∧ m ≤ 0xFFFFFFFFFFFFF001} 0xFFFFFFFFFFFFF000 ∧
    ∃ m, IsLeast {m | 0x1000 ∣ m ∧ 0xFFFFFFFFFFFFF001 ≤ m} m ∧ 2 ^ 64 ≤ m ∧
      up (0xFFFFFFFFFFFFF001 : BitVec 64) 0x1000 = .error .alignUpOverflow := by
  have hpower : (0x1000 : BitVec 64).toNat.isPowerOfTwo := ⟨12, rfl⟩
  obtain ⟨hround, ⟨-, hup⟩, -, -⟩ := rounding_exact (0xFFFFFFFFFFFFF001 : BitVec 64) 0x1000
  obtain ⟨⟨d, hd, hgreatest⟩, ⟨m, hleast, hfits, -⟩, -⟩ := hround hpower
  have hnone : up? (0xFFFFFFFFFFFFF001 : BitVec 64) 0x1000 = .ok none := by decide
  have hvalue : down (0xFFFFFFFFFFFFF001 : BitVec 64) 0x1000 = .ok 0xFFFFFFFFFFFFF000 := by decide
  rw [hvalue] at hd
  cases hd
  refine ⟨hpower, hgreatest, m, hleast, Nat.le_of_not_lt fun hlt => ?_, hup.mpr hnone⟩
  obtain ⟨u, hu, -⟩ := hfits hlt
  rw [hnone] at hu
  cases hu

end Rounding

end Nucleus.Alignment
