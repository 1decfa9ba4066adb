import Mathlib.Algebra.BigOperators.Group.Finset.Basic
import Nucleus.Proofs.Paging.Walk

/-!
The slots of an address are its digits: the four levels share the bits 12 to 47 between them, and each slot weighs what
an entry of its level covers. What an address adds to a page that an entry maps lies below this span, so it stays out
of the address of the page.
-/

namespace Nucleus.Paging

open Memory View

variable {l : Nat}

/-! ### Digits -/

section Digits

variable {v w : VirtAddr}

lemma div_mod_eq_iff_testBit {m n s k : Nat} :
    m / 2 ^ s % 2 ^ k = n / 2 ^ s % 2 ^ k ↔ ∀ j < k, m.testBit (s + j) = n.testBit (s + j) := by
  have hbit : ∀ x j, (x / 2 ^ s % 2 ^ k).testBit j = (decide (j < k) && x.testBit (s + j)) := fun x j => by
    rw [Nat.testBit_mod_two_pow, Nat.testBit_div_two_pow, Nat.add_comm]
  refine ⟨fun h j hj => ?_, fun h => Nat.eq_of_testBit_eq fun j => ?_⟩
  · have hj' := congrArg (Nat.testBit · j) h
    simpa [hbit, hj] using hj'
  · rw [hbit, hbit]
    by_cases hj : j < k
    · rw [h j hj]
    · simp [hj]

lemma slot_eq_iff_testBit (h : l ≤ Level.root) :
    slot l v = slot l w ↔ ∀ j < 9, v.toNat.testBit (12 + 9 * l + j) = w.toNat.testBit (12 + 9 * l + j) := by
  rw [slot_eq h, slot_eq h, span_eq, show entriesPerTable = 2 ^ 9 from rfl]
  exact div_mod_eq_iff_testBit

/-- **The four slots** hold the bits 12 to 47, each bit once. -/
lemma slots_eq_iff_testBit :
    (∀ l ≤ Level.root, slot l v = slot l w) ↔ ∀ i, 12 ≤ i → i < 48 → v.toNat.testBit i = w.toNat.testBit i := by
  unfold Level.root
  constructor
  · intro h i hlow hhigh
    have hl : (i - 12) / 9 ≤ 3 := by omega
    have hi : 12 + 9 * ((i - 12) / 9) + (i - 12) % 9 = i := by omega
    rw [← hi]
    exact (slot_eq_iff_testBit hl).mp (h _ hl) _ (Nat.mod_lt _ (by decide))
  · intro h l hl
    exact (slot_eq_iff_testBit hl).mpr fun j hj => h _ (by omega) (by omega)

/-- The lowest slots and the offset make up the address up to the span of the next level. -/
lemma mod_span_eq_sum (v : VirtAddr) {n : Nat} (hn : n ≤ Level.root + 1) :
    v.toNat % Level.span n = ∑ l ∈ Finset.range n, slot l v * Level.span l + v.toNat % pageSize := by
  induction n with
  | zero => rw [Finset.sum_range_zero, Nat.zero_add]; rfl
  | succ n ih =>
    rw [span_succ, Nat.mod_mul, ih (by omega), Finset.sum_range_succ, slot_eq (by omega), Nat.mul_comm (Level.span n)]
    omega

end Digits

/-! ### Offsets in a page -/

/-- **The offset never carries** into the address of the page. -/
lemma byteOf_and_not_offset (e : Entry) (v : VirtAddr) (h : l ≤ Level.root) :
    (byteOf e l v).word &&& ~~~(UInt64.ofNat (Level.span l) - 1) =
      e.base.word &&& ~~~(UInt64.ofNat (Level.span l) - 1) := by
  have hpos := span_pos l
  have hdiv : (byteOf e l v).toNat / Level.span l = e.base.toNat / Level.span l := by
    rw [toNat_byteOf e v h, Nat.mul_comm, Nat.mul_add_div hpos, Nat.div_eq_of_lt (Nat.mod_lt _ hpos), Nat.add_zero]
  apply UInt64.toNat_inj.mp
  rw [toNat_and_not_offset h, toNat_and_not_offset h]
  exact congrArg (· * Level.span l) hdiv

/-! ### The end of a walk -/

/-- From a table of level `l` on, the walk for `v` ends at the entry `e` of level `k`, which maps a page. -/
inductive EndsAt (s : Store) (v : VirtAddr) (k : Nat) (e : Entry) : Nat → PhysAddr → Prop
  | page {t} (hentry : entryIn? s t k v = some e) (hpresent : e.Present) (hpage : k = 0 ∨ e.Huge ∧ k < Level.root) :
    EndsAt s v k e k t
  | table {l t e'} (hentry : entryIn? s t (l + 1) v = some e') (hpresent : e'.Present)
    (htable : ¬ (e'.Huge ∧ l + 1 < Level.root)) (hrest : EndsAt s v k e l e'.base) : EndsAt s v k e (l + 1) t

section Walks

variable {s : Store} {v : VirtAddr} {k : Nat} {e : Entry} {t : PhysAddr}

lemma EndsAt.lt_root (h : EndsAt s v k e l t) : k < Level.root := by
  induction h with
  | page _ _ hpage => exact hpage.elim (fun h0 => h0 ▸ by decide) And.right
  | table _ _ _ _ ih => exact ih

/-- **Translating** is walking to the entry that maps a page and adding the offset. -/
lemma translateFrom_eq_some_iff {p : PhysAddr} :
    translateFrom s v l t = some p ↔ ∃ k e, EndsAt s v k e l t ∧ p = byteOf e k v := by
  constructor
  · -- the walk as the function makes it
    intro h
    induction l generalizing t with
    | zero =>
      rw [translateFrom] at h
      split at h
      · cases h
      · next e hentry =>
        split at h
        · cases h
        · next hpresent =>
          cases h
          exact ⟨0, e, .page hentry (not_not.mp hpresent) (.inl rfl), rfl⟩
    | succ l ih =>
      rw [translateFrom] at h
      split at h
      · cases h
      · next e hentry =>
        split at h
        · cases h
        · next hpresent =>
          dsimp only at h
          split at h
          · next hlarge =>
            cases h
            exact ⟨l + 1, e, .page hentry (not_not.mp hpresent) (.inr hlarge), rfl⟩
          · next htable =>
            obtain ⟨k, e', hends, hp⟩ := ih h
            exact ⟨k, e', .table hentry (not_not.mp hpresent) htable hends, hp⟩
  · -- a walk to an entry is the one that the function makes
    rintro ⟨k, e, hends, rfl⟩
    induction hends with
    | @page t hentry hpresent hpage =>
      cases k with
      | zero =>
        rw [translateFrom, hentry]
        exact if_neg (not_not.mpr hpresent)
      | succ k =>
        have hlarge := hpage.resolve_left (Nat.succ_ne_zero k)
        rw [translateFrom, hentry]
        exact (if_neg (not_not.mpr hpresent)).trans (if_pos hlarge)
    | @table l t e' hentry hpresent htable _ ih =>
      rw [translateFrom, hentry]
      exact (if_neg (not_not.mpr hpresent)).trans ((if_neg htable).trans ih)

end Walks

/-- **The slots of an address identify its page.** Each of the four slots can be computed and is one of a table. Two
addresses have the same slots iff they agree on the bits 12 to 47, and the slots, each with the weight of what an entry
of its level covers, and the offset in the page make up the lower 48 bits. At each level, the byte for an address in a
page lies as far above the base of the page as the address above a multiple of the span, and adding this offset leaves
the base as it is. This byte is what an address is translated to, for the entry at which its walk ends. -/
theorem slots_identify_page (v w : VirtAddr) :
    (∀ l ≤ Level.root, checkedSlot l v = .ok (slot l v) ∧ slot l v < entriesPerTable ∧
      ∃ size, Level.checkedSpan l = .ok size ∧ size.toNat = Level.span l) ∧
    ((∀ l ≤ Level.root, slot l v = slot l w) ↔ ∀ i, 12 ≤ i → i < 48 → v.toNat.testBit i = w.toNat.testBit i) ∧
    v.toNat % 2 ^ 48 = ∑ l ∈ Finset.range (Level.root + 1), slot l v * Level.span l + v.toNat % pageSize ∧
    (∀ l ≤ Level.root, ∀ e,
      (byteOf e l v).toNat = e.base.toNat / Level.span l * Level.span l + v.toNat % Level.span l ∧
      (byteOf e l v).word &&& ~~~(UInt64.ofNat (Level.span l) - 1) =
        e.base.word &&& ~~~(UInt64.ofNat (Level.span l) - 1)) ∧
    ∀ s root p, translate s root v = some p ↔
      ∃ l e, l < Level.root ∧ EndsAt s v l e Level.root root ∧ p = byteOf e l v := by
  refine ⟨fun l hl => ?_, slots_eq_iff_testBit, mod_span_eq_sum v (Nat.le_refl _), fun l hl e => ?_, fun s root p => ?_⟩
  · exact ⟨checkedSlot_eq hl v, slot_lt hl v, _, checkedSpan_eq hl, toNat_span hl⟩
  · exact ⟨toNat_byteOf e v hl, byteOf_and_not_offset e v hl⟩
  · refine translateFrom_eq_some_iff.trans (exists_congr fun l => exists_congr fun e => ?_)
    exact ⟨fun ⟨hends, hp⟩ => ⟨hends.lt_root, hends, hp⟩, fun ⟨_, hends, hp⟩ => ⟨hends, hp⟩⟩

example : (List.range 4).map (slot · ⟨0xFFFF800000201234⟩) = [1, 1, 0, 256] := by decide

end Nucleus.Paging
