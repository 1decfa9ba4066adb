import Nucleus.Proofs.Paging.Change

/-!
Plain hierarchies, in which every intermediate entry is zero or links a table that is reachable. A zeroed root is
plain, and making tables, giving them back and writing entries of pages keep a hierarchy plain. No large page
bit hides an entry there, and the walk of the processor comes to the entry of the page.
-/

namespace Nucleus.Paging

open Memory Relation

/-- Every intermediate entry is zero or links a table. -/
def Plain (V : View) : Prop :=
  ∀ l < Level.root, ∀ n, V.word (l + 1) n = 0 ∨
    ∃ f, V.word (l + 1) n = (linkTo f).raw ∧ V.table? l n = some f ∧ f ≠ .null

namespace Plain

variable {V V' : View} {v : VirtAddr}

lemma zeroed {s : Store} {root : PhysAddr} {fs : List PhysAddr} (hz : TableEmpty s.ram root) :
    Plain (.of s root fs) := fun _ hl n => .inl (wordAt_of_zeroed hz hl n)

lemma not_barred (h : Plain V) : ¬ V.Barred v := by
  intro hb
  rcases h 2 (by decide) (index Level.root v) with h0 | ⟨f, hf, -, -⟩
  · refine Entry.ne_zero_of_present hb.1 h0
  · refine linkTo_not_huge f ?_
    have := hb.2
    unfold Level.root at this
    unfold Level.root at hf
    rw [hf] at this
    exact this

/-- Writing an intermediate entry that is zero or links a table. -/
lemma setWord (h : Plain V) {k : Nat} (hk : k < Level.root) {m : Nat} {w : UInt64}
    (hw : w = 0 ∨ ∃ f, w = (linkTo f).raw ∧ childOf V.mapped (k + 1) w = some f ∧ f ≠ .null) :
    Plain (V.setWord (k + 1) m w) := by
  intro l hl n
  rw [V.word_setWord_succ, View.table?_setWord_succ hk]
  split
  · exact hw
  · exact h l hl n

lemma links (h : Plain V) (st : Links v V V') : Plain V' := by
  obtain @⟨k, f, fs, below, free, child, fresh, parent, absent, vacant, walkable⟩ := st
  exact h.setWord below (m := index (k + 1) v) (.inr ⟨f, rfl, child, fresh.frame.ne_null⟩)

lemma unlinks (h : Plain V) (st : Unlinks v V V') : Plain V' := by
  obtain @⟨k, c, below, child, frame, not_free, empty, walkable⟩ := st
  exact h.setWord below (m := index (k + 1) v) (.inl rfl)

lemma grows (h : Plain V) (st : Grows v V V') : Plain V' := by
  induction st with
  | refl => exact h
  | tail _ st ih => exact ih.links st

lemma shrinks (h : Plain V) (st : Shrinks v V V') : Plain V' := by
  induction st with
  | refl => exact h
  | tail _ st ih => exact ih.unlinks st

lemma put (h : Plain V) (v : VirtAddr) (w : UInt64) : Plain (V.put v w) := by
  intro l hl n
  rw [V.table?_put, V.word_put_succ]
  exact h l hl n

lemma nullInUse (h : Plain V) : NullInUse V v := by
  intro V' st l hl _ ht
  have ht' := st.table?_of_some ht
  rcases h l hl (index (l + 1) v) with h0 | ⟨f, -, hf, hne⟩
  · simp [View.table?_of_lt hl, h0] at ht'
  · rw [ht'] at hf
    exact hne (Option.some.inj hf).symm

/-- The walk of the processor ends at the entry of the page. -/
lemma translate_eq (h : Plain V) {s : Store} (hs : Shows s V) {l : Nat} (hl : l ≤ Level.root) :
    V.translate v l = if (V.entry v).Present then some (View.byteOf (V.entry v) 0 v) else none := by
  induction l with
  | zero =>
    rw [View.translate]
    show (if ¬ (V.entry v).Present then none else some (View.byteOf (V.entry v) 0 v)) = _
    rw [ite_not]
  | succ l ih =>
    rw [View.translate]
    rcases h l hl (index (l + 1) v) with h0 | ⟨f, hf, ht, -⟩
    · have hn : V.table? l (index (l + 1) v) = none := by rw [View.table?_of_lt hl, h0, childOf_zero]
      have hz : ¬ (V.entry v).Present := by
        unfold View.entry
        rw [hs.word_zero_below (by omega) (Nat.zero_le _) hn]
        exact Entry.not_present_zero
      rw [h0, if_neg hz]
      exact if_pos Entry.not_present_zero
    · rw [hf, ← ih (by omega)]
      show (if ¬ (linkTo f).Present then none else if (linkTo f).Huge ∧ l + 1 < Level.root then _ else _) = _
      rw [if_neg (not_not.mpr (linkTo_present f)), if_neg fun hh => linkTo_not_huge f hh.1]

end Plain

end Nucleus.Paging
