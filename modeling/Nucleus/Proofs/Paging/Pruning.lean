import Nucleus.Proofs.Paging.Branch
import Nucleus.Proofs.Paging.Observed

/-!
Giving tables back is exact. The tables that are given back for an address are a branch on the way to it: the lowest
was empty, and each further one became so when the one below it was unlinked. Apart from the entry that the branch
hung on, all that the hierarchy holds stays, and on the way to the address no empty table is left.
-/

namespace Nucleus.Paging

open Memory Relation

variable {v : VirtAddr} {V V' : View}

lemma Shrinks.word (h : Shrinks v V V') (l n : Nat) : V'.word l n = V.word l n ∨ V'.word l n = 0 := by
  induction h with
  | refl => exact .inl rfl
  | tail _ st ih =>
    obtain @⟨k, c, -, -, -, -, -, -⟩ := st
    dsimp only
    rw [View.word_setWord]
    split
    · exact .inr rfl
    · exact ih

/-- **Giving tables back is exact and invisible.** In every hierarchy that is a tree of distinct tables apart from the
free frames, it ends, and the tables that it gives back are a branch on the way to `v`, put on the free list from the
lowest up. The entry that the branch hung on is cleared. Without the branch, all other tables with their contents, the
entries of all pages, all large pages and all translations are those from before. No table that is left on the way to
`v` is empty, and doing it again does nothing. -/
theorem reclaim_prunes_branch {s : Store} {root : PhysAddr} {fs : List PhysAddr} (aligned : root.PageAligned)
    (distinct : DistinctTables s root) (free : FreeFrames s fs)
    (apart : ∀ l ≤ Level.root, ∀ n t, tableAt s root l n = some t → t ∉ fs) (v : VirtAddr)
    (nonnull : ∀ l < Level.root, tableAt s root l (index (l + 1) v) ≠ some .null)
    (small : ¬ (⟨wordAt s root Level.root (index Level.root v)⟩ : Entry).Huge) :
    Ends (reclaim root v) s fun n s' => ∃ low freed, freed.length = n ∧ WithBranch s' s root v low freed ∧
      FreeFrames s' (freed.reverse ++ fs) ∧ s'.frames.count = s.frames.count + n ∧
      (0 < n → wordAt s' root (low + n) (index (low + n) v) = 0) ∧
      (∀ l < Level.root, ∀ t, tableAt s' root l (index (l + 1) v) = some t → ¬ TableEmpty s'.ram t) ∧
      reclaim root v s' = .ok 0 s' := by
  have hs : Depicts s (.of s root fs) := .of aligned free distinct fun hl ht => apart _ hl _ _ ht
  have hwalk : ¬ (View.of s root fs).Barred v := fun hb => small hb.2
  have hnull : NullInUse (.of s root fs) v := by
    intro V' hshrinks l hl _ ht
    refine nonnull l hl ?_
    have htable : (View.of s root fs).table? l (index (l + 1) v) = tableAt s root l (index (l + 1) v) :=
      View.table?_of (Nat.le_of_lt hl) _
    exact htable.symm.trans (hshrinks.table?_of_some ht)
  refine (hs.reclaim_ends hnull).mono ?_
  rintro n s' ⟨V', hshrinks, hs', hused, hcount⟩
  obtain ⟨low, freed, hb⟩ := hshrinks.branch hs.toGrounded
  have hroot : V'.root = root := hshrinks.keepsPages.root
  have hlength : freed.length = n := by
    rw [hb.free, List.length_append, List.length_reverse] at hcount
    omega
  have hwith := hs'.withBranch hs hb
  have hempty := hused hwalk
  rw [hroot] at hwith
  refine ⟨low, freed, hlength, hwith, ?_, ?_, fun hn => ?_, fun l hl t ht hz => ?_, ?_⟩
  · rw [← show V'.free = freed.reverse ++ fs from hb.free]
    exact hs'.free
  · rw [hs'.free.count, hb.free, hs.free.count, List.length_append, List.length_reverse, hlength, Nat.add_comm]
  · have hne : freed ≠ [] := List.ne_nil_of_length_pos (hlength ▸ hn)
    rw [← hlength, ← hroot, (hs'.table?_and_word hb.fits _).2]
    -- this entry linked the branch, so it is one of those cleared
    rcases hshrinks.word (low + freed.length) (index (low + freed.length) v) with hsame | hzero
    · exact absurd (hsame ▸ hb.hangs hne) (hb.absent hne)
    · exact hzero
  · rw [← hroot, (hs'.table?_and_word (Nat.le_of_lt hl) _).1] at ht
    refine hempty l hl ⟨by rw [ht]; exact Option.some_ne_none t, fun i hi => ?_⟩
    rw [← hs'.words (Nat.le_of_lt hl) ht i hi]
    exact hz i hi
  · rw [← hroot]
    exact hs'.reclaim_eq hempty

/-- The ladder with no entry at its foot. -/
def bareLadder : Store := { ladder with ram := ladder.ram.store 0x4000 0 }

lemma shows_bareLadder : Shows bareLadder
    (View.setWord (.of ladder ⟨0x1000⟩ [⟨0x8000⟩, ⟨0x7000⟩, ⟨0x6000⟩, ⟨0x5000⟩]) 0 0 0) := by
  have hs := orderly_ladder.shows
  have htable : (View.of ladder ⟨0x1000⟩ [⟨0x8000⟩, ⟨0x7000⟩, ⟨0x6000⟩, ⟨0x5000⟩]).table? 0 0 = some ⟨0x4000⟩ := by
    rw [View.table?_of (by decide), tableAt_ladder (by decide)]
    rfl
  refine hs.setWord (n := 0) (Nat.zero_le _) htable ?_ ?_
  · intro k hk
    exact absurd hk (Nat.succ_ne_zero k)
  · intro f hf
    exact absurd hf (Nat.lt_irrefl 0)

lemma index_zero (l : Nat) : index l ⟨0⟩ = 0 := by
  have hpage : (⟨0⟩ : VirtAddr).page = 0 := rfl
  rw [index, hpage, Nat.zero_mod, Nat.zero_div]

theorem reclaim_prunes_branch_bare_ladder : ∃ s' low freed, reclaim ⟨0x1000⟩ ⟨0⟩ bareLadder = .ok 3 s' ∧
    freed.length = 3 ∧ WithBranch s' bareLadder ⟨0x1000⟩ ⟨0⟩ low freed ∧ s'.frames.count = 7 ∧
      reclaim ⟨0x1000⟩ ⟨0⟩ s' = .ok 0 s' := by
  have hs := shows_bareLadder
  have htable : ∀ l < Level.root, tableAt bareLadder ⟨0x1000⟩ l (index (l + 1) ⟨0⟩) = some (ladderTable l) := by
    intro l hl
    refine (hs.table?_and_word (Nat.le_of_lt hl) _).1.trans ?_
    rw [View.table?_setWord (Nat.zero_le _), if_neg (by omega), View.table?_of (Nat.le_of_lt hl),
      tableAt_ladder (Nat.le_of_lt hl)]
    exact if_pos (index_zero (l + 1))
  have hword : wordAt bareLadder ⟨0x1000⟩ Level.root (index Level.root ⟨0⟩) = ladderWord Level.root := by
    refine (hs.table?_and_word (Nat.le_refl _) _).2.trans ?_
    rw [View.word_setWord, if_neg (by decide)]
    show wordAt ladder ⟨0x1000⟩ Level.root (index Level.root ⟨0⟩) = _
    rw [index_zero, wordAt_ladder (Nat.le_refl _), if_pos rfl]
  have hnonnull : ∀ l < Level.root, tableAt bareLadder ⟨0x1000⟩ l (index (l + 1) ⟨0⟩) ≠ some .null := by
    intro l hl
    rw [htable l hl]
    unfold Level.root at hl
    obtain rfl | rfl | rfl : l = 0 ∨ l = 1 ∨ l = 2 := by omega
    all_goals decide
  have hrun : (reclaim ⟨0x1000⟩ ⟨0⟩).run' bareLadder = some 3 := by decide +kernel
  obtain ⟨s', hrun⟩ := eq_ok_of_run' hrun
  have ho := hs.orderly
  have hends := reclaim_prunes_branch ho.aligned ho.distinct ho.free ho.apart ⟨0⟩ hnonnull
    (hword ▸ linkTo_not_huge (ladderTable 2))
  obtain ⟨low, freed, hlength, hwith, -, hcount, -, -, hagain⟩ := hends.elim hrun
  exact ⟨s', low, freed, hrun, hlength, hwith, hcount, hagain⟩

end Nucleus.Paging
