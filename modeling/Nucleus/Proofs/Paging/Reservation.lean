import Nucleus.Proofs.Paging.Observed
import Nucleus.Proofs.Paging.Release

/-!
Reservations that fail: the rollback releases the pages that were marked and gives back the tables that were
made for them, so that nothing is left of the attempt.
-/

namespace Nucleus.Paging

open Memory

section Loops

variable {V₀ V : View} {s : Store} {start : VirtAddr}

/-- **Marking pages** extends the hierarchy, or else fails and leaves it as it was before the first of them. -/
lemma markFrom_ends (ht : V₀.Tidy) (hf : ∀ f ∈ V₀.free, f ≠ .null) {i n : Nat} (hu : Unused V₀ start 0 (i + n))
    (hs : Shows s V) (h : Extends V₀ V (Among start 0 i) fun _ => False) :
    Ends (markFrom V₀.root start i n) s fun r s' => ∃ V', Shows s' V' ∧
      ((r = .ok () ∧ Extends V₀ V' (Among start 0 (i + n)) fun _ => False) ∨
        ((∃ e, r = .error e) ∧ Extends V₀ V' (fun _ => False) fun _ => False)) := by
  induction n generalizing i s V with
  | zero => exact ends_pure ⟨V, hs, .inl ⟨rfl, h⟩⟩
  | succ n ih =>
    have hui : Unused V₀ start i (n + 1) := by
      refine ⟨hu.aligned, ?_, fun j hij hj => hu.unused j (Nat.zero_le j) (by omega)⟩
      have := hu.fits
      rwa [Nat.zero_add] at this
    rw [markFrom, ends_check_bind hui.head_address, ← h.root]
    refine Ends.bind hs.leafOrCreate_ends ?_
    rintro r s₁ ⟨V₁, hg, hs₁, ha⟩
    have h₁ : Extends V₀ V₁ (Among start 0 i) fun w => w = pageAt start i :=
      (h.grows ht hg).mono (fun _ => id) fun _ hw => hw.resolve_right id
    rw [h.root]
    cases r with
    | ok a =>
      have hleaf := ha a rfl
      refine Ends.bind (hs₁.setEntry_leaf hleaf pendingEntry) ?_
      rintro _ s₂ hs₂
      have he : i + (n + 1) = i + 1 + n := by omega
      rw [he] at hu ⊢
      refine ih hu hs₂ ((h₁.mark hs₂ hleaf.1 hui.head_unused).mono ?_ fun _ => id)
      rintro v (rfl | ⟨k, -, hk, rfl⟩)
      · exact ⟨i, Nat.zero_le i, Nat.lt_succ_self i, rfl⟩
      · exact ⟨k, Nat.zero_le k, by omega, rfl⟩
    -- the rollback: the pages before this one, then the tables on the way to this one
    | error e =>
      have hu' : Unused V₀ start 0 i := by
        refine ⟨hu.aligned, Nat.lt_of_le_of_lt ?_ hui.head_fits, fun j _ hj => hu.unused j (Nat.zero_le j) (by omega)⟩
        exact Nat.add_le_add_left (Nat.mul_le_mul_right _ (by omega)) _
      have hmarked : ∀ v, Among start 0 i v → Among start 0 (0 + i) v := by
        rintro v ⟨k, -, hk, rfl⟩
        exact ⟨k, Nat.zero_le k, by omega, rfl⟩
      refine Ends.bind (((h₁.mono hmarked fun _ => .inr).extended hs₁).releaseFrom_ends ht hf hu') ?_
      rintro _ s₂ h₂
      have hidle : Extended s₂ V₀ (fun _ => False) fun w => w = pageAt start i ∨ False :=
        h₂.mono (fun _ => id) fun _ => .inl
      refine Ends.bind (hidle.reclaim_ends ht hf) ?_
      rintro _ s₃ h₃
      obtain ⟨V₃, hs₃, h₃⟩ := h₃.bare
      exact ends_pure ⟨V₃, hs₃, .inr ⟨⟨e, rfl⟩, h₃⟩⟩

lemma Unused.of_fits {h : Heap} {count : Nat} (hbrk : h.brk.PageAligned) (hf : h.Fits count)
    (hu : ∀ v, h.brk ≤ v → v < h.stop → V₀.word 0 (index 0 v) = 0) : Unused V₀ h.brk 0 count := by
  obtain ⟨-, hend, hstop⟩ := hf
  refine ⟨hbrk, by rwa [Nat.zero_add], fun j _ hj => ?_⟩
  have hle : (j + 1) * pageSize ≤ count * pageSize := Nat.mul_le_mul_right _ (by omega)
  rw [Nat.add_mul] at hle
  have haddr : (pageAt h.brk j).toNat = h.brk.toNat + j * pageSize := toNat_pageAt (by omega)
  refine hu _ (Addr.le_def.mpr (by omega)) (Addr.lt_def.mpr ?_)
  unfold pageSize at *
  omega

/-- **A reservation** marks the pages from the break on and moves it behind them, or else fails and leaves the
heap and the hierarchy as they were. -/
lemma Shows.tryReserve_ends (hs : Shows s V₀) (ht : V₀.Tidy) {h : Heap} (hbrk : h.brk.PageAligned)
    (hu : ∀ v, h.brk ≤ v → v < h.stop → V₀.word 0 (index 0 v) = 0) (count : Nat) :
    Ends (tryReserve V₀.root h count) s fun r s' =>
      (r = (.ok h.brk, { h with brk := pageAt h.brk count }) ∧ Unused V₀ h.brk 0 count ∧
        Extended s' V₀ (Among h.brk 0 count) fun _ => False) ∨
      ((∃ e, r = (.error e, h)) ∧ Extended s' V₀ (fun _ => False) fun _ => False) := by
  have hrefl : Extends V₀ V₀ (fun _ => False) fun _ => False := (Extends.refl ht).mono nofun nofun
  unfold tryReserve
  by_cases hcount : count = 0
  · rw [if_pos hcount]
    exact ends_pure (.inr ⟨⟨_, rfl⟩, hrefl.extended hs⟩)
  rw [if_neg hcount]
  by_cases hfits : ¬ h.Fits count
  · rw [if_pos hfits]
    exact ends_pure (.inr ⟨⟨_, rfl⟩, hrefl.extended hs⟩)
  rw [if_neg hfits]
  have hunused : Unused V₀ h.brk 0 count := .of_fits hbrk (not_not.mp hfits) hu
  have hmark := markFrom_ends (i := 0) ht (fun f hf => (hs.free.frames f hf).ne_null)
    (by rwa [Nat.zero_add]) hs ((Extends.refl ht).mono nofun nofun)
  rw [Nat.zero_add] at hmark
  refine Ends.bind hmark ?_
  rintro r s' ⟨V', hs', (⟨rfl, h'⟩ | ⟨⟨e, rfl⟩, h'⟩)⟩
  -- every page got its mark, and only now the break moves
  · refine (ends_check_bind (pageFrom_eq (not_not.mp hfits).2.1)).mpr ?_
    exact ends_modify_bind.mpr (ends_pure (.inl ⟨rfl, hunused, h'.extended (hs'.emit rfl)⟩))
  -- some page got none, and the marks before it are taken back
  · exact ends_pure (.inr ⟨⟨_, rfl⟩, h'.extended hs'⟩)

end Loops

/-! ### No trace -/

/-- The tables below `root` are distinct, none but the root is empty, and intermediate entries that are not
present are zero. -/
structure Tidy (s : Store) (root : PhysAddr) : Prop where
  distinct : DistinctTables s root
  clean : ∀ l < Level.root, ∀ n, ¬ (⟨wordAt s root (l + 1) n⟩ : Entry).Present → wordAt s root (l + 1) n = 0
  used : ∀ l < Level.root, ∀ n t, tableAt s root l n = some t → ¬ TableEmpty s.ram t

lemma Shows.tidy {s : Store} {V : View} (h : Shows s V) (ht : Tidy s V.root) : V.Tidy := by
  refine ⟨fun l hl n hp => ?_, fun l hl n he => ?_⟩
  · have hw := (h.table?_and_word hl n).2
    rw [← hw] at hp ⊢
    exact ht.clean l hl n hp
  · obtain ⟨t, htt⟩ := Option.ne_none_iff_exists'.mp he.1
    refine ht.used l hl n t ((h.table?_and_word (Nat.le_of_lt hl) n).1.trans htt) fun i hi => ?_
    exact (h.words (Nat.le_of_lt hl) htt i hi).trans (he.2 i hi)

lemma Extends.sameTables {V₀ V : View} {s s' : Store} (h : Extends V₀ V (fun _ => False) fun _ => False)
    (hs : Shows s V₀) (hs' : Shows s' V) : SameTables s s' V₀.root :=
  hs.sameTables hs' h.mapped h.root (fun _ hl => h.word_eq hs hl)
    ((List.perm_ext_iff_of_nodup hs'.free.nodup hs.free.nodup).mpr (h.mem_free hs)).length_eq

/-- **A reservation that fails leaves no trace**: the heap, the number of free frames, the tables with their
contents and all translations are what they were before. -/
theorem failed_reservation_leaves_no_trace {s : Store} {root : PhysAddr} {fs : List PhysAddr} {h : Heap}
    (below : s.frames.mapped.stop.toNat ≤ 2 ^ 52) (aligned : root.PageAligned) (tidy : Tidy s root)
    (free : FreeFrames s fs) (apart : ∀ l ≤ Level.root, ∀ n t, tableAt s root l n = some t → t ∉ fs)
    (brk : h.brk.PageAligned) (unused : ∀ v, h.brk ≤ v → v < h.stop → wordAt s root 0 (index 0 v) = 0)
    (count : Nat) :
    Ends (tryReserve root h count) s fun r s' => ∀ e, r.1 = .error e → r.2 = h ∧ SameTables s s' root := by
  have hs : Shows s (.of s root fs) := .of below aligned free tidy.distinct fun hl ht => apart _ hl _ _ ht
  refine (hs.tryReserve_ends (hs.tidy tidy) brk unused count).mono ?_
  rintro _ s' (⟨rfl, -, -⟩ | ⟨⟨e, rfl⟩, h'⟩)
  · exact nofun
  · obtain ⟨V', hs', h'⟩ := h'.bare
    exact fun _ _ => ⟨rfl, h'.sameTables hs hs'⟩

lemma tidy_ladder : Tidy ladder ⟨0x1000⟩ := by
  refine ⟨orderly_ladder.distinct, fun l hl n => ?_, fun l hl n t ht he => ?_⟩
  · rw [wordAt_ladder hl]
    split
    · exact fun hp => absurd (linkTo_present _) hp
    · exact fun _ => rfl
  · rw [tableAt_ladder (Nat.le_of_lt hl)] at ht
    split at ht
    · cases ht
      have hslot := (slot_ladder (Nat.le_of_lt hl) (by decide)).symm.trans (he 0 (by decide))
      unfold Level.root at hl
      obtain rfl | rfl | rfl : l = 0 ∨ l = 1 ∨ l = 2 := by omega
      all_goals revert hslot; decide
    · cases ht

lemma unused_ladder {v : VirtAddr} (hv : pageSize ≤ v.toNat) (hlow : v.toNat < 2 ^ 47) :
    wordAt ladder ⟨0x1000⟩ 0 (index 0 v) = 0 := by
  rw [wordAt_ladder (Nat.zero_le _), if_neg]
  rw [index_zero_of_lt hlow]
  unfold Addr.page pageSize at *
  omega

/-- Between two tables of the highest level below the root: the first page is marked, with two tables made for
it, and of the three tables for the second one only two find a frame. -/
theorem failed_reservation_leaves_no_trace_second_page : ∃ h' s',
    (tryReserve ⟨0x1000⟩ ⟨⟨0x7FFFFFF000⟩, ⟨0x8000001000⟩⟩ 1).run' ladder = some (.ok ⟨0x7FFFFFF000⟩, h') ∧
      tryReserve ⟨0x1000⟩ ⟨⟨0x7FFFFFF000⟩, ⟨0x8000001000⟩⟩ 2 ladder =
        .ok (.error (.map .outOfMemory), ⟨⟨0x7FFFFFF000⟩, ⟨0x8000001000⟩⟩) s' ∧
      SameTables ladder s' ⟨0x1000⟩ := by
  have hfirst : (tryReserve ⟨0x1000⟩ ⟨⟨0x7FFFFFF000⟩, ⟨0x8000001000⟩⟩ 1).run' ladder =
      some (.ok ⟨0x7FFFFFF000⟩, ⟨⟨0x8000000000⟩, ⟨0x8000001000⟩⟩) := by decide +kernel
  have hfails : (tryReserve ⟨0x1000⟩ ⟨⟨0x7FFFFFF000⟩, ⟨0x8000001000⟩⟩ 2).run' ladder =
      some (.error (.map .outOfMemory), ⟨⟨0x7FFFFFF000⟩, ⟨0x8000001000⟩⟩) := by decide +kernel
  obtain ⟨s', hrun⟩ := eq_ok_of_run' hfails
  have hunused : ∀ v : VirtAddr, ⟨0x7FFFFFF000⟩ ≤ v → v < ⟨0x8000001000⟩ →
      wordAt ladder ⟨0x1000⟩ 0 (index 0 v) = 0 := by
    intro v hv hlt
    have hfrom : 0x7FFFFFF000 ≤ v.toNat := hv
    have hto : v.toNat < 0x8000001000 := hlt
    exact unused_ladder (by unfold pageSize; omega) (by omega)
  have hsame := (failed_reservation_leaves_no_trace (h := ⟨⟨0x7FFFFFF000⟩, ⟨0x8000001000⟩⟩) orderly_ladder.below
    orderly_ladder.aligned tidy_ladder orderly_ladder.free orderly_ladder.apart (by decide) hunused 2).elim hrun
  exact ⟨_, s', hfirst, hrun, (hsame _ rfl).2⟩

end Nucleus.Paging
