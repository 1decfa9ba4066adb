import Mathlib.Algebra.BigOperators.Group.Finset.Basic
import Mathlib.Algebra.Order.BigOperators.Group.Finset
import Mathlib.Data.Set.Card
import Mathlib.Order.Interval.Finset.Nat
import Nucleus.Proofs.Memory.Accounting

/-!
What the operations on a table of regions do to its pages as long as no slot is missing, which they report. Then
the order in which memory is entered leaves no trace: a page is available if it was entered as available, and not
as unusable, and was not reserved.
-/

namespace Nucleus.Memory.RegionTable

/-- The page `p` lies in a region that is not available. -/
def IsBlocked (t : RegionTable) (p : Nat) : Prop := ∃ r ∈ t.regions, ¬ r.Available ∧ p ∈ r.span

variable {t t' : RegionTable} {p : Nat}

lemma isBlocked_iff_blocks : t.IsBlocked p ↔ 0 < blocks p t.regions := blocks_pos.symm

lemma Balanced.not_isBlocked (h : t.Balanced) (hp : t.IsAvailable p) : ¬ t.IsBlocked p := by
  rw [isAvailable_iff_hits] at hp
  rw [isBlocked_iff_blocks]
  have := h.alone p hp
  omega

/-! ### Counting pages -/

lemma card_span {s : Span} {N : Nat} (h : s.last ≤ N) : ((Finset.range N).filter (· ∈ s)).card = s.pages := by
  have hico : (Finset.range N).filter (· ∈ s) = Finset.Ico s.first s.last := by
    ext p
    simp only [Finset.mem_filter, Finset.mem_range, Finset.mem_Ico, Span.mem_def]
    omega
  rw [hico, Nat.card_Ico]
  rfl

lemma sum_hits {rs : List Region} {N : Nat} (h : ∀ r ∈ rs, r.span.last ≤ N) :
    ∑ p ∈ Finset.range N, hits p rs = freeOf rs := by
  induction rs with
  | nil => simp
  | cons r rs ih =>
    have hrest := ih fun s hs => h s (List.mem_cons_of_mem _ hs)
    simp only [hits_cons, Finset.sum_add_distrib, hrest, freeOf_cons]
    by_cases ha : r.Available
    · simp only [ha, true_and, if_true, ← Finset.card_filter, card_span (h r (List.mem_cons_self ..))]
      omega
    · simp [ha]

/-- **The free pages are the available pages.** -/
lemma Sound.encard_available (h : t.Sound) (hs : t.InShape) :
    {p | t.IsAvailable p}.encard = t.freePages := by
  have hfilter : {p | t.IsAvailable p} = ((Finset.range Span.limit).filter (t.IsAvailable ·) : Finset Nat) := by
    ext p
    simp only [Set.mem_ofPred_eq, Finset.coe_filter, Finset.mem_range]
    refine ⟨fun hp => ⟨?_, hp⟩, fun hp => hp.2⟩
    obtain ⟨r, hr, -, hpr⟩ := hp
    exact Nat.lt_of_lt_of_le hpr.2 (hs.within r hr)
  rw [hfilter, Set.encard_coe_eq_coe_finsetCard, Finset.card_filter, freePages_eq, ← sum_hits hs.within]
  refine congrArg _ (Finset.sum_congr rfl fun p _ => ?_)
  have := h.single p
  simp only [isAvailable_iff_hits]
  split_ifs <;> omega

lemma Sound.freePages_le (h : t.Sound) (hs : t.InShape) : t.freePages ≤ Span.limit := by
  rw [freePages_eq, ← sum_hits hs.within]
  refine Nat.le_trans (Finset.sum_le_card_nsmul _ _ 1 fun p _ => h.single p) ?_
  simp

/-! ### Carving -/

section Leaves

variable {cut : Span} {keep : Bool} {room : Prop} {slots : Nat} {r : Region} {rs ks ps : List Region} {n : Nat}
  {c : Carving}

/-- Without a notice, exactly the pages of the cut are lost. -/
lemma Leaves.hits_eq (h : Leaves cut keep room r ks ps n []) (hcut : cut.first < cut.last) (p : Nat) :
    hits p (ks ++ ps) = if p ∈ cut then 0 else hits p [r] := by
  cases h with
  | apart away =>
    have := (Leaves.apart away : Leaves cut keep room r [r] [] 0 []).hits_le hcut p
    split_ifs at this ⊢
    · exact Nat.le_zero.mp this
    · rw [List.append_nil]
  | retyped available | dropped available | rear available | front available | split available =>
    simp only [List.singleton_append, List.append_nil, hits_cons, hits_nil, available_mk, available, Span.mem_def,
      true_and, reduceCtorEq, false_and, if_false]
    split_ifs <;> omega

lemma Leaves.blocks_eq (h : Leaves cut false room r ks ps n []) (p : Nat) : blocks p (ks ++ ps) = blocks p [r] := by
  cases h with
  | apart => rw [List.append_nil]
  | retyped _ _ _ keeps => cases keeps
  | dropped available | rear available | front available | split available => simp [available]

lemma Carves.hits_eq (h : Carves cut keep slots rs c) (hn : c.notices = []) (hcut : cut.first < cut.last) (p : Nat) :
    hits p (c.kept ++ c.pieces) = if p ∈ cut then 0 else hits p rs := by
  induction h with
  | nil => simp
  | snoc _ hl ih =>
    obtain ⟨hn', rfl⟩ := List.append_eq_nil_iff.mp hn
    have h₁ := ih hn'
    have h₂ := hl.hits_eq hcut p
    simp only [Carving.extend, hits_append] at h₁ h₂ ⊢
    split_ifs at h₁ h₂ ⊢ <;> omega

lemma Carves.blocks_eq (h : Carves cut false slots rs c) (hn : c.notices = []) (p : Nat) :
    blocks p (c.kept ++ c.pieces) = blocks p rs := by
  induction h with
  | nil => rfl
  | snoc _ hl ih =>
    obtain ⟨hn', rfl⟩ := List.append_eq_nil_iff.mp hn
    have h₁ := ih hn'
    have h₂ := hl.blocks_eq p
    simp only [Carving.extend, blocks_append] at h₁ h₂ ⊢
    omega

lemma InShape.isAvailable_carve (ht : t.InShape) (hcut : cut.first < cut.last) (hn : (t.carve cut keep).notices = []) :
    (t.carve cut keep).table.IsAvailable p ↔ t.IsAvailable p ∧ p ∉ cut := by
  obtain ⟨c, hc, heq⟩ := carve_carves hcut ht.proper keep
  rw [heq] at hn ⊢
  rw [isAvailable_iff_hits, isAvailable_iff_hits, hc.hits_eq hn hcut p]
  split_ifs with hp <;> simp [hp]

lemma InShape.isBlocked_carve (ht : t.InShape) (hcut : cut.first < cut.last) (hn : (t.carve cut false).notices = []) :
    (t.carve cut false).table.IsBlocked p ↔ t.IsBlocked p := by
  obtain ⟨c, hc, heq⟩ := carve_carves hcut ht.proper false
  rw [heq] at hn ⊢
  rw [isBlocked_iff_blocks, isBlocked_iff_blocks, hc.blocks_eq hn p]

end Leaves

/-! ### Entering available memory -/

section Fill

variable {cursor last : Nat} {added : Bool} {a : Except RegionError Bool}

/-- The pages that the search jumps over lie in a region. -/
lemma gap_covers (t : RegionTable) (hp : cursor ≤ p) (hl : p < last) (hs : (t.gap cursor last).stop ≤ p)
    (hn : p < (t.gap cursor last).next) : ∃ r ∈ t.regions, p ∈ r.span := by
  unfold gap at hs hn
  split at hs
  · dsimp only at hs
    omega
  next r hr =>
  simp only [hr] at hn
  refine ⟨r, (List.mem_filter.mp (lowest_mem hr)).1, ?_, hn⟩
  dsimp only at hs
  omega

lemma fill_mono (h : (t.fill cursor last added).answer = .ok a) (p : Nat) :
    hits p t.regions ≤ hits p (t.fill cursor last added).table.regions ∧
      blocks p (t.fill cursor last added).table.regions = blocks p t.regions := by
  refine fill_keeps (P := fun u => hits p t.regions ≤ hits p u.regions ∧ blocks p u.regions = blocks p t.regions)
    (fun hg hu => ?_) ⟨Nat.le_refl _, rfl⟩ h
  obtain ⟨hhits, hblocks⟩ := hg.hits_eq p
  exact ⟨Nat.le_trans hu.1 hhits, hblocks.trans hu.2⟩

lemma fill_covers (h : (t.fill cursor last added).answer = .ok a) (hn : (t.fill cursor last added).notices = [])
    (hp : cursor ≤ p) (hl : p < last) : 0 < hits p (t.fill cursor last added).table.regions +
      blocks p (t.fill cursor last added).table.regions := by
  fun_induction fill t cursor last added with
  | case1 => cases hn
  | case2 => cases h
  | case3 t cursor added hc stop hs t' hpush t'' hcount ih =>
    rcases Nat.lt_or_ge p (t.gap cursor last).next with hnext | hnext
    · obtain ⟨hhits, hblocks⟩ := fill_mono h p
      have hcovers : 0 < hits p t''.regions + blocks p t''.regions := by
        rw [regions_countPages hcount, push?_eq_some hpush]
        rcases Nat.lt_or_ge p stop with hstop | hstop
        · -- in the piece that was added
          exact covers_pos (List.mem_append_right _ (List.mem_singleton_self _)) ⟨hp, hstop⟩
        · -- in the region that ended the gap
          obtain ⟨r, hr, hpr⟩ := t.gap_covers hp hl hstop hnext
          exact covers_pos (List.mem_append_left _ hr) hpr
      omega
    · exact ih h hn hnext
  | case4 t cursor added hc stop hs ih =>
    rcases Nat.lt_or_ge p (t.gap cursor last).next with hnext | hnext
    · obtain ⟨hhits, hblocks⟩ := fill_mono h p
      obtain ⟨r, hr, hpr⟩ := t.gap_covers hp hl (by omega) hnext
      have := covers_pos hr hpr
      omega
    · exact ih h hn hnext
  | case5 => omega

/-- **No overflow**: as long as nothing is reserved, the pages that are entered can be counted. -/
lemma fill_ok (ht : t.Balanced) (hs : t.InShape) (hr : t.reservedPages = 0) (hl : last ≤ Span.limit) (cursor : Nat)
    (added : Bool) : ∃ a, (t.fill cursor last added).answer = .ok a := by
  fun_induction fill t cursor last added with
  | case1 | case5 => exact ⟨_, rfl⟩
  | case2 t cursor added hc stop hgap t' hpush f hf =>
    -- the total would be the number of free pages, of which there are not too many
    have hg := gains_push hgap hpush
    have hsound := (hg.balanced ht).sound (hg.inShape hl hs)
    have hle := hsound.freePages_le (hg.inShape hl hs)
    have htotal := (hg.balanced ht).total
    have hreserved := hg.reserved_eq.trans hr
    dsimp only at htotal hreserved
    unfold countPages at hf
    split at hf
    · cases hf
    · unfold Span.limit pageSize at *
      omega
  | case3 t cursor added hc stop hgap t' hpush t'' hcount ih =>
    have hg := gains_push hgap hpush
    rw [← countPages_eq hcount] at hg
    exact ih (hg.balanced ht) (hg.inShape hl hs) (hg.reserved_eq.trans hr)
  | case4 t cursor added hc stop hgap ih => exact ih ht hs hr

end Fill

/-! ### Operations -/

section Operations

variable {base length : UInt64} {kind : RegionKind} {a : Except RegionError Bool}

/-- **Available memory that is entered** becomes available except where a region is in the way. -/
lemma Balanced.isAvailable_addAvailable (ht : t.Balanced) (hs : t.InShape)
    (h : (t.addAvailable base length).answer = .ok a) (hn : (t.addAvailable base length).notices = []) :
    (t.addAvailable base length).table.IsAvailable p ↔
      t.IsAvailable p ∨ p ∈ Span.within base length ∧ ¬ t.IsBlocked p := by
  have hblocks := (fill_mono h p).2
  have hafter := ht.addAvailable h
  constructor
  · intro hp
    refine (((ht.sound hs).addAvailable base length).2 p hp).imp_right fun hin => ⟨hin, fun hb => ?_⟩
    refine hafter.not_isBlocked hp ?_
    rw [isBlocked_iff_blocks] at hb ⊢
    exact hblocks.symm ▸ hb
  · rintro (hp | ⟨hin, hb⟩) <;> rw [isAvailable_iff_hits] at *
    · exact Nat.lt_of_lt_of_le hp (fill_mono h p).1
    · rw [isBlocked_iff_blocks] at hb
      have hcovers := fill_covers h hn hin.1 hin.2
      show 0 < hits p (t.fill _ _ _).table.regions
      omega

lemma isBlocked_addAvailable (h : (t.addAvailable base length).answer = .ok a) :
    (t.addAvailable base length).table.IsBlocked p ↔ t.IsBlocked p := by
  rw [isBlocked_iff_blocks, isBlocked_iff_blocks]
  exact (fill_mono h p).2 ▸ Iff.rfl

/-- **Unusable memory that is entered** takes its pages away, and they are blocked from then on. -/
lemma InShape.addUnavailable_iff (ht : t.InShape) (hk : kind ≠ .available)
    (h : (t.addUnavailable base length kind).answer = .ok a) (hn : (t.addUnavailable base length kind).notices = []) :
    ((t.addUnavailable base length kind).table.IsAvailable p ↔ t.IsAvailable p ∧ p ∉ Span.around base length) ∧
      ((t.addUnavailable base length kind).table.IsBlocked p ↔ t.IsBlocked p ∨ p ∈ Span.around base length) := by
  have hr := t.addUnavailable_records base length kind
  generalize t.addUnavailable base length kind = c at hr h hn
  cases hr with
  | nothing empty =>
    simp [not_mem_of_isEmpty empty p]
  | uncounted => cases h
  | ignored => exact absurd hn (by simp)
  | recorded pages =>
    have hcut := Nat.lt_of_not_le pages
    have havailable := ht.isAvailable_carve hcut hn (p := p)
    have hblocked := ht.isBlocked_carve hcut hn (p := p)
    rw [isAvailable_iff_hits, isBlocked_iff_blocks] at *
    rw [← havailable, ← hblocked, hits_append, blocks_append]
    constructor
    · simp [hk]
    · by_cases hp : p ∈ Span.around base length <;> simp [hk, hp]

/-- **Reserving** takes the pages of the range. -/
lemma InShape.isAvailable_reserve (ht : t.InShape) {start stop : PhysAddr} (hn : (t.reserve start stop).notices = []) :
    (t.reserve start stop).table.IsAvailable p ↔ t.IsAvailable p ∧ p ∉ Span.outer start.toNat stop.toNat := by
  have hr := t.reserve_takes start stop
  generalize t.reserve start stop = c at hr hn
  cases hr with
  | nothing empty => simp [not_mem_of_isEmpty empty p]
  | overflow pages | counted pages => exact ht.isAvailable_carve pages hn

lemma totalPages_reserve (t : RegionTable) (start stop : PhysAddr) :
    (t.reserve start stop).table.totalPages = t.totalPages := by
  have hr := t.reserve_takes start stop
  generalize t.reserve start stop = c at hr
  cases hr <;> rfl

end Operations

end Nucleus.Memory.RegionTable
