import Nucleus.Proofs.Memory.Coverage

/-!
Unusable memory in a table of regions. A region that records unusable memory stays in the table whatever is
entered or carved later, and no page of it becomes available again. Entering unusable memory takes its pages
away in any case; it is recorded unless the table is full, which is reported.
-/

namespace Nucleus.Memory.RegionTable

variable {t t' : RegionTable} {s : Span}

/-- The pages of `s` are recorded as unusable, and none of them is available. -/
structure Blocked (t : RegionTable) (s : Span) : Prop where
  recorded : ∃ r ∈ t.regions, ¬ r.Available ∧ r.span = s
  taken : ∀ p ∈ s, ¬ t.IsAvailable p

lemma Blocked.congr (h : t.Blocked s) (he : t'.regions = t.regions) : t'.Blocked s := by
  obtain ⟨⟨r, hr, hkind, hspan⟩, htaken⟩ := h
  refine ⟨⟨r, he ▸ hr, hkind, hspan⟩, fun p hp => ?_⟩
  rw [isAvailable_iff_hits, he, ← isAvailable_iff_hits]
  exact htaken p hp

lemma Blocked.push (h : t.Blocked s) {r : Region} (hr : ∀ p ∈ s, r.Available → p ∉ r.span)
    (hpush : t.push? r = some t') : t'.Blocked s := by
  have hregions := push?_eq_some hpush
  obtain ⟨⟨u, hu, hkind, hspan⟩, htaken⟩ := h
  refine ⟨⟨u, ?_, hkind, hspan⟩, ?_⟩
  · rw [hregions]
    exact List.mem_append_left _ hu
  · rintro p hp ⟨v, hv, ha, hpv⟩
    rw [hregions] at hv
    rcases List.mem_append.mp hv with hv | hv
    · exact htaken p hp ⟨v, hv, ha, hpv⟩
    · cases List.mem_singleton.mp hv
      exact hr p hp ha hpv

/-! ### Available memory comes later -/

/-- Filling goes around what is recorded. -/
lemma Blocked.fill (h : t.Blocked s) (cursor last : Nat) (added : Bool) :
    (t.fill cursor last added).table.Blocked s := by
  -- a gap holds no page of a region, available or not
  have hgap : ∀ {t t' : RegionTable} {cursor : Nat}, t.Blocked s →
      t.push? ⟨⟨cursor, (t.gap cursor last).stop⟩, .available⟩ = some t' → t'.Blocked s := by
    intro t t' cursor h hpush
    refine h.push (fun p hp _ hin => ?_) hpush
    obtain ⟨r, hr, -, rfl⟩ := h.recorded
    exact (t.gap_free hin.1 hin.2).2 r hr hp
  fun_induction RegionTable.fill t cursor last added with
  | case1 | case5 => exact h
  | case2 t cursor added hl stop hs t' hpush f hf => exact hgap h hpush
  | case3 t cursor added hl stop hs t' hpush t'' hcount ih => exact ih ((hgap h hpush).congr (regions_countPages hcount))
  | case4 t cursor added hl stop hs ih => exact ih h

lemma Blocked.addAvailable (h : t.Blocked s) (base length : UInt64) : (t.addAvailable base length).table.Blocked s :=
  h.fill ..

/-! ### Pages are taken away -/

section Leaves

variable {cut : Span} {keep : Bool} {room : Prop} {slots : Nat} {r : Region} {rs ks ps : List Region} {n : Nat}
  {ns : List RegionNotice} {c : Carving}

lemma Leaves.kept (h : Leaves cut keep room r ks ps n ns) (hr : ¬ r.Available) : r ∈ ks := by
  cases h with
  | apart => exact List.mem_singleton_self r
  | retyped available | dropped available | rear available | front available | split available | givenUp available =>
    exact absurd available hr

lemma Carves.kept (h : Carves cut keep slots rs c) (hr : ¬ r.Available) (hm : r ∈ rs) : r ∈ c.kept := by
  induction h with
  | nil => cases hm
  | snoc _ hl ih =>
    rcases List.mem_append.mp hm with hm | hm
    · exact List.mem_append_left _ (ih hm)
    · cases List.mem_singleton.mp hm
      exact List.mem_append_right _ (hl.kept hr)

end Leaves

lemma Blocked.carve (h : t.Blocked s) (ht : t.Sound) {cut : Span} (hcut : cut.first < cut.last) (keep : Bool) :
    (t.carve cut keep).table.Blocked s := by
  refine ⟨?_, fun p hp ha => h.taken p hp ((ht.carve hcut keep).2 p ha).1⟩
  obtain ⟨r, hr, hkind, hspan⟩ := h.recorded
  obtain ⟨c, hc, heq⟩ := carve_carves hcut ht.proper keep
  rw [heq]
  exact ⟨r, List.mem_append_left _ (hc.kept hkind hr), hkind, hspan⟩

lemma Blocked.reserve (h : t.Blocked s) (ht : t.Sound) (start stop : PhysAddr) :
    (t.reserve start stop).table.Blocked s := by
  have hr := t.reserve_takes start stop
  generalize t.reserve start stop = c at hr
  cases hr with
  | nothing => exact h
  | overflow pages | counted pages => exact (h.carve ht pages true).congr rfl

/-! ### Unusable memory is entered -/

variable {base length : UInt64} {kind : RegionKind}

lemma Blocked.addUnavailable (h : t.Blocked s) (ht : t.Sound) (hk : kind ≠ .available) :
    (t.addUnavailable base length kind).table.Blocked s := by
  have hr := t.addUnavailable_records base length kind
  generalize t.addUnavailable base length kind = c at hr
  cases hr with
  | nothing => exact h
  | uncounted pages => exact h.carve ht (Nat.lt_of_not_le pages) false
  | ignored pages => exact (h.carve ht (Nat.lt_of_not_le pages) false).congr rfl
  | recorded pages _ slot =>
    have hpush : (t.carve (Span.around base length) false).table.push? ⟨Span.around base length, kind⟩ = _ :=
      if_neg slot
    have hnone : ∀ p ∈ s, (⟨Span.around base length, kind⟩ : Region).Available → p ∉ Span.around base length :=
      fun _ _ ha => absurd ha hk
    exact ((h.carve ht (Nat.lt_of_not_le pages) false).push hnone hpush).congr rfl

/-- **Unusable memory takes its pages away**, and is recorded unless the table is full. -/
lemma Sound.blocked_or_ignored (h : t.Sound) (hk : kind ≠ .available) (he : ¬ (Span.around base length).IsEmpty)
    {a : Except RegionError Bool} (ha : (t.addUnavailable base length kind).answer = .ok a) :
    (∀ p ∈ Span.around base length, ¬ (t.addUnavailable base length kind).table.IsAvailable p) ∧
      ((t.addUnavailable base length kind).table.Blocked (Span.around base length) ∨
        .ignored (Span.around base length) ∈ (t.addUnavailable base length kind).notices) := by
  have htaken := fun p hp hav => ((h.carve (Nat.lt_of_not_le he) false).2 p hav).2 hp
  have hr := t.addUnavailable_records base length kind
  generalize t.addUnavailable base length kind = c at hr ha
  cases hr with
  | nothing empty => exact absurd empty he
  | uncounted => cases ha
  | ignored => exact ⟨htaken, .inr (List.mem_append_right _ (List.mem_singleton_self _))⟩
  | recorded =>
    have hnew : ∀ p ∈ Span.around base length, ¬ ∃ r ∈ (t.carve (Span.around base length) false).table.regions ++
        [⟨Span.around base length, kind⟩], r.Available ∧ p ∈ r.span := by
      rintro p hp ⟨r, hr, hav, hin⟩
      rcases List.mem_append.mp hr with hr | hr
      · exact htaken p hp ⟨r, hr, hav, hin⟩
      · cases List.mem_singleton.mp hr
        exact hk hav
    exact ⟨hnew, .inl ⟨⟨_, List.mem_append_right _ (List.mem_singleton_self _), hk, rfl⟩, hnew⟩⟩

end Nucleus.Memory.RegionTable
