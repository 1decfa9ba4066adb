import Mathlib.Algebra.Group.Nat.Defs
import Mathlib.Tactic.Common
import Nucleus.Proofs.Memory.Carving

/-!
Which pages a table of regions makes available, page by page. Available memory is entered where no region lies
and carving only takes pages away, so a page lies in one available region at most, and it never becomes
available without an entry of the memory map around it.
-/

namespace Nucleus.Memory

@[simp] lemma available_mk {s : Span} {k : RegionKind} : (⟨s, k⟩ : Region).Available ↔ k = .available := Iff.rfl

/-- How many available regions contain the page `p`. -/
def hits (p : Nat) (rs : List Region) : Nat := rs.countP fun r => r.Available ∧ p ∈ r.span

section Hits

variable {p : Nat} {rs : List Region}

@[simp] lemma hits_nil : hits p [] = 0 := rfl

@[simp] lemma hits_append (rs ss : List Region) : hits p (rs ++ ss) = hits p rs + hits p ss :=
  List.countP_append

@[simp] lemma hits_cons (r : Region) (rs : List Region) :
    hits p (r :: rs) = hits p rs + if r.Available ∧ p ∈ r.span then 1 else 0 := by
  unfold hits
  rw [List.countP_cons]
  simp only [decide_eq_true_eq]

lemma hits_pos : 0 < hits p rs ↔ ∃ r ∈ rs, r.Available ∧ p ∈ r.span := by
  unfold hits
  rw [List.countP_pos_iff]
  simp only [decide_eq_true_eq]

lemma hits_available {r : Region} (h : r.Available) : hits p [r] = if p ∈ r.span then 1 else 0 := by
  simp [h]

lemma isAvailable_iff_hits {t : RegionTable} : t.IsAvailable p ↔ 0 < hits p t.regions := hits_pos.symm

end Hits

def Proper (rs : List Region) : Prop := ∀ r ∈ rs, r.span.first < r.span.last

lemma Proper.append {rs ss : List Region} (hr : Proper rs) (hs : Proper ss) : Proper (rs ++ ss) := by
  intro r hm
  exact (List.mem_append.mp hm).elim (hr r) (hs r)

lemma proper_singleton {r : Region} (h : r.span.first < r.span.last) : Proper [r] := by
  intro s hs
  rwa [List.mem_singleton.mp hs]

/-- How many regions that are not available contain the page `p`. -/
def blocks (p : Nat) (rs : List Region) : Nat := rs.countP fun r => ¬ r.Available ∧ p ∈ r.span

section Blocks

variable {p : Nat}

@[simp] lemma blocks_nil : blocks p [] = 0 := rfl

@[simp] lemma blocks_append (rs ss : List Region) : blocks p (rs ++ ss) = blocks p rs + blocks p ss :=
  List.countP_append

@[simp] lemma blocks_cons (r : Region) (rs : List Region) :
    blocks p (r :: rs) = blocks p rs + if ¬ r.Available ∧ p ∈ r.span then 1 else 0 := by
  unfold blocks
  rw [List.countP_cons]
  simp only [decide_eq_true_eq]

lemma blocks_pos {rs : List Region} : 0 < blocks p rs ↔ ∃ r ∈ rs, ¬ r.Available ∧ p ∈ r.span := by
  unfold blocks
  rw [List.countP_pos_iff]
  simp only [decide_eq_true_eq]

lemma covers_pos {rs : List Region} {r : Region} (hr : r ∈ rs) (hp : p ∈ r.span) : 0 < hits p rs + blocks p rs := by
  by_cases ha : r.Available
  · have := hits_pos.mpr ⟨r, hr, ha, hp⟩
    omega
  · have := blocks_pos.mpr ⟨r, hr, ha, hp⟩
    omega

end Blocks

/-! ### Carving -/

namespace RegionTable

section Leaves

variable {cut : Span} {keep : Bool} {room : Prop} {r : Region} {ks ps : List Region} {n : Nat}
  {ns : List RegionNotice}

lemma Leaves.proper (h : Leaves cut keep room r ks ps n ns) (hr : r.span.first < r.span.last) :
    Proper (ks ++ ps) := by
  cases h with
  | dropped => exact nofun
  | split _ first last =>
    exact .append (proper_singleton first) (proper_singleton last)
  | apart | retyped | givenUp => exact proper_singleton hr
  | rear _ _ _ last => exact proper_singleton last
  | front _ first => exact proper_singleton first

/-- No page of a region is in the cut, or available in what is left, unless it was before. -/
lemma Leaves.hits_le (h : Leaves cut keep room r ks ps n ns) (hcut : cut.first < cut.last) (p : Nat) :
    hits p (ks ++ ps) ≤ if p ∈ cut then 0 else hits p [r] := by
  cases h with
  | apart away =>
    split
    · next hp =>
      have hmiss : ¬ (r.Available ∧ p ∈ r.span) := fun ⟨ha, hpr⟩ =>
        away ⟨ha, Nat.lt_of_le_of_lt hp.1 hpr.2, Nat.lt_of_le_of_lt hpr.1 hp.2⟩
      simp [hmiss]
    · exact Nat.le_refl _
  | retyped | dropped | givenUp => simp
  | rear available | front available | split available =>
    simp only [List.singleton_append, List.append_nil, hits_cons, hits_nil, available_mk, available, Span.mem_def,
      true_and]
    split_ifs <;> omega

lemma Carves.hits_le {slots : Nat} {rs : List Region} {c : Carving} (h : Carves cut keep slots rs c)
    (hcut : cut.first < cut.last) (hr : Proper rs) :
    Proper (c.kept ++ c.pieces) ∧ ∀ p, hits p (c.kept ++ c.pieces) ≤ if p ∈ cut then 0 else hits p rs := by
  induction h with
  | nil => exact ⟨nofun, fun p => Nat.zero_le _⟩
  | @snoc rs c r ks ps n ns hc hl ih =>
    obtain ⟨hproper, hle⟩ := ih fun s hs => hr s (List.mem_append_left _ hs)
    have hleft := hl.proper (hr r (by simp))
    refine ⟨fun s hs => ?_, fun p => ?_⟩
    · have hs' : s ∈ c.kept ++ c.pieces ∨ s ∈ ks ++ ps := by
        simp only [Carving.extend, List.mem_append] at hs ⊢
        tauto
      exact hs'.elim (hproper s) (hleft s)
    · have h₁ := hle p
      have h₂ := hl.hits_le hcut p
      simp only [Carving.extend, hits_append] at h₁ h₂ ⊢
      split_ifs at h₁ h₂ ⊢ <;> omega

end Leaves

/-- **Carving** makes no page available, and takes all pages of the cut. -/
lemma hits_carve {t : RegionTable} (ht : Proper t.regions) {cut : Span} (hcut : cut.first < cut.last) (keep : Bool) :
    Proper (t.carve cut keep).table.regions ∧
      ∀ p, hits p (t.carve cut keep).table.regions ≤ if p ∈ cut then 0 else hits p t.regions := by
  obtain ⟨c, hc, heq⟩ := carve_carves hcut ht keep
  rw [heq]
  exact hc.hits_le hcut ht

/-! ### Sound tables -/

/-- Every page lies in one available region at most, and no region is empty. -/
structure Sound (t : RegionTable) : Prop where
  proper : Proper t.regions
  single : ∀ p, hits p t.regions ≤ 1

lemma Sound.congr {t t' : RegionTable} (h : t.Sound) (he : t'.regions = t.regions) : t'.Sound :=
  ⟨he ▸ h.proper, fun p => he ▸ h.single p⟩

lemma sound_empty : empty.Sound := ⟨nofun, fun _ => Nat.zero_le 1⟩

lemma push?_eq_some {t t' : RegionTable} {r : Region} (h : t.push? r = some t') : t'.regions = t.regions ++ [r] := by
  unfold push? at h
  split at h
  · cases h
  · cases h
    rfl

lemma regions_countPages {t t' : RegionTable} {n : Nat} (h : t.countPages n = .ok t') : t'.regions = t.regions := by
  unfold countPages at h
  split at h <;> cases h
  rfl

/-! ### Entering available memory -/

lemma lowest_eq_none {rs : List Region} (h : lowest rs = none) : rs = [] := by
  cases rs with
  | nil => rfl
  | cons r rs =>
    unfold lowest at h
    split at h
    · cases h
    · split at h <;> cases h

lemma lowest_le {rs : List Region} {r : Region} (h : lowest rs = some r) :
    ∀ s ∈ rs, r.span.first ≤ s.span.first := by
  induction rs generalizing r with
  | nil => cases h
  | cons a rs ih =>
    unfold lowest at h
    split at h
    · next hn =>
      cases h
      rw [lowest_eq_none hn]
      simp
    · next b hb =>
      have hle := ih hb
      intro s hs
      split at h <;> cases h <;> rcases List.mem_cons.mp hs with rfl | hs
      · omega
      · exact hle s hs
      · exact Nat.le_refl _
      · have := hle s hs
        omega

lemma gap_free (t : RegionTable) {cursor last p : Nat} (hp : cursor ≤ p) (hs : p < (t.gap cursor last).stop) :
    p < last ∧ ∀ r ∈ t.regions, p ∉ r.span := by
  have hobstacle : ∀ r ∈ t.regions, p < last → p ∈ r.span → r ∈ t.obstacles cursor last := by
    intro r hr hl hpr
    exact List.mem_filter.mpr ⟨hr, decide_eq_true ⟨Nat.lt_of_le_of_lt hpr.1 hl, Nat.lt_of_le_of_lt hp hpr.2⟩⟩
  unfold gap at hs
  split at hs
  · -- nothing is in the way
    next hn =>
    refine ⟨hs, fun r hr hpr => ?_⟩
    have hm := hobstacle r hr hs hpr
    rw [lowest_eq_none hn] at hm
    cases hm
  · -- the gap ends at the lowest region in the way
    next r hr =>
    have hfirst : p < r.span.first := by
      dsimp only at hs
      omega
    have hl := of_decide_eq_true (List.mem_filter.mp (lowest_mem hr)).2
    have hlast := Nat.lt_trans hfirst hl.1
    refine ⟨hlast, fun s hsm hps => ?_⟩
    have hle := lowest_le hr s (hobstacle s hsm hlast hps)
    have := hps.1
    omega

/-- The pages that a region pushed into a gap makes available were not available. -/
lemma hits_push_gap {t t' : RegionTable} (ht : Proper t.regions) {cursor last : Nat}
    (hgap : cursor < (t.gap cursor last).stop)
    (h : t.push? ⟨⟨cursor, (t.gap cursor last).stop⟩, .available⟩ = some t') :
    Proper t'.regions ∧
      ∀ p, hits p t'.regions ≤ max (hits p t.regions) (if cursor ≤ p ∧ p < last then 1 else 0) := by
  have hkind : (⟨⟨cursor, (t.gap cursor last).stop⟩, .available⟩ : Region).Available := rfl
  rw [push?_eq_some h]
  refine ⟨ht.append (proper_singleton hgap), fun p => ?_⟩
  rw [hits_append, hits_available hkind]
  by_cases hp : p ∈ (⟨cursor, (t.gap cursor last).stop⟩ : Span)
  · obtain ⟨hlast, hfree⟩ := t.gap_free hp.1 hp.2
    have hzero : ¬ 0 < hits p t.regions := by
      rw [hits_pos]
      rintro ⟨r, hr, -, hpr⟩
      exact hfree r hr hpr
    rw [if_pos hp, if_pos ⟨hp.1, hlast⟩]
    omega
  · rw [if_neg hp]
    exact Nat.le_max_left ..

/-- **Filling** makes pages available that no region covered, and only those from `cursor` on and below
`last`. -/
lemma hits_fill {t : RegionTable} (ht : Proper t.regions) (cursor last : Nat) (added : Bool) :
    Proper (t.fill cursor last added).table.regions ∧ ∀ p, hits p (t.fill cursor last added).table.regions ≤
      max (hits p t.regions) (if cursor ≤ p ∧ p < last then 1 else 0) := by
  fun_induction fill t cursor last added with
  | case1 | case5 => exact ⟨ht, fun p => Nat.le_max_left ..⟩
  | case2 t cursor added hl stop hs t' hpush f hf => exact hits_push_gap ht hs hpush
  | case3 t cursor added hl stop hs t' hpush t'' hcount ih =>
    obtain ⟨hproper, hle⟩ := hits_push_gap ht hs hpush
    rw [← regions_countPages hcount] at hproper hle
    obtain ⟨hproper', hle'⟩ := ih hproper
    refine ⟨hproper', fun p => ?_⟩
    have hnext := t.lt_gap_next hl
    have h₁ := hle p
    have h₂ := hle' p
    split_ifs at h₁ h₂ ⊢ <;> omega
  | case4 t cursor added hl stop hs ih =>
    obtain ⟨hproper, hle⟩ := ih ht
    refine ⟨hproper, fun p => ?_⟩
    have hnext := t.lt_gap_next hl
    have h₁ := hle p
    split_ifs at h₁ ⊢ <;> omega

/-! ### Operations on sound tables -/

variable {t : RegionTable}

/-- Entering available memory keeps a table sound, and only pages in the range become available. -/
lemma Sound.addAvailable (h : t.Sound) (base length : UInt64) : (t.addAvailable base length).table.Sound ∧
    ∀ p, (t.addAvailable base length).table.IsAvailable p → t.IsAvailable p ∨ p ∈ Span.within base length := by
  obtain ⟨hproper, hle⟩ := hits_fill h.proper (Span.within base length).first (Span.within base length).last false
  refine ⟨⟨hproper, fun p => Nat.le_trans (hle p) ?_⟩, fun p hp => ?_⟩
  · have := h.single p
    split_ifs <;> omega
  · have hpos := Nat.lt_of_lt_of_le (isAvailable_iff_hits.mp hp) (hle p)
    rw [isAvailable_iff_hits, Span.mem_def]
    split_ifs at hpos with hm
    · exact .inr hm
    · exact .inl (by omega)

/-- Carving keeps a table sound, no page becomes available, and those of the cut are not. -/
lemma Sound.carve (h : t.Sound) {cut : Span} (hcut : cut.first < cut.last) (keep : Bool) :
    (t.carve cut keep).table.Sound ∧
      ∀ p, (t.carve cut keep).table.IsAvailable p → t.IsAvailable p ∧ p ∉ cut := by
  obtain ⟨hproper, hle⟩ := hits_carve h.proper hcut keep
  refine ⟨⟨hproper, fun p => Nat.le_trans (hle p) ?_⟩, fun p hp => ?_⟩
  · have := h.single p
    split_ifs <;> omega
  · have hpos := Nat.lt_of_lt_of_le (isAvailable_iff_hits.mp hp) (hle p)
    rw [isAvailable_iff_hits]
    split_ifs at hpos with hm
    · exact absurd hpos (Nat.lt_irrefl 0)
    · exact ⟨hpos, hm⟩

lemma Sound.addUnavailable (h : t.Sound) (base length : UInt64) (kind : RegionKind) :
    (t.addUnavailable base length kind).table.Sound ∧
      ∀ p, (t.addUnavailable base length kind).table.IsAvailable p →
        t.IsAvailable p ∨ (kind = .available ∧ p ∈ Span.around base length) := by
  have hr := t.addUnavailable_records base length kind
  generalize t.addUnavailable base length kind = c at hr
  cases hr with
  | nothing => exact ⟨h, fun p hp => .inl hp⟩
  | uncounted pages =>
    obtain ⟨hsound, havail⟩ := h.carve (Nat.lt_of_not_le pages) false
    exact ⟨hsound, fun p hp => .inl (havail p hp).1⟩
  | ignored pages =>
    obtain ⟨hsound, havail⟩ := h.carve (Nat.lt_of_not_le pages) false
    exact ⟨hsound.congr rfl, fun p hp => .inl (havail p hp).1⟩
  | recorded pages =>
    obtain ⟨hsound, havail⟩ := h.carve (Nat.lt_of_not_le pages) false
    refine ⟨⟨hsound.proper.append (proper_singleton (Nat.lt_of_not_le pages)), fun p => ?_⟩, fun p hp => ?_⟩
    · have hsingle := hsound.single p
      rw [hits_append]
      by_cases hp : p ∈ Span.around base length
      · have hzero : ¬ 0 < hits p (t.carve (Span.around base length) false).table.regions := fun hpos =>
          (havail p (isAvailable_iff_hits.mpr hpos)).2 hp
        simp only [hits_cons, hits_nil]
        split_ifs <;> omega
      · simp only [hits_cons, hits_nil, hp, and_false, if_false]
        omega
    · obtain ⟨r, hr, hkind, hpr⟩ := hp
      rcases List.mem_append.mp hr with hr | hr
      · exact .inl (havail p ⟨r, hr, hkind, hpr⟩).1
      · cases List.mem_singleton.mp hr
        exact .inr ⟨hkind, hpr⟩

lemma Sound.reserve (h : t.Sound) (start stop : PhysAddr) : (t.reserve start stop).table.Sound ∧
    ∀ p, (t.reserve start stop).table.IsAvailable p →
      t.IsAvailable p ∧ p ∉ Span.outer start.toNat stop.toNat := by
  have hr := t.reserve_takes start stop
  generalize t.reserve start stop = c at hr
  cases hr with
  | nothing empty => exact ⟨h, fun p hp => ⟨hp, not_mem_of_isEmpty empty p⟩⟩
  | overflow pages | counted pages =>
    obtain ⟨hsound, havail⟩ := h.carve pages true
    exact ⟨hsound.congr rfl, havail⟩

/-- The tables that entering and reserving memory makes out of the empty one. -/
inductive Built : RegionTable → Prop where
  | empty : Built .empty
  | addAvailable {t : RegionTable} (built : Built t) (base length : UInt64) :
      Built (t.addAvailable base length).table
  | addUnavailable {t : RegionTable} (built : Built t) (base length : UInt64) (kind : RegionKind) :
      Built (t.addUnavailable base length kind).table
  | reserve {t : RegionTable} (built : Built t) (start stop : PhysAddr) : Built (t.reserve start stop).table

lemma Built.sound (h : t.Built) : t.Sound := by
  induction h with
  | empty => exact sound_empty
  | addAvailable _ base length ih => exact (ih.addAvailable base length).1
  | addUnavailable _ base length kind ih => exact (ih.addUnavailable base length kind).1
  | reserve _ start stop ih => exact (ih.reserve start stop).1

end RegionTable

end Nucleus.Memory
