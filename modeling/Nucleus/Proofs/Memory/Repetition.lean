import Nucleus.Proofs.Memory.Minimal

/-!
Operations on a table of regions that are repeated. Once a range was reserved, none of its pages is available, so
reserving it again finds nothing to carve. Once available memory was entered and no slot was missing, each of its pages
lies in a region, so entering it or a part of it again finds no gap. In both cases the list of regions and the totals
stay as they are, not only the pages that are available.
-/

namespace Nucleus.Memory.RegionTable

variable {t : RegionTable}

/-! ### Reserving again -/

section Reserve

variable {cut : Span} {keep : Bool}

lemma Carving.foldl_apart {slots : Nat} {rs : List Region} (h : ∀ r ∈ rs, ¬ (r.Available ∧ cut.Meets r.span))
    (c : Carving) : rs.foldl (step cut keep slots) c = { c with kept := c.kept ++ rs } := by
  induction rs generalizing c with
  | nil => rw [List.foldl_nil, List.append_nil]
  | cons r rs ih =>
    have hstep : step cut keep slots c r = { c with kept := c.kept ++ [r] } := if_neg (h r (List.mem_cons_self ..))
    rw [List.foldl_cons, hstep, ih fun s hs => h s (List.mem_cons_of_mem r hs), List.append_assoc,
      List.singleton_append]

/-- **Carving pages of which none is available** changes nothing. -/
lemma carve_of_unavailable (ht : Proper t.regions) (hcut : cut.first < cut.last) (h : ∀ p ∈ cut, ¬ t.IsAvailable p)
    (keep : Bool) : t.carve cut keep = ⟨t, [], 0⟩ := by
  have hapart : ∀ r ∈ t.regions, ¬ (r.Available ∧ cut.Meets r.span) := by
    rintro r hr ⟨ha, hbefore, hbehind⟩
    have hproper := ht r hr
    -- the later one of the two starts is a common page
    have hpage : max cut.first r.span.first ∈ cut ∧ max cut.first r.span.first ∈ r.span := by
      rw [Span.mem_def, Span.mem_def]
      omega
    exact h _ hpage.1 ⟨r, hr, ha, hpage.2⟩
  unfold carve
  rw [Carving.foldl_apart hapart]
  dsimp only
  rw [List.nil_append, List.append_nil]

lemma reserve_of_unavailable (ht : Proper t.regions) (hw : t.InWords) {start stop : PhysAddr}
    (h : ∀ p ∈ Span.outer start.toNat stop.toNat, ¬ t.IsAvailable p) : t.reserve start stop = ⟨t, [], .ok 0⟩ := by
  have hr := t.reserve_takes start stop
  generalize t.reserve start stop = c at hr
  cases hr with
  | nothing => rfl
  | overflow pages more =>
    rw [carve_of_unavailable ht pages h] at more
    exact absurd hw.reserved (Nat.not_lt_of_le more)
  | counted pages =>
    rw [carve_of_unavailable ht pages h]
    rfl

/-- **Reserving twice** is reserving once. -/
lemma Sound.reserve_reserve (h : t.Sound) (hw : t.InWords) (start stop : PhysAddr) :
    (t.reserve start stop).table.reserve start stop = ⟨(t.reserve start stop).table, [], .ok 0⟩ := by
  obtain ⟨hsound, hleft⟩ := h.reserve start stop
  exact reserve_of_unavailable hsound.proper (hw.reserve start stop) fun p hp havailable => (hleft p havailable).2 hp

end Reserve

/-! ### Entering available memory again -/

def Covers (t : RegionTable) (s : Span) : Prop := ∀ p ∈ s, ∃ r ∈ t.regions, p ∈ r.span

lemma Covers.mono {s s' : Span} (h : t.Covers s) (hle : ∀ p ∈ s', p ∈ s) : t.Covers s' :=
  fun p hp => h p (hle p hp)

/-- **Filling what is covered** adds nothing. -/
lemma fill_of_covers {cursor last : Nat} (h : t.Covers ⟨cursor, last⟩) (added : Bool) :
    t.fill cursor last added = ⟨t, [], .ok (.ok added)⟩ := by
  fun_induction fill t cursor last added with
  | case1 t cursor added hl stop hgap | case2 t cursor added hl stop hgap | case3 t cursor added hl stop hgap =>
    -- the page at the cursor lies in a region, so there is no gap
    obtain ⟨r, hr, hp⟩ := h cursor ⟨Nat.le_refl _, hl⟩
    exact absurd hp ((t.gap_free (Nat.le_refl _) hgap).2 r hr)
  | case4 t cursor added hl stop hgap ih =>
    exact ih (h.mono fun p hp => ⟨Nat.le_trans (Nat.le_of_lt (t.lt_gap_next hl)) hp.1, hp.2⟩)
  | case5 => rfl

lemma fill_notices {cursor last : Nat} {added b : Bool} (h : (t.fill cursor last added).answer = .ok (.ok b)) :
    (t.fill cursor last added).notices = [] := by
  fun_induction fill t cursor last added with
  | case1 => cases h
  | case2 => cases h
  | case3 _ _ _ _ _ _ _ _ _ _ ih => exact ih h
  | case4 _ _ _ _ _ _ ih => exact ih h
  | case5 => rfl

variable {base length base' length' : UInt64} {b : Bool}

/-- Available memory that was entered is covered, unless a slot was missing. -/
lemma covers_addAvailable (h : (t.addAvailable base length).answer = .ok (.ok b)) :
    (t.addAvailable base length).table.Covers (Span.within base length) := by
  intro p hp
  have hcovers : 0 < hits p (t.addAvailable base length).table.regions +
      blocks p (t.addAvailable base length).table.regions := fill_covers h (fill_notices h) hp.1 hp.2
  rcases Nat.eq_zero_or_pos (hits p (t.addAvailable base length).table.regions) with hzero | hpos
  · rw [hzero, Nat.zero_add] at hcovers
    obtain ⟨r, hr, -, hpr⟩ := blocks_pos.mp hcovers
    exact ⟨r, hr, hpr⟩
  · obtain ⟨r, hr, -, hpr⟩ := hits_pos.mp hpos
    exact ⟨r, hr, hpr⟩

lemma addAvailable_of_covers (h : t.Covers (Span.within base length)) :
    t.addAvailable base length = ⟨t, [], .ok (.ok false)⟩ := by
  unfold addAvailable
  generalize Span.within base length = s at h
  exact fill_of_covers h false

/-- The `length` bytes from `base` on hold the address `a`. -/
def HoldsByte (base length : UInt64) (a : PhysAddr) : Prop :=
  base.toNat ≤ a.toNat ∧ a.toNat < base.toNat + length.toNat

lemma within_mono (h : ∀ a, HoldsByte base' length' a → HoldsByte base length a) :
    ∀ p ∈ Span.within base' length', p ∈ Span.within base length := by
  intro p hp
  have hsum' := Word.toNat_addSaturating base' length'
  have hsum := Word.toNat_addSaturating base length
  rw [Span.mem_def] at hp ⊢
  rw [Span.within_eq] at hp ⊢
  unfold Span.inner Span.pagesUp pageSize at *
  dsimp only at hp ⊢
  -- the first and the last byte of the page
  have hfirst := h (.ofNat (4096 * p))
  have hlast := h (.ofNat (4096 * p + 4095))
  unfold HoldsByte at hfirst hlast
  rw [Addr.toNat_ofNat (by omega)] at hfirst hlast
  omega

/-- **Repeating an operation** on a table that calls make out of the empty one, full tables included, changes neither
the regions nor the totals. Reserving a range again takes nothing. Once available memory was entered and no slot was
missing, entering it again, or any part of it, adds nothing. -/
theorem repetition_changes_nothing {calls : List Call} (run : afterCalls calls = .ok t) :
    (∀ start stop : PhysAddr,
      (t.reserve start stop).table.reserve start stop = ⟨(t.reserve start stop).table, [], .ok 0⟩) ∧
    ∀ (base length : UInt64) (b : Bool), (t.addAvailable base length).answer = .ok (.ok b) →
      (t.addAvailable base length).table.addAvailable base length =
        ⟨(t.addAvailable base length).table, [], .ok (.ok false)⟩ ∧
      ∀ base' length' : UInt64, (∀ a, HoldsByte base' length' a → HoldsByte base length a) →
        (t.addAvailable base length).table.addAvailable base' length' =
          ⟨(t.addAvailable base length).table, [], .ok (.ok false)⟩ := by
  have hsound : t.Sound := afterCalls_keeps sound_empty (fun _ _ _ _ ht h => ht.perform h) run
  refine ⟨hsound.reserve_reserve (.of_run run), fun base length b hb => ?_⟩
  have hcovers := covers_addAvailable hb
  exact ⟨addAvailable_of_covers hcovers, fun base' length' hpart =>
    addAvailable_of_covers (hcovers.mono (within_mono hpart))⟩

/-- Available memory around two unusable regions that overlap. -/
def overlappingCalls : List Call :=
  [.addAvailable 0x100000 0x40000, .addUnavailable 0x140000 0x8000 .reserved,
    .addUnavailable 0x144800 0x8000 .nonVolatile]

/-- In a full table a page in the middle of a region is reserved twice, and memory on both sides of other regions is
entered twice, the second time in part. -/
theorem repetition_changes_nothing_full : ∃ t u, afterCalls crowdedCalls = .ok t ∧ t.Full ∧
    (t.reserve ⟨0x101000⟩ ⟨0x102000⟩).answer = .ok 4 ∧
    (t.reserve ⟨0x101000⟩ ⟨0x102000⟩).table.reserve ⟨0x101000⟩ ⟨0x102000⟩ =
      ⟨(t.reserve ⟨0x101000⟩ ⟨0x102000⟩).table, [], .ok 0⟩ ∧
    afterCalls overlappingCalls = .ok u ∧ (u.addAvailable 0x80000 0x200000).answer = .ok (.ok true) ∧
    (u.addAvailable 0x80000 0x200000).table.addAvailable 0x90123 0x100000 =
      ⟨(u.addAvailable 0x80000 0x200000).table, [], .ok (.ok false)⟩ := by
  have hfull : (afterCalls crowdedCalls).toOption.map (fun t =>
      decide t.Full && decide ((t.reserve ⟨0x101000⟩ ⟨0x102000⟩).answer = .ok 4)) = some true := by decide +kernel
  have hentered : (afterCalls overlappingCalls).toOption.map (fun u =>
      (u.addAvailable 0x80000 0x200000).answer) = some (.ok (.ok true)) := by decide +kernel
  cases ht : afterCalls crowdedCalls with
  | error e =>
    rw [ht] at hfull
    cases hfull
  | ok t =>
    cases hu : afterCalls overlappingCalls with
    | error e =>
      rw [hu] at hentered
      cases hentered
    | ok u =>
      rw [ht] at hfull
      rw [hu] at hentered
      obtain ⟨hslots, hanswer⟩ := Bool.and_eq_true_iff.mp (Option.some.inj hfull)
      have hok : (u.addAvailable 0x80000 0x200000).answer = .ok (.ok true) := Option.some.inj hentered
      refine ⟨t, u, rfl, of_decide_eq_true hslots, of_decide_eq_true hanswer, (repetition_changes_nothing ht).1 _ _, rfl, hok,
        ((repetition_changes_nothing hu).2 _ _ _ hok).2 _ _ ?_⟩
      rintro a ⟨hstart, hstop⟩
      exact ⟨Nat.le_trans (by decide) hstart, Nat.lt_of_lt_of_le hstop (by decide)⟩

end Nucleus.Memory.RegionTable
