import Nucleus.Proofs.Memory.Coverage

/-!
The books of a table of regions. The table keeps two running totals apart from the list of its regions, and the
operations edit the list in several ways; where a table is full they take more pages than they were asked for.
All the same the totals count the available pages exactly.
-/

namespace Nucleus.Memory.RegionTable

/-- The number of pages in the available regions among `rs`. -/
def freeOf (rs : List Region) : Nat := Span.pagesOf ((rs.filter (·.Available)).map (·.span))

section FreeOf

@[simp] lemma freeOf_nil : freeOf [] = 0 := rfl

@[simp] lemma freeOf_cons (r : Region) (rs : List Region) :
    freeOf (r :: rs) = (if r.Available then r.span.pages else 0) + freeOf rs := by
  unfold freeOf
  by_cases h : r.Available <;> simp [h, Span.pagesOf]

@[simp] lemma freeOf_append (rs ss : List Region) : freeOf (rs ++ ss) = freeOf rs + freeOf ss := by
  induction rs with
  | nil => simp
  | cons r rs ih => simp [ih, Nat.add_assoc]

lemma freePages_eq (t : RegionTable) : t.freePages = freeOf t.regions := rfl

end FreeOf

/-! ### What carving leaves -/

section Leaves

variable {cut : Span} {keep : Bool} {room : Prop} {slots : Nat} {r : Region} {rs ks ps : List Region} {n : Nat}
  {ns : List RegionNotice} {c : Carving}

/-- The pages that are lost are those that are no longer available. -/
lemma Leaves.pages (h : Leaves cut keep room r ks ps n ns) (hcut : cut.first < cut.last) :
    freeOf (ks ++ ps) + n = freeOf [r] := by
  cases h with
  | apart => simp
  | retyped available | dropped available | givenUp available => simp [available]
  | rear available | front available | split available =>
    simp only [List.singleton_append, List.append_nil, freeOf_cons, freeOf_nil, available_mk, available, Span.pages,
      if_true]
    omega

lemma Leaves.covers_le (h : Leaves cut keep room r ks ps n ns) (hcut : cut.first < cut.last) (p : Nat) :
    hits p (ks ++ ps) + blocks p (ks ++ ps) ≤ hits p [r] + blocks p [r] := by
  cases h with
  | apart => simp
  | retyped available | dropped available | givenUp available => simp [available]
  | rear available | front available | split available =>
    simp only [List.singleton_append, List.append_nil, hits_cons, hits_nil, blocks_cons, blocks_nil, available_mk,
      available, Span.mem_def, true_and, not_true_eq_false, false_and, if_false]
    split_ifs <;> omega

lemma Leaves.last_le (h : Leaves cut keep room r ks ps n ns) (hcut : cut.first < cut.last) :
    ∀ s ∈ ks ++ ps, s.span.last ≤ r.span.last := by
  cases h with
  | dropped => exact nofun
  | split _ _ last =>
    have := Nat.le_of_lt (Nat.lt_trans hcut last)
    simpa
  | apart | retyped | givenUp | rear => simp
  | front _ _ meets => simpa using Nat.le_of_lt meets

lemma Leaves.length_le (h : Leaves cut keep room r ks ps n ns) :
    ks.length ≤ 1 ∧ (ps.length = 0 ∨ room ∧ ps.length = 1) := by
  cases h with
  | split _ _ _ free => exact ⟨Nat.le_refl 1, .inr ⟨free, rfl⟩⟩
  | _ => exact ⟨by simp, .inl rfl⟩

lemma Carves.pages (h : Carves cut keep slots rs c) (hcut : cut.first < cut.last) :
    freeOf (c.kept ++ c.pieces) + c.lost = freeOf rs := by
  induction h with
  | nil => rfl
  | snoc _ hl ih =>
    have := hl.pages hcut
    simp only [Carving.extend, freeOf_append] at this ih ⊢
    omega

lemma Carves.covers_le (h : Carves cut keep slots rs c) (hcut : cut.first < cut.last) (p : Nat) :
    hits p (c.kept ++ c.pieces) + blocks p (c.kept ++ c.pieces) ≤ hits p rs + blocks p rs := by
  induction h with
  | nil => exact Nat.le_refl _
  | snoc _ hl ih =>
    have := hl.covers_le hcut p
    simp only [Carving.extend, hits_append, blocks_append] at this ih ⊢
    omega

lemma Carves.last_le (h : Carves cut keep slots rs c) (hcut : cut.first < cut.last) {N : Nat} (hr : ∀ r ∈ rs, r.span.last ≤ N) :
    ∀ s ∈ c.kept ++ c.pieces, s.span.last ≤ N := by
  induction h with
  | nil => exact nofun
  | @snoc rs c r ks ps n ns _ hl ih =>
    intro s hs
    have hs' : s ∈ c.kept ++ c.pieces ∨ s ∈ ks ++ ps := by
      simp only [Carving.extend, List.mem_append] at hs ⊢
      tauto
    rcases hs' with hs | hs
    · exact ih (fun r hm => hr r (List.mem_append_left _ hm)) s hs
    · exact Nat.le_trans (hl.last_le hcut s hs) (hr r (by simp))

/-- The pieces that are cut off take no more than the free slots. -/
lemma Carves.length_le (h : Carves cut keep slots rs c) (hs : slots ≤ regionCapacity) :
    c.kept.length ≤ rs.length ∧ slots + c.pieces.length ≤ regionCapacity := by
  induction h with
  | nil => exact ⟨Nat.le_refl 0, hs⟩
  | snoc _ hl ih =>
    have := hl.length_le
    simp only [Carving.extend, List.length_append, List.length_singleton]
    omega

end Leaves

/-! ### Tables in shape, and balanced tables -/

/-- The table fits into its slots, and no region is empty or ends behind the last page. -/
structure InShape (t : RegionTable) : Prop where
  room : t.regions.length ≤ regionCapacity
  proper : Proper t.regions
  within : ∀ r ∈ t.regions, r.span.last ≤ Span.limit

/-- A page of an available region lies in no other region, and the totals add up. -/
structure Balanced (t : RegionTable) : Prop where
  alone : ∀ p, 0 < hits p t.regions → hits p t.regions + blocks p t.regions = 1
  total : t.totalPages = t.freePages + t.reservedPages

/-- The totals fit into words, that of the available pages in bytes. -/
structure InWords (t : RegionTable) : Prop where
  total : pageSize * t.totalPages < 2 ^ 64
  reserved : t.reservedPages < 2 ^ 64

variable {t t' : RegionTable}

lemma InShape.congr (h : t.InShape) (he : t'.regions = t.regions) : t'.InShape :=
  ⟨he ▸ h.room, he ▸ h.proper, he ▸ h.within⟩

lemma inShape_empty : empty.InShape := ⟨Nat.zero_le _, nofun, nofun⟩

lemma balanced_empty : empty.Balanced := ⟨nofun, rfl⟩

lemma inWords_empty : empty.InWords := ⟨by decide, by decide⟩

lemma Balanced.sound (h : t.Balanced) (hs : t.InShape) : t.Sound := by
  refine ⟨hs.proper, fun p => ?_⟩
  rcases Nat.eq_zero_or_pos (hits p t.regions) with hp | hp
  · omega
  · have := h.alone p hp
    omega

lemma InShape.push (h : t.InShape) (hslot : ¬ t.Full) (r : Region) (hr : r.span.first < r.span.last)
    (hl : r.span.last ≤ Span.limit) (he : t'.regions = t.regions ++ [r]) : t'.InShape := by
  refine ⟨?_, ?_, fun s hs => ?_⟩
  · rw [he, List.length_append, List.length_singleton]
    exact Nat.lt_of_not_le hslot
  · rw [he]
    exact h.proper.append (proper_singleton hr)
  · rw [he] at hs
    rcases List.mem_append.mp hs with hs | hs
    · exact h.within s hs
    · rw [List.mem_singleton.mp hs]
      exact hl

/-! ### Carving -/

section Carve

variable {cut : Span} (hcut : cut.first < cut.last) (keep : Bool)

include hcut

lemma InShape.carve (h : t.InShape) : (t.carve cut keep).table.InShape := by
  obtain ⟨c, hc, heq⟩ := carve_carves hcut h.proper keep
  obtain ⟨hkept, hpieces⟩ := hc.length_le h.room
  rw [heq]
  refine ⟨?_, (hc.hits_le hcut h.proper).1, hc.last_le hcut h.within⟩
  rw [List.length_append]
  omega

/-- **Carving reports its losses**: the answer is the number of pages that are no longer available. -/
lemma InShape.carve_pages (h : t.InShape) :
    (t.carve cut keep).table.freePages + (t.carve cut keep).answer = t.freePages := by
  obtain ⟨c, hc, heq⟩ := carve_carves hcut h.proper keep
  rw [heq]
  exact hc.pages hcut

/-- After carving, a page of an available region lies in no other region if this was so before. -/
lemma Balanced.carve_alone (h : t.Balanced) (hs : t.InShape) (p : Nat)
    (hp : 0 < hits p (t.carve cut keep).table.regions) :
    hits p (t.carve cut keep).table.regions + blocks p (t.carve cut keep).table.regions = 1 := by
  obtain ⟨c, hc, heq⟩ := carve_carves hcut hs.proper keep
  have hle := (hc.hits_le hcut hs.proper).2 p
  have hcovers := hc.covers_le hcut p
  rw [heq] at hp ⊢
  dsimp only at hp ⊢
  have hbefore : 0 < hits p t.regions := by split_ifs at hle <;> omega
  have := h.alone p hbefore
  omega

end Carve

/-! ### Entering available memory -/

/-- The table `t'` has one more available region than `t`, of pages below `last` that lie in no region. -/
structure Gains (last : Nat) (t t' : RegionTable) : Prop where
  slot : ¬ t.Full
  gain : ∃ s : Span, s.first < s.last ∧ s.last ≤ last ∧ (∀ p ∈ s, ∀ r ∈ t.regions, p ∉ r.span) ∧
    t' = ⟨t.regions ++ [⟨s, .available⟩], t.totalPages + s.pages, t.reservedPages⟩

namespace Gains

variable {last : Nat}

lemma inShape (h : Gains last t t') (hl : last ≤ Span.limit) (ht : t.InShape) : t'.InShape := by
  obtain ⟨hslot, s, hs, hle, -, rfl⟩ := h
  exact ht.push hslot ⟨s, .available⟩ hs (Nat.le_trans hle hl) rfl

lemma hits_eq (h : Gains last t t') (p : Nat) : hits p t.regions ≤ hits p t'.regions ∧
    blocks p t'.regions = blocks p t.regions := by
  obtain ⟨-, s, -, -, -, rfl⟩ := h
  simp

lemma reserved_eq (h : Gains last t t') : t'.reservedPages = t.reservedPages := by
  obtain ⟨-, s, -, -, -, rfl⟩ := h
  rfl

lemma balanced (h : Gains last t t') (ht : t.Balanced) : t'.Balanced := by
  obtain ⟨-, s, hs, -, hfree, rfl⟩ := h
  refine ⟨fun p hp => ?_, ?_⟩
  · by_cases hps : p ∈ s
    · -- the page lies in the new region, so in no other
      have hhits : ¬ 0 < hits p t.regions := by
        rw [hits_pos]
        exact fun ⟨r, hr, _, hpr⟩ => hfree p hps r hr hpr
      have hblocks : ¬ 0 < blocks p t.regions := by
        rw [blocks_pos]
        exact fun ⟨r, hr, _, hpr⟩ => hfree p hps r hr hpr
      simp [hps]
      omega
    · simp only [hits_append, hits_cons, hits_nil, blocks_append, blocks_cons, blocks_nil, hps, and_false, if_false,
        Nat.add_zero] at hp ⊢
      exact ht.alone p hp
  · have := ht.total
    simp [freePages_eq] at this ⊢
    omega

end Gains

lemma gains_push {t₁ : RegionTable} {cursor last : Nat} (hgap : cursor < (t.gap cursor last).stop)
    (hpush : t.push? ⟨⟨cursor, (t.gap cursor last).stop⟩, .available⟩ = some t₁) :
    Gains last t { t₁ with totalPages := t₁.totalPages + ((t.gap cursor last).stop - cursor) } := by
  unfold push? at hpush
  split at hpush
  · cases hpush
  next hslot =>
  cases hpush
  refine ⟨hslot, ⟨cursor, (t.gap cursor last).stop⟩, hgap, ?_, fun p hp => (t.gap_free hp.1 hp.2).2, rfl⟩
  have hle : ∀ p, cursor ≤ p → p < (t.gap cursor last).stop → p < last := fun p hc hs => (t.gap_free hc hs).1
  have := hle ((t.gap cursor last).stop - 1)
  dsimp only
  omega

lemma InWords.push {r : Region} (ht : t.InWords) (h : t.push? r = some t') : t'.InWords := by
  unfold push? at h
  split at h <;> cases h
  exact ⟨ht.total, ht.reserved⟩

lemma countPages_eq {t₁ t₂ : RegionTable} {n : Nat} (h : t₁.countPages n = .ok t₂) :
    t₂ = { t₁ with totalPages := t₁.totalPages + n } := by
  unfold countPages at h
  split at h <;> cases h
  rfl

/-- **Filling without a fault** keeps what every gain keeps. -/
lemma fill_keeps {P : RegionTable → Prop} {last : Nat} (hP : ∀ {t t'}, Gains last t t' → P t → P t') {cursor : Nat}
    {added : Bool} {a : Except RegionError Bool} (ht : P t) (h : (t.fill cursor last added).answer = .ok a) :
    P (t.fill cursor last added).table := by
  fun_induction fill t cursor last added with
  | case1 | case5 => exact ht
  | case2 => cases h
  | case3 t cursor added hl stop hs t' hpush t'' hcount ih => exact ih (hP (countPages_eq hcount ▸ gains_push hs hpush) ht) h
  | case4 t cursor added hl stop hs ih => exact ih ht h

lemma InWords.fill (ht : t.InWords) (cursor last : Nat) (added : Bool) :
    (t.fill cursor last added).table.InWords := by
  fun_induction RegionTable.fill t cursor last added with
  | case1 | case5 => exact ht
  | case2 t cursor added hl stop hs t' hpush => exact ht.push hpush
  | case3 t cursor added hl stop hs t' hpush t'' hcount ih =>
    refine ih ?_
    unfold countPages at hcount
    split at hcount <;> cases hcount
    next hfits => exact ⟨hfits, (ht.push hpush).reserved⟩
  | case4 t cursor added hl stop hs ih => exact ih ht

lemma last_within_le (base length : UInt64) : (Span.within base length).last ≤ Span.limit := by
  have := (Word.addSaturating base length).toNat_lt
  rw [Span.within_eq]
  unfold Span.inner Span.limit pageSize
  dsimp only
  omega

lemma last_around_le (base length : UInt64) : (Span.around base length).last ≤ Span.limit := by
  rw [Span.around_eq]
  exact Nat.min_le_right ..

/-! ### Operations -/

section Operations

variable {base length : UInt64} {kind : RegionKind} {a : Except RegionError Bool}

lemma InShape.addAvailable (ht : t.InShape) (h : (t.addAvailable base length).answer = .ok a) :
    (t.addAvailable base length).table.InShape :=
  fill_keeps (fun hg ht => hg.inShape (last_within_le base length) ht) ht h

lemma Balanced.addAvailable (ht : t.Balanced) (h : (t.addAvailable base length).answer = .ok a) :
    (t.addAvailable base length).table.Balanced :=
  fill_keeps Gains.balanced ht h

/-- **Entering unusable memory** keeps a table in shape, whatever kind it is entered as. -/
lemma InShape.addUnavailable (ht : t.InShape) (base length : UInt64) (kind : RegionKind) :
    (t.addUnavailable base length kind).table.InShape := by
  have hr := t.addUnavailable_records base length kind
  generalize t.addUnavailable base length kind = c at hr
  cases hr with
  | nothing => exact ht
  | uncounted pages => exact ht.carve (Nat.lt_of_not_le pages) false
  | ignored pages => exact (ht.carve (Nat.lt_of_not_le pages) false).congr rfl
  | recorded pages _ slot =>
    exact (ht.carve (Nat.lt_of_not_le pages) false).push slot ⟨Span.around base length, kind⟩
      (Nat.lt_of_not_le pages) (last_around_le base length) rfl

/-- **No underflow**: a balanced table counts at least the pages that unusable memory takes away. -/
lemma Balanced.addUnavailable_ok (ht : t.Balanced) (hs : t.InShape) (hw : t.InWords) (base length : UInt64)
    (kind : RegionKind) :
    ∃ a, (t.addUnavailable base length kind).answer = .ok a := by
  have hr := t.addUnavailable_records base length kind
  generalize t.addUnavailable base length kind = c at hr
  cases hr with
  | nothing | ignored | recorded => exact ⟨_, rfl⟩
  | uncounted pages _ more =>
    have hlost := hs.carve_pages (Nat.lt_of_not_le pages) false
    have htotal := ht.total
    have hbytes := hw.total
    unfold pageSize at *
    omega

lemma Balanced.addUnavailable (ht : t.Balanced) (hs : t.InShape) (hk : kind ≠ .available)
    (ha : (t.addUnavailable base length kind).answer = .ok a) : (t.addUnavailable base length kind).table.Balanced := by
  have hr := t.addUnavailable_records base length kind
  generalize t.addUnavailable base length kind = c at hr ha
  have hkind : ∀ s, freeOf [⟨s, kind⟩] = 0 ∧ ∀ p, hits p [⟨s, kind⟩] = 0 := fun s => by simp [hk]
  have htotal := ht.total
  cases hr with
  | nothing => exact ht
  | uncounted => cases ha
  | ignored pages =>
    have hlost := hs.carve_pages (Nat.lt_of_not_le pages) false
    refine ⟨ht.carve_alone (Nat.lt_of_not_le pages) false hs, ?_⟩
    simp only [freePages_eq] at hlost htotal ⊢
    omega
  | recorded pages =>
    have hlost := hs.carve_pages (Nat.lt_of_not_le pages) false
    refine ⟨fun p hp => ?_, ?_⟩
    · simp only [hits_append, hkind, Nat.add_zero] at hp
      -- a page of an available region is not in the cut, so not in the new region either
      have hcut : p ∉ Span.around base length := by
        intro hpc
        have := (hits_carve hs.proper (Nat.lt_of_not_le pages) false).2 p
        rw [if_pos hpc] at this
        omega
      have := ht.carve_alone (Nat.lt_of_not_le pages) false hs p hp
      simpa [hk, hcut] using this
    · simp only [freePages_eq, freeOf_append, hkind] at hlost htotal ⊢
      omega

lemma InWords.addUnavailable (ht : t.InWords) (base length : UInt64) (kind : RegionKind) :
    (t.addUnavailable base length kind).table.InWords := by
  have hless : pageSize * (t.totalPages - (t.carve (Span.around base length) false).answer) < 2 ^ 64 :=
    Nat.lt_of_le_of_lt (Nat.mul_le_mul_left _ (Nat.sub_le ..)) ht.total
  have hr := t.addUnavailable_records base length kind
  generalize t.addUnavailable base length kind = c at hr
  cases hr with
  | nothing => exact ht
  | uncounted => exact ⟨ht.total, ht.reserved⟩
  | ignored | recorded => exact ⟨hless, ht.reserved⟩

variable (start stop : PhysAddr)

lemma InShape.reserve (ht : t.InShape) : (t.reserve start stop).table.InShape := by
  have hr := t.reserve_takes start stop
  generalize t.reserve start stop = c at hr
  cases hr with
  | nothing => exact ht
  | overflow pages | counted pages => exact (ht.carve pages true).congr rfl

lemma InWords.reserve (ht : t.InWords) : (t.reserve start stop).table.InWords := by
  have hr := t.reserve_takes start stop
  generalize t.reserve start stop = c at hr
  cases hr with
  | nothing => exact ht
  | overflow => exact ⟨ht.total, ht.reserved⟩
  | counted _ fits => exact ⟨ht.total, fits⟩

/-- **Reserving reports its losses**: the answer is the number of pages that are no longer available, unless they are
too many to be counted. -/
lemma InShape.reserve_pages (ht : t.InShape) (hw : t.InWords) :
    ∃ n, (t.reserve start stop).table.freePages + n = t.freePages ∧
      (t.reserve start stop).answer = if t.reservedPages + n < 2 ^ 64 then .ok n else .error .addOverflow := by
  have hr := t.reserve_takes start stop
  generalize t.reserve start stop = c at hr
  cases hr with
  | nothing => exact ⟨0, rfl, (if_pos hw.reserved).symm⟩
  | overflow pages more => exact ⟨_, ht.carve_pages pages true, (if_neg (Nat.not_lt_of_le more)).symm⟩
  | counted pages fits => exact ⟨_, ht.carve_pages pages true, (if_pos fits).symm⟩

/-- **No overflow**: a balanced table has counted the pages that it reserves. -/
lemma Balanced.reserve_ok (ht : t.Balanced) (hs : t.InShape) (hw : t.InWords) :
    ∃ n, (t.reserve start stop).answer = .ok n := by
  obtain ⟨n, hn, hanswer⟩ := hs.reserve_pages start stop hw
  have htotal := ht.total
  have hbytes := hw.total
  unfold pageSize at hbytes
  exact ⟨n, hanswer.trans (if_pos (by omega))⟩

lemma Balanced.reserve (ht : t.Balanced) (hs : t.InShape) {n : Nat} (h : (t.reserve start stop).answer = .ok n) :
    (t.reserve start stop).table.Balanced := by
  have htotal := ht.total
  have hr := t.reserve_takes start stop
  generalize t.reserve start stop = c at hr h
  cases hr with
  | nothing => exact ht
  | overflow => cases h
  | counted pages =>
    refine ⟨ht.carve_alone pages true hs, ?_⟩
    have := hs.carve_pages pages true
    simp only [freePages_eq] at this htotal ⊢
    omega

end Operations

/-! ### Calls -/

inductive Call where
  | addAvailable (base length : UInt64)
  | addUnavailable (base length : UInt64) (kind : RegionKind)
  | reserve (start stop : PhysAddr)

/-- The table after a call, unless it ends with a fault. That all slots are in use is no fault. -/
def Call.perform (t : RegionTable) : Call → Checked RegionTable
  | addAvailable base length =>
    let c := t.addAvailable base length
    c.answer.map fun _ => c.table
  | addUnavailable base length kind =>
    let c := t.addUnavailable base length kind
    c.answer.map fun _ => c.table
  | reserve start stop =>
    let c := t.reserve start stop
    c.answer.map fun _ => c.table

def afterCalls (calls : List Call) : Checked RegionTable := calls.foldlM Call.perform .empty

/-- The call does not enter memory as unusable that may be handed out. -/
def Call.Sincere : Call → Prop
  | addUnavailable _ _ kind => kind ≠ .available
  | _ => True

lemma map_eq_ok {α β : Type} {x : Checked α} {f : α → β} {b : β} (h : x.map f = .ok b) : ∃ a, x = .ok a ∧ f a = b := by
  cases x with
  | error e => cases h
  | ok a => exact ⟨a, rfl, Except.ok.inj h⟩

lemma InShape.perform {c : Call} (ht : t.InShape) (h : c.perform t = .ok t') : t'.InShape := by
  cases c with
  | addAvailable =>
    obtain ⟨a, ha, rfl⟩ := map_eq_ok h
    exact ht.addAvailable ha
  | addUnavailable =>
    obtain ⟨a, ha, rfl⟩ := map_eq_ok h
    exact ht.addUnavailable ..
  | reserve =>
    obtain ⟨n, hn, rfl⟩ := map_eq_ok h
    exact ht.reserve ..

lemma InWords.perform {c : Call} (ht : t.InWords) (h : c.perform t = .ok t') : t'.InWords := by
  cases c with
  | addAvailable =>
    obtain ⟨a, ha, rfl⟩ := map_eq_ok h
    exact ht.fill ..
  | addUnavailable =>
    obtain ⟨a, ha, rfl⟩ := map_eq_ok h
    exact ht.addUnavailable ..
  | reserve =>
    obtain ⟨n, hn, rfl⟩ := map_eq_ok h
    exact ht.reserve ..

lemma Balanced.perform {c : Call} (ht : t.Balanced) (hs : t.InShape) (hc : c.Sincere) (h : c.perform t = .ok t') :
    t'.Balanced := by
  cases c with
  | addAvailable =>
    obtain ⟨a, ha, rfl⟩ := map_eq_ok h
    exact ht.addAvailable ha
  | addUnavailable =>
    obtain ⟨a, ha, rfl⟩ := map_eq_ok h
    exact ht.addUnavailable hs hc ha
  | reserve =>
    obtain ⟨n, hn, rfl⟩ := map_eq_ok h
    exact ht.reserve _ _ hs hn

/-- What a call keeps, a run of calls keeps. -/
lemma afterCalls_keeps {P : RegionTable → Prop} {calls : List Call} (start : P .empty)
    (step : ∀ c ∈ calls, ∀ t t', P t → c.perform t = .ok t' → P t') (h : afterCalls calls = .ok t) : P t := by
  unfold afterCalls at h
  generalize RegionTable.empty = t₀ at start h
  induction calls generalizing t₀ with
  | nil =>
    cases h
    exact start
  | cons c calls ih =>
    rw [List.foldlM_cons] at h
    cases hc : c.perform t₀ with
    | error e =>
      rw [hc] at h
      cases h
    | ok t₁ =>
      rw [hc] at h
      exact ih (fun c' hc' => step c' (List.mem_cons_of_mem _ hc')) t₁ (step c (List.mem_cons_self ..) _ _ start hc) h

lemma InShape.of_run {calls : List Call} (run : afterCalls calls = .ok t) : t.InShape :=
  afterCalls_keeps inShape_empty (fun _ _ _ _ ht h => ht.perform h) run

lemma InWords.of_run {calls : List Call} (run : afterCalls calls = .ok t) : t.InWords :=
  afterCalls_keeps inWords_empty (fun _ _ _ _ ht h => ht.perform h) run

/-- Calls that enter nothing as unusable that may be handed out leave a balanced table. -/
lemma Balanced.of_run {calls : List Call} (sincere : ∀ c ∈ calls, c.Sincere) (run : afterCalls calls = .ok t) :
    t.Balanced := by
  refine (afterCalls_keeps (P := fun t => t.InShape ∧ t.Balanced) ⟨inShape_empty, balanced_empty⟩ ?_ run).2
  intro c hc t t' ht h
  exact ⟨ht.1.perform h, ht.2.perform ht.1 (sincere c hc) h⟩

/-- No region that is available shares a page with another region. -/
def Disjoint (t : RegionTable) : Prop :=
  t.regions.Pairwise fun r s => r.Available ∨ s.Available → ∀ p ∈ r.span, p ∉ s.span

lemma Balanced.disjoint (h : t.Balanced) : t.Disjoint := by
  unfold RegionTable.Disjoint
  have halone : ∀ p, 0 < hits p t.regions → hits p t.regions + blocks p t.regions ≤ 1 :=
    fun p hp => Nat.le_of_eq (h.alone p hp)
  generalize t.regions = rs at halone
  induction rs with
  | nil => exact .nil
  | cons r rs ih =>
    refine .cons (fun s hs hav p hpr hps => ?_) (ih fun p hp => ?_)
    · have hcovers := covers_pos hs hps
      have hhits : 0 < hits p (r :: rs) := by
        rcases hav with ha | ha
        · exact hits_pos.mpr ⟨r, List.mem_cons_self .., ha, hpr⟩
        · exact hits_pos.mpr ⟨s, List.mem_cons_of_mem _ hs, ha, hps⟩
      have hle := halone p hhits
      by_cases ha : r.Available <;> simp [ha, hpr] at hle <;> omega
    · have hle := halone p (by rw [hits_cons]; omega)
      rw [hits_cons, blocks_cons] at hle
      omega

/-- **The table of regions after any calls.** It fits into its slots, its regions are whole pages and not empty, and
reserving reports the pages that are no longer available, with a fault exactly if all that were ever reserved are too
many to be counted. If no call enters memory as unusable that may be handed out, then an available region shares no page
with another region, the totals add up, and neither does entering unusable memory count below zero nor does reserving
overflow. -/
theorem region_table_consistent {calls : List Call} (run : afterCalls calls = .ok t) :
    t.regions.length ≤ regionCapacity ∧
    (∀ r ∈ t.regions, pageSize ∣ r.span.start ∧ pageSize ∣ r.span.stop ∧ r.span.start < r.span.stop) ∧
    pageSize ∣ t.stats.totalBytes ∧
    (∀ start stop, ∃ n, (t.reserve start stop).table.freePages + n = t.freePages ∧
      (t.reserve start stop).answer = if t.reservedPages + n < 2 ^ 64 then .ok n else .error .addOverflow) ∧
    ((∀ c ∈ calls, c.Sincere) → t.Disjoint ∧ t.stats.totalPages = t.stats.freePages + t.stats.reservedPages ∧
      (∀ base length kind, ∃ a, (t.addUnavailable base length kind).answer = .ok a) ∧
      ∀ start stop, ∃ n, (t.reserve start stop).answer = .ok n) := by
  have hshape := InShape.of_run run
  have hwords := InWords.of_run run
  refine ⟨hshape.room, fun r hr => ⟨⟨_, rfl⟩, ⟨_, rfl⟩, ?_⟩, ⟨_, rfl⟩, fun start stop => ?_, fun hsincere => ?_⟩
  · have := hshape.proper r hr
    unfold Span.start Span.stop pageSize
    omega
  · exact hshape.reserve_pages start stop hwords
  · have hbalanced := Balanced.of_run hsincere run
    exact ⟨hbalanced.disjoint, hbalanced.total, hbalanced.addUnavailable_ok hshape hwords,
      fun start stop => hbalanced.reserve_ok start stop hshape hwords⟩

/-- As many available regions as there are slots, and a range in the middle of the first one that is reserved. -/
def crowdedCalls : List Call :=
  (List.range regionCapacity).map (fun k => .addAvailable (UInt64.ofNat (0x100000 * k)) 0x4000) ++
    [.reserve ⟨0x1000⟩ ⟨0x2000⟩]

/-- The first region is given up as a whole, and its four pages are accounted for. -/
theorem region_table_consistent_crowded : ∃ t, afterCalls crowdedCalls = .ok t ∧ t.Disjoint ∧
    t.stats.reservedPages = 4 ∧ t.stats.totalPages = t.stats.freePages + 4 := by
  have hrun : (afterCalls crowdedCalls).toOption.map (·.reservedPages) = some 4 := by decide +kernel
  have hsincere : ∀ c ∈ crowdedCalls, c.Sincere := by
    intro c hc
    rcases List.mem_append.mp hc with hc | hc
    · obtain ⟨k, -, rfl⟩ := List.mem_map.mp hc
      trivial
    · cases List.mem_singleton.mp hc
      trivial
  cases h : afterCalls crowdedCalls with
  | error e =>
    rw [h] at hrun
    cases hrun
  | ok t =>
    rw [h] at hrun
    have hreserved : t.stats.reservedPages = 4 := Option.some.inj hrun
    obtain ⟨hdisjoint, htotal, -⟩ := (region_table_consistent h).2.2.2.2 hsincere
    exact ⟨t, rfl, hdisjoint, hreserved, hreserved ▸ htotal⟩

/-- Memory that may be handed out but is entered as unusable is available without being counted: the totals do not
add up, taking it away counts below zero, and it can share its pages with other regions. -/
theorem available_entered_as_unusable : ∃ t u, afterCalls [.addUnavailable 0 0x1000 .available] = .ok t ∧
    t.stats.totalPages ≠ t.stats.freePages + t.stats.reservedPages ∧
    (t.addUnavailable 0 0x1000 .reserved).answer = .error .subOverflow ∧
    afterCalls [.addUnavailable 0 0x1000 .reserved, .addUnavailable 0 0x1000 .available] = .ok u ∧ ¬ u.Disjoint := by
  refine ⟨⟨[⟨⟨0, 1⟩, .available⟩], 0, 0⟩, ⟨[⟨⟨0, 1⟩, .reserved⟩, ⟨⟨0, 1⟩, .available⟩], 0, 0⟩, by decide +kernel,
    by decide, by decide +kernel, by decide +kernel, fun h => ?_⟩
  have hfirst := (List.pairwise_cons.mp h).1 _ (List.mem_singleton_self _)
  exact hfirst (.inr rfl) 0 (by decide) (by decide)

end Nucleus.Memory.RegionTable
