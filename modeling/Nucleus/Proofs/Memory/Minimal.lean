import Nucleus.Proofs.Memory.Exact

/-!
Carving takes no more than it has to. A table with a free slot can always split the one available region that lies
around a cut, so no region is given up, and the pages that are lost are those of the cut. In terms of bytes: the
pages that share a byte with the range, except that a range without bytes is widened to a page if it ends in the
middle of the page in which it starts.
-/

namespace Nucleus.Memory

/-- The page `p` holds a byte of the addresses from `start` on and below `stop`. -/
def SharesByte (start stop p : Nat) : Prop := ∃ b, start ≤ b ∧ b < stop ∧ b / pageSize = p

/-- There is no address from `start` on and below `stop`, but both lie in the page `p`, and `stop` is not the first
address of it. -/
def WidensTo (start stop p : Nat) : Prop :=
  stop ≤ start ∧ start / pageSize = p ∧ stop / pageSize = p ∧ stop % pageSize ≠ 0

namespace Span

lemma sharesByte_iff {start stop p : Nat} :
    SharesByte start stop p ↔ start < stop ∧ start / pageSize ≤ p ∧ p < pagesUp stop := by
  unfold SharesByte pagesUp pageSize
  constructor
  · rintro ⟨b, hb, hlt, rfl⟩
    omega
  · rintro ⟨hlt, hp, hp'⟩
    exact ⟨max start (p * 4096), by omega, by omega, by omega⟩

/-- **Rounding outwards** keeps the pages that share a byte with the range, unless it has none. -/
lemma mem_outer {start stop p : Nat} :
    p ∈ outer start stop ↔ p < limit ∧ (SharesByte start stop p ∨ WidensTo start stop p) := by
  rw [sharesByte_iff, mem_def]
  unfold outer pagesUp WidensTo pageSize
  dsimp only
  omega

lemma isEmpty_of_not_mem {s : Span} (h : ∀ p, p ∉ s) : s.IsEmpty := by
  have := h s.first
  rw [mem_def] at this
  unfold IsEmpty
  omega

end Span

namespace RegionTable

/-! ### One slot is enough -/

section Leaves

variable {cut : Span} {keep : Bool} {room : Prop} {slots : Nat} {r : Region} {rs ks ps : List Region} {n : Nat}
  {ns : List RegionNotice} {c : Carving}

/-- A region that is split lies around the cut. -/
lemma Leaves.pieces_le (h : Leaves cut keep room r ks ps n ns) (hcut : cut.first < cut.last) :
    ps.length ≤ hits cut.first [r] := by
  cases h with
  | split available first last =>
    have hin : cut.first ∈ r.span := ⟨Nat.le_of_lt first, Nat.lt_trans hcut last⟩
    simp [available, hin]
  | _ => exact Nat.zero_le _

/-- So does one that is given up, and then there is no slot. -/
lemma Leaves.notices_eq_nil (h : Leaves cut keep room r ks ps n ns) (hcut : cut.first < cut.last)
    (hroom : hits cut.first [r] = 1 → room) : ns = [] := by
  cases h with
  | givenUp available first last crowded =>
    have hin : cut.first ∈ r.span := ⟨Nat.le_of_lt first, Nat.lt_trans hcut last⟩
    exact absurd (hroom (by simp [available, hin])) crowded
  | _ => rfl

lemma Carves.pieces_le (h : Carves cut keep slots rs c) (hcut : cut.first < cut.last) :
    c.pieces.length ≤ hits cut.first rs := by
  induction h with
  | nil => exact Nat.le_refl 0
  | snoc _ hl ih =>
    have := hl.pieces_le hcut
    simp only [Carving.extend, List.length_append, hits_append]
    omega

/-- Where at most one available region holds the start of the cut, one free slot is enough. -/
lemma Carves.notices_eq_nil (h : Carves cut keep slots rs c) (hcut : cut.first < cut.last)
    (hslot : slots < regionCapacity) (single : hits cut.first rs ≤ 1) : c.notices = [] := by
  induction h with
  | nil => rfl
  | snoc hc hl ih =>
    rw [hits_append] at single
    have hpieces := hc.pieces_le hcut
    have hnone := hl.notices_eq_nil hcut fun hone => by omega
    simp [Carving.extend, ih (by omega), hnone]

end Leaves

variable {t : RegionTable} {p : Nat}

lemma Sound.carve_notices (h : t.Sound) (slot : ¬ t.Full) {cut : Span} (hcut : cut.first < cut.last) (keep : Bool) :
    (t.carve cut keep).notices = [] := by
  obtain ⟨c, hc, heq⟩ := carve_carves hcut h.proper keep
  rw [heq]
  exact hc.notices_eq_nil hcut (Nat.lt_of_not_le slot) (h.single cut.first)

/-! ### Ranges of bytes -/

lemma InShape.lt_limit (hs : t.InShape) (hp : t.IsAvailable p) : p < Span.limit := by
  obtain ⟨r, hr, -, hpr⟩ := hp
  exact Nat.lt_of_lt_of_le hpr.2 (hs.within r hr)

/-- An available page is not rounded to if it shares no byte and is not the one that an empty range is widened to. -/
lemma InShape.not_mem_outer (hs : t.InShape) (hp : t.IsAvailable p) {start stop : Nat} :
    p ∉ Span.outer start stop ↔ ¬ SharesByte start stop p ∧ ¬ WidensTo start stop p := by
  rw [Span.mem_outer, ← not_or]
  exact not_congr (and_iff_right (hs.lt_limit hp))

lemma around_eq_outer (base length : UInt64) :
    Span.around base length = Span.outer base.toNat (min (base.toNat + length.toNat) (2 ^ 64 - 1)) := by
  rw [Span.around_eq, Word.toNat_addSaturating]
  rfl

lemma Sound.encard_lost {t' : RegionTable} (h : t.Sound) (hs : t.InShape) (h' : t'.Sound) (hs' : t'.InShape)
    (hle : ∀ p, t'.IsAvailable p → t.IsAvailable p) {n : Nat} (hn : t'.freePages + n = t.freePages) :
    {p | t.IsAvailable p ∧ ¬ t'.IsAvailable p}.encard = n := by
  have hsplit := Set.encard_sdiff_add_encard_of_subset (s := {p | t'.IsAvailable p}) (t := {p | t.IsAvailable p}) hle
  rw [h.encard_available hs, h'.encard_available hs', ← hn, Nat.cast_add, add_comm] at hsplit
  exact WithTop.add_left_cancel (ENat.natCast_ne_top _) hsplit

lemma Sound.perform {t' : RegionTable} {c : Call} (h : t.Sound) (hc : c.perform t = .ok t') : t'.Sound := by
  cases c with
  | addAvailable base length =>
    obtain ⟨a, -, rfl⟩ := map_eq_ok hc
    exact (h.addAvailable base length).1
  | addUnavailable base length kind =>
    obtain ⟨a, -, rfl⟩ := map_eq_ok hc
    exact (h.addUnavailable base length kind).1
  | reserve start stop =>
    obtain ⟨n, -, rfl⟩ := map_eq_ok hc
    exact (h.reserve start stop).1

section Operations

variable (h : t.Sound) (hs : t.InShape) (slot : ¬ t.Full)

include h hs slot

/-- **Reserving** takes the available pages that share a byte with the range, and counts them if it can. -/
lemma Sound.reserve_minimal (hw : t.InWords) (start stop : PhysAddr) :
    (∀ p, (t.reserve start stop).table.IsAvailable p ↔
      t.IsAvailable p ∧ ¬ SharesByte start.toNat stop.toNat p ∧ ¬ WidensTo start.toNat stop.toNat p) ∧
    ∃ n : Nat, {p | t.IsAvailable p ∧ ¬ (t.reserve start stop).table.IsAvailable p}.encard = n ∧
      (t.reserve start stop).answer = if t.reservedPages + n < 2 ^ 64 then .ok n else .error .addOverflow := by
  have hnotices : (t.reserve start stop).notices = [] := by
    have hr := t.reserve_takes start stop
    generalize t.reserve start stop = c at hr
    cases hr with
    | nothing => rfl
    | overflow pages | counted pages => exact h.carve_notices slot pages true
  refine ⟨fun p => ?_, ?_⟩
  · rw [hs.isAvailable_reserve hnotices]
    exact and_congr_right fun hp => hs.not_mem_outer hp
  · obtain ⟨hsound, hle⟩ := h.reserve start stop
    obtain ⟨n, hn, hanswer⟩ := hs.reserve_pages start stop hw
    exact ⟨n, h.encard_lost hs hsound (hs.reserve start stop) (fun p hp => (hle p hp).1) hn, hanswer⟩

/-- **Entering unusable memory** takes the available pages that share a byte with it. -/
lemma Sound.addUnavailable_minimal {base length : UInt64} {kind : RegionKind} {a : Except RegionError Bool}
    (ha : (t.addUnavailable base length kind).answer = .ok a) {stop : Nat}
    (hstop : stop = min (base.toNat + length.toNat) (2 ^ 64 - 1)) (p : Nat) :
    (t.addUnavailable base length kind).table.IsAvailable p ↔
      t.IsAvailable p ∧ ¬ SharesByte base.toNat stop p ∧ ¬ WidensTo base.toNat stop p ∨
        kind = .available ∧ a = .ok true ∧ p ∈ Span.around base length := by
  have hmem : t.IsAvailable p ∧ ¬ SharesByte base.toNat stop p ∧ ¬ WidensTo base.toNat stop p ↔
      t.IsAvailable p ∧ p ∉ Span.around base length := by
    rw [around_eq_outer, ← hstop]
    exact and_congr_right fun hp => (hs.not_mem_outer hp).symm
  rw [hmem]
  have hr := t.addUnavailable_records base length kind
  generalize t.addUnavailable base length kind = c at hr ha
  cases hr with
  | nothing empty =>
    cases ha
    simp [not_mem_of_isEmpty empty p]
  | uncounted => cases ha
  | ignored pages =>
    cases ha
    have hcut := Nat.lt_of_not_le pages
    have hcarve := hs.isAvailable_carve hcut (h.carve_notices slot hcut false) (p := p)
    rw [isAvailable_iff_hits] at hcarve ⊢
    simpa using hcarve
  | recorded pages =>
    cases ha
    have hcut := Nat.lt_of_not_le pages
    rw [← hs.isAvailable_carve hcut (h.carve_notices slot hcut false), isAvailable_iff_hits, isAvailable_iff_hits,
      hits_append]
    by_cases hnew : kind = .available ∧ p ∈ Span.around base length <;> simp [hnew]

end Operations

lemma addUnavailable_of_no_page {base length : UInt64} {kind : RegionKind} {stop : Nat}
    (hstop : stop = min (base.toNat + length.toNat) (2 ^ 64 - 1)) (hempty : stop ≤ base.toNat)
    (hpages : ∀ p < Span.limit, ¬ WidensTo base.toNat stop p) :
    t.addUnavailable base length kind = ⟨t, [], .ok (.ok false)⟩ := by
  have hnone : (Span.around base length).IsEmpty := by
    refine Span.isEmpty_of_not_mem fun p hp => ?_
    rw [around_eq_outer, ← hstop, Span.mem_outer, Span.sharesByte_iff] at hp
    obtain ⟨hlt, ⟨hbytes, -⟩ | hwidens⟩ := hp
    · omega
    · exact hpages p hlt hwidens
  exact if_pos hnone

/-- **Carving is minimal** in every table that is not full and that calls make out of the empty one. Reserving takes
the available pages that share a byte with the range and answers their number, unless that number does not fit into the
total of reserved pages, which cannot happen if no call enters memory as unusable that may be handed out. Entering
unusable memory takes the available pages that share a byte with it, and does nothing if it has no bytes. In both cases
a range without bytes takes a page all the same if it ends in the middle of the page in which it starts. Memory that is
entered as available is available if it is recorded. -/
theorem carving_minimal {calls : List Call} (run : afterCalls calls = .ok t) (slot : ¬ t.Full) :
    (∀ start stop : PhysAddr,
      (∀ p, (t.reserve start stop).table.IsAvailable p ↔
        t.IsAvailable p ∧ ¬ SharesByte start.toNat stop.toNat p ∧ ¬ WidensTo start.toNat stop.toNat p) ∧
      (∃ n : Nat, {p | t.IsAvailable p ∧ ¬ (t.reserve start stop).table.IsAvailable p}.encard = n ∧
        (t.reserve start stop).answer = if t.reservedPages + n < 2 ^ 64 then .ok n else .error .addOverflow) ∧
      ((∀ c ∈ calls, c.Sincere) → ∃ n, (t.reserve start stop).answer = .ok n)) ∧
    ∀ (base length : UInt64) (kind : RegionKind) (stop : Nat),
      stop = min (base.toNat + length.toNat) (2 ^ 64 - 1) →
      ((∀ c ∈ calls, c.Sincere) → ∃ a, (t.addUnavailable base length kind).answer = .ok a) ∧
      (stop ≤ base.toNat → (∀ p < Span.limit, ¬ WidensTo base.toNat stop p) →
        t.addUnavailable base length kind = ⟨t, [], .ok (.ok false)⟩) ∧
      ∀ a, (t.addUnavailable base length kind).answer = .ok a → ∀ p,
        (t.addUnavailable base length kind).table.IsAvailable p ↔
          t.IsAvailable p ∧ ¬ SharesByte base.toNat stop p ∧ ¬ WidensTo base.toNat stop p ∨
            kind = .available ∧ a = .ok true ∧ p ∈ Span.around base length := by
  have hs := InShape.of_run run
  have hw := InWords.of_run run
  have h : t.Sound := afterCalls_keeps sound_empty (fun _ _ _ _ ht h => ht.perform h) run
  refine ⟨fun start stop => ?_, fun base length kind stop hstop => ⟨fun hsincere => ?_, ?_, fun a ha => ?_⟩⟩
  · obtain ⟨havailable, hanswer⟩ := h.reserve_minimal hs slot hw start stop
    exact ⟨havailable, hanswer, fun hsincere => (Balanced.of_run hsincere run).reserve_ok start stop hs hw⟩
  · exact (Balanced.of_run hsincere run).addUnavailable_ok hs hw base length kind
  · exact addUnavailable_of_no_page hstop
  · exact h.addUnavailable_minimal hs slot ha hstop

/-- Eight pages from zero on, of which the last two are unusable. -/
def eightPages : List Call := [.addAvailable 0 0x8000, .addUnavailable 0x6FFF 2 .defective]

/-- Of the six pages that are left, two bytes on both sides of a boundary take two. -/
theorem carving_minimal_two_bytes : ∃ t, afterCalls eightPages = .ok t ∧ (t.reserve ⟨0x1FFF⟩ ⟨0x2001⟩).answer = .ok 2 ∧
    ∀ p, (t.reserve ⟨0x1FFF⟩ ⟨0x2001⟩).table.IsAvailable p ↔ t.IsAvailable p ∧ p ≠ 1 ∧ p ≠ 2 := by
  have hrun : afterCalls eightPages = .ok ⟨[⟨⟨0, 6⟩, .available⟩, ⟨⟨6, 8⟩, .defective⟩], 6, 0⟩ := by decide +kernel
  have hminimal := ((carving_minimal hrun (by decide)).1 ⟨0x1FFF⟩ ⟨0x2001⟩).1
  refine ⟨_, hrun, by decide +kernel, fun p => (hminimal p).trans (and_congr_right fun _ => ?_)⟩
  rw [Span.sharesByte_iff, show (⟨0x1FFF⟩ : PhysAddr).toNat = 0x1FFF from rfl,
    show (⟨0x2001⟩ : PhysAddr).toNat = 0x2001 from rfl]
  unfold WidensTo Span.pagesUp pageSize
  omega

/-- A range without bytes takes the page in the middle of which it lies, whether it is reserved or entered as
unusable, and so does one that ends before it starts. -/
theorem empty_range_takes_page : ∃ t, afterCalls [.addAvailable 0 0x4000] = .ok t ∧ ¬ t.Full ∧ t.IsAvailable 1 ∧
    (∀ p, ¬ SharesByte 0x1800 0x1800 p ∧ ¬ SharesByte 0x1900 0x1100 p) ∧
    ((t.reserve ⟨0x1800⟩ ⟨0x1800⟩).answer = .ok 1 ∧ ¬ (t.reserve ⟨0x1800⟩ ⟨0x1800⟩).table.IsAvailable 1) ∧
    ((t.reserve ⟨0x1900⟩ ⟨0x1100⟩).answer = .ok 1 ∧ ¬ (t.reserve ⟨0x1900⟩ ⟨0x1100⟩).table.IsAvailable 1) ∧
    ((t.addUnavailable 0x1800 0 .reserved).answer = .ok (.ok true) ∧
      ¬ (t.addUnavailable 0x1800 0 .reserved).table.IsAvailable 1) := by
  refine ⟨⟨[⟨⟨0, 4⟩, .available⟩], 4, 0⟩, by decide +kernel, by decide, by decide, fun p => ?_, by decide +kernel,
    by decide +kernel, by decide +kernel⟩
  rw [Span.sharesByte_iff, Span.sharesByte_iff]
  omega

end RegionTable

end Nucleus.Memory
