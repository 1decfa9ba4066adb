import Nucleus.Proofs.Memory.Repetition

/-!
The search for gaps that enters available memory, turn by turn. Every turn moves the cursor up, so there are no more
turns than pages, although regions can overlap and the search itself adds regions. A turn records pages that lie in no
region. What the search jumps over lies in a region, so with no slot missing nothing is left uncovered, and the answer
tells whether there was anything to cover. Only the total can get too large for a word: pages that were reserved and
are entered again count twice.
-/

namespace Nucleus.Memory.RegionTable

/-! ### Turns -/

/-- A turn of the search: the table and the cursor that it finds, where the search goes on, and the pages that it
records as a region. -/
structure Turn where
  table : RegionTable
  cursor : Nat
  next : Nat
  piece : Option Span

/-- The pages from `cursor` on and in front of the lowest region that lies in the way. -/
def hole (t : RegionTable) (cursor last : Nat) : Span := ⟨cursor, (t.gap cursor last).stop⟩

lemma mem_hole (t : RegionTable) {cursor last p : Nat} (hp : p ∈ t.hole cursor last) :
    (cursor ≤ p ∧ p < last) ∧ ∀ r ∈ t.regions, p ∉ r.span := by
  obtain ⟨hlast, hfree⟩ := t.gap_free hp.1 hp.2
  exact ⟨⟨hp.1, hlast⟩, hfree⟩

/-- The turns of a search through the pages from `cursor` on and below `last`, and what it comes to. -/
inductive Searches (last : Nat) :
    RegionTable → Nat → Bool → List Turn → RegionChange (Checked (Except RegionError Bool)) → Prop
  | done {t : RegionTable} {cursor : Nat} {added : Bool} (stops : last ≤ cursor) :
      Searches last t cursor added [] ⟨t, [], .ok (.ok added)⟩
  /-- All slots are in use. -/
  | crowded {t : RegionTable} {cursor : Nat} {added : Bool} (inside : cursor < last)
      (free : cursor < (t.gap cursor last).stop) (full : t.push? ⟨t.hole cursor last, .available⟩ = none) :
      Searches last t cursor added [⟨t, cursor, (t.gap cursor last).next, none⟩]
        ⟨t, [.ignored (t.hole cursor last)], .ok (.error .full)⟩
  /-- The region stays although its pages cannot be counted. -/
  | uncounted {t t' : RegionTable} {cursor : Nat} {added : Bool} {f : Fault} (inside : cursor < last)
      (free : cursor < (t.gap cursor last).stop) (push : t.push? ⟨t.hole cursor last, .available⟩ = some t')
      (count : t'.countPages (t.hole cursor last).pages = .error f) :
      Searches last t cursor added [⟨t, cursor, (t.gap cursor last).next, some (t.hole cursor last)⟩] ⟨t', [], .error f⟩
  | filled {t t' t'' : RegionTable} {cursor : Nat} {added : Bool} {turns : List Turn}
      {c : RegionChange (Checked (Except RegionError Bool))} (inside : cursor < last)
      (free : cursor < (t.gap cursor last).stop) (push : t.push? ⟨t.hole cursor last, .available⟩ = some t')
      (count : t'.countPages (t.hole cursor last).pages = .ok t'')
      (rest : Searches last t'' (t.gap cursor last).next true turns c) :
      Searches last t cursor added (⟨t, cursor, (t.gap cursor last).next, some (t.hole cursor last)⟩ :: turns) c
  | jumped {t : RegionTable} {cursor : Nat} {added : Bool} {turns : List Turn}
      {c : RegionChange (Checked (Except RegionError Bool))} (inside : cursor < last)
      (occupied : ¬ cursor < (t.gap cursor last).stop)
      (rest : Searches last t (t.gap cursor last).next added turns c) :
      Searches last t cursor added (⟨t, cursor, (t.gap cursor last).next, none⟩ :: turns) c

/-- **The search ends**, after turns that can be listed. -/
lemma fill_searches (t : RegionTable) (cursor last : Nat) (added : Bool) :
    ∃ turns, Searches last t cursor added turns (t.fill cursor last added) := by
  fun_induction fill t cursor last added with
  | case1 t cursor added inside stop free full => exact ⟨_, .crowded inside free full⟩
  | case2 t cursor added inside stop free t' push f count => exact ⟨_, .uncounted inside free push count⟩
  | case3 t cursor added inside stop free t' push t'' count ih =>
    obtain ⟨turns, hturns⟩ := ih
    exact ⟨_, .filled inside free push count hturns⟩
  | case4 t cursor added inside stop occupied ih =>
    obtain ⟨turns, hturns⟩ := ih
    exact ⟨_, .jumped inside occupied hturns⟩
  | case5 t cursor added behind => exact ⟨[], .done (Nat.le_of_not_lt behind)⟩

namespace Searches

variable {t : RegionTable} {cursor last : Nat} {added : Bool} {turns : List Turn}
  {c : RegionChange (Checked (Except RegionError Bool))}

/-- **The cursor moves up** in every turn, from where the turn before it left off. -/
lemma cursors (h : Searches last t cursor added turns c) :
    (∀ u ∈ turns, cursor ≤ u.cursor ∧ u.cursor < u.next) ∧ turns.Pairwise fun u v => u.next ≤ v.cursor := by
  induction h with
  | done => exact ⟨nofun, .nil⟩
  | @crowded t cursor _ inside | @uncounted t _ cursor _ _ inside =>
    have hnext := t.lt_gap_next inside
    simp [hnext]
  | @filled t _ _ cursor _ _ _ inside _ _ _ _ ih | @jumped t cursor _ _ _ inside _ _ ih =>
    obtain ⟨hturns, hpairs⟩ := ih
    have hnext := t.lt_gap_next inside
    refine ⟨fun u hu => ?_, .cons (fun u hu => (hturns u hu).1) hpairs⟩
    rcases List.mem_cons.mp hu with rfl | hu
    · exact ⟨Nat.le_refl _, hnext⟩
    · have hu := hturns u hu
      exact ⟨Nat.le_trans (Nat.le_of_lt hnext) hu.1, hu.2⟩

lemma length_le (h : Searches last t cursor added turns c) : turns.length ≤ last - cursor := by
  induction h with
  | done => exact Nat.zero_le _
  | crowded inside | uncounted inside =>
    rw [List.length_singleton]
    omega
  | @filled t _ _ cursor _ _ _ inside _ _ _ _ ih | @jumped t cursor _ _ _ inside _ _ ih =>
    have hnext := t.lt_gap_next inside
    rw [List.length_cons]
    omega

/-- **What a turn records** has a page, and only pages to be entered that lie in no region. -/
lemma pieces (h : Searches last t cursor added turns c) : ∀ u ∈ turns, ∀ s ∈ u.piece,
    s.first < s.last ∧ ∀ p ∈ s, (u.cursor ≤ p ∧ p < last) ∧ ∀ r ∈ u.table.regions, p ∉ r.span := by
  induction h with
  | done => exact nofun
  | crowded => simp
  | @uncounted t _ cursor _ _ _ free =>
    rintro u hu s hs
    cases List.mem_singleton.mp hu
    cases hs
    exact ⟨free, fun p => t.mem_hole⟩
  | @filled t _ _ cursor _ _ _ _ free _ _ _ ih =>
    refine List.forall_mem_cons.mpr ⟨fun s hs => ?_, ih⟩
    cases hs
    exact ⟨free, fun p => t.mem_hole⟩
  | jumped _ _ _ ih => exact List.forall_mem_cons.mpr ⟨nofun, ih⟩

/-- The search adds the pieces that its turns record, and changes no region that was there. -/
lemma regions (h : Searches last t cursor added turns c) :
    c.table.regions = t.regions ++ (turns.filterMap (·.piece)).map (⟨·, .available⟩) := by
  induction h with
  | done | crowded => simp
  | uncounted _ _ push => simp [push?_eq_some push]
  | filled _ _ push count _ ih => simp [ih, regions_countPages count, push?_eq_some push]
  | jumped _ _ _ ih => simpa using ih

end Searches

/-! ### Pages without a region -/

def uncovered (t : RegionTable) (s : Span) : Nat :=
  ((Finset.Ico s.first s.last).filter fun p => ∀ r ∈ t.regions, p ∉ r.span).card

variable {t : RegionTable} {cursor last : Nat}

lemma uncovered_pos {s : Span} : 0 < t.uncovered s ↔ ¬ t.Covers s := by
  unfold uncovered Covers
  rw [Finset.card_pos, Finset.filter_nonempty_iff]
  push Not
  simp only [Finset.mem_Ico, Span.mem_def]

lemma stop_le_next (ht : Proper t.regions) : (t.gap cursor last).stop ≤ (t.gap cursor last).next := by
  unfold gap
  split
  · exact Nat.le_refl last
  · next r hr =>
    -- an inverted region could end in front of its start, and of the hole
    obtain ⟨hmem, hway⟩ := List.mem_filter.mp (lowest_mem hr)
    have hproper := ht r hmem
    have hbehind := (of_decide_eq_true hway).2
    dsimp only
    omega

/-- The pages without a region are those of the hole, and those from where the search goes on. -/
lemma uncovered_eq (ht : Proper t.regions) (h : cursor < last) :
    t.uncovered ⟨cursor, last⟩ = (t.hole cursor last).pages + t.uncovered ⟨(t.gap cursor last).next, last⟩ := by
  have hnext := t.lt_gap_next h
  have hstop : (t.gap cursor last).stop ≤ (t.gap cursor last).next := stop_le_next ht
  have hsplit : (Finset.Ico cursor last).filter (fun p => ∀ r ∈ t.regions, p ∉ r.span) =
      Finset.Ico cursor (t.gap cursor last).stop ∪
        (Finset.Ico (t.gap cursor last).next last).filter fun p => ∀ r ∈ t.regions, p ∉ r.span := by
    ext p
    simp only [Finset.mem_union, Finset.mem_filter, Finset.mem_Ico]
    constructor
    · rintro ⟨⟨hp, hl⟩, hfree⟩
      rcases Nat.lt_or_ge p (t.gap cursor last).stop with hs | hs
      · exact .inl ⟨hp, hs⟩
      · refine .inr ⟨⟨Nat.le_of_not_lt fun hn => ?_, hl⟩, hfree⟩
        obtain ⟨r, hr, hpr⟩ := t.gap_covers hp hl hs hn
        exact hfree r hr hpr
    · rintro (⟨hp, hs⟩ | ⟨⟨hn, hl⟩, hfree⟩)
      · obtain ⟨hl, hfree⟩ := t.gap_free hp hs
        exact ⟨⟨hp, hl⟩, hfree⟩
      · exact ⟨⟨Nat.le_trans (Nat.le_of_lt hnext) hn, hl⟩, hfree⟩
  unfold uncovered
  rw [hsplit, Finset.card_union_of_disjoint, Nat.card_Ico]
  · rfl
  · refine Finset.disjoint_left.mpr fun p hp hp' => ?_
    simp only [Finset.mem_filter, Finset.mem_Ico] at hp hp'
    omega

lemma uncovered_append {s s' : Span} {t' : RegionTable} {k : RegionKind} (hregions : t'.regions = t.regions ++ [⟨s, k⟩])
    (hs : s.last ≤ s'.first) : t'.uncovered s' = t.uncovered s' := by
  unfold uncovered
  congr 1
  refine Finset.filter_congr fun p hp => ?_
  have hbehind : p ∉ s := fun hps => by
    have := (Finset.mem_Ico.mp hp).1
    have := hps.2
    omega
  simp [hregions, or_imp, forall_and, hbehind]

/-! ### The answer -/

lemma totalPages_push {t' : RegionTable} {r : Region} (h : t.push? r = some t') : t'.totalPages = t.totalPages := by
  unfold push? at h
  split at h <;> cases h
  rfl

lemma countPages_eq_error {n : Nat} {f : Fault} (h : t.countPages n = .error f) :
    f = .addOverflow ∧ 2 ^ 64 ≤ pageSize * (t.totalPages + n) := by
  unfold countPages at h
  split at h <;> cases h
  next hlarge => exact ⟨rfl, Nat.le_of_not_lt hlarge⟩

/-- **What a search comes to**: a slot was missing, or the total got too large, or the answer tells whether there was a
page without a region. -/
lemma Searches.answer {added : Bool} {turns : List Turn} {c : RegionChange (Checked (Except RegionError Bool))}
    (h : Searches last t cursor added turns c) (ht : Proper t.regions) :
    (c.answer = .ok (.error .full) ∧ c.table.Full) ∨
    (c.answer = .error .addOverflow ∧ 2 ^ 64 ≤ pageSize * (t.totalPages + t.uncovered ⟨cursor, last⟩)) ∨
    ∃ b, c.answer = .ok (.ok b) ∧ (b = true ↔ added = true ∨ 0 < t.uncovered ⟨cursor, last⟩) := by
  induction h with
  | @done t cursor added stops =>
    refine .inr (.inr ⟨added, rfl, ?_⟩)
    unfold uncovered
    simp [Finset.Ico_eq_empty_of_le stops]
  | crowded _ _ full =>
    unfold push? at full
    split at full
    · next hfull => exact .inl ⟨rfl, hfull⟩
    · cases full
  | @uncounted t t' cursor _ _ inside _ push count =>
    obtain ⟨rfl, hlarge⟩ := countPages_eq_error count
    rw [totalPages_push push] at hlarge
    refine .inr (.inl ⟨rfl, Nat.le_trans hlarge (Nat.mul_le_mul_left _ ?_)⟩)
    rw [uncovered_eq ht inside]
    omega
  | @filled t t' t'' cursor _ _ _ inside free push count _ ih =>
    have hregions : t''.regions = t.regions ++ [⟨t.hole cursor last, .available⟩] := by
      rw [regions_countPages count, push?_eq_some push]
    have htotal : t''.totalPages = t.totalPages + (t.hole cursor last).pages := by
      rw [countPages_eq count, totalPages_push push]
    have hpages : 0 < (t.hole cursor last).pages := Nat.sub_pos_of_lt free
    have hrest : t''.uncovered ⟨(t.gap cursor last).next, last⟩ = t.uncovered ⟨(t.gap cursor last).next, last⟩ :=
      uncovered_append hregions (stop_le_next ht)
    -- the piece is counted, and the rest of the search meets the pages behind it
    have hafter := ih (hregions ▸ ht.append (proper_singleton free))
    rw [htotal, hrest, Nat.add_assoc, ← uncovered_eq ht inside] at hafter
    refine hafter.imp_right (Or.imp_right ?_)
    rintro ⟨b, hb, htrue⟩
    refine ⟨b, hb, ⟨fun _ => .inr ?_, fun _ => htrue.mpr (.inl rfl)⟩⟩
    rw [uncovered_eq ht inside]
    omega
  | @jumped t cursor _ _ _ inside occupied _ ih =>
    have hpages : (t.hole cursor last).pages = 0 := Nat.sub_eq_zero_of_le (Nat.le_of_not_lt occupied)
    rw [uncovered_eq ht inside, hpages, Nat.zero_add]
    exact ih ht

/-- **The search for gaps is exact** in every table that calls make out of the empty one, whether regions overlap in it
or not. It ends after at most as many turns as there are pages to enter, each of which moves the cursor up and may
record a piece: pages to be entered, at least one, that lie in no region of that moment. The pieces are all that is
added. If the pages without a region can still be counted in bytes, or nothing was reserved so far, there is no fault.
Then either a slot was missing, or all the pages lie in regions afterwards, and the answer tells whether there was one
that did not. -/
theorem gap_search_exact {calls : List Call} (run : afterCalls calls = .ok t) (base length : UInt64) :
    let s := Span.within base length
    let c := t.addAvailable base length
    (∃ turns, Searches s.last t s.first false turns c ∧ turns.length ≤ s.pages ∧
      (∀ u ∈ turns, u.cursor < u.next) ∧ (turns.Pairwise fun u v => u.next ≤ v.cursor) ∧
      (∀ u ∈ turns, ∀ piece ∈ u.piece, piece.first < piece.last ∧
        ∀ p ∈ piece, p ∈ s ∧ ∀ r ∈ u.table.regions, p ∉ r.span) ∧
      c.table.regions = t.regions ++ (turns.filterMap (·.piece)).map (⟨·, .available⟩)) ∧
    (pageSize * (t.totalPages + t.uncovered s) < 2 ^ 64 ∨ (∀ k ∈ calls, k.Sincere) ∧ t.reservedPages = 0 →
      ∃ a, c.answer = .ok a) ∧
    ∀ a, c.answer = .ok a →
      a = .error .full ∧ c.table.Full ∨ ∃ b, a = .ok b ∧ c.table.Covers s ∧ (b = true ↔ ¬ t.Covers s) := by
  intro s c
  obtain ⟨turns, hturns⟩ := t.fill_searches s.first s.last false
  have hshape := InShape.of_run run
  have hanswer := hturns.answer hshape.proper
  have hspan : ∀ u : Span, t.uncovered ⟨u.first, u.last⟩ = t.uncovered u := fun _ => rfl
  rw [hspan] at hanswer
  refine ⟨⟨turns, hturns, hturns.length_le, fun u hu => (hturns.cursors.1 u hu).2, hturns.cursors.2,
    fun u hu piece hpiece => ?_, hturns.regions⟩, fun hfits => ?_, fun a ha => ?_⟩
  · obtain ⟨hproper, hfree⟩ := hturns.pieces u hu piece hpiece
    have hstart := (hturns.cursors.1 u hu).1
    exact ⟨hproper, fun p hp => ⟨⟨Nat.le_trans hstart (hfree p hp).1.1, (hfree p hp).1.2⟩, (hfree p hp).2⟩⟩
  · rcases hfits with hfits | ⟨hsincere, hnone⟩
    · rcases hanswer with ⟨hfull, -⟩ | ⟨-, hlarge⟩ | ⟨b, hb, -⟩
      · exact ⟨_, hfull⟩
      · exact absurd hfits (Nat.not_lt_of_le hlarge)
      · exact ⟨_, hb⟩
    · -- with sincere calls and nothing reserved, the total is that of the free pages
      exact fill_ok (.of_run hsincere run) hshape hnone (last_within_le base length) s.first false
  · have ha' : (t.fill s.first s.last false).answer = .ok a := ha
    rw [ha'] at hanswer
    rcases hanswer with ⟨hfull, htable⟩ | ⟨hfault, -⟩ | ⟨b, hb, htrue⟩
    · exact .inl ⟨Except.ok.inj hfull, htable⟩
    · cases hfault
    · cases hb
      refine .inr ⟨b, rfl, covers_addAvailable ha, htrue.trans ?_⟩
      rw [uncovered_pos]
      simp

/-- Memory is entered around available pages and two unusable regions that overlap: the pages on both sides are new, and
afterwards all of them lie in regions. -/
theorem gap_search_exact_around : ∃ t turns, afterCalls overlappingCalls = .ok t ∧
    Searches 0x280 t 0x80 false turns (t.addAvailable 0x80000 0x200000) ∧ turns.length ≤ 0x200 ∧
    (t.addAvailable 0x80000 0x200000).answer = .ok (.ok true) ∧
    (t.addAvailable 0x80000 0x200000).table.Covers ⟨0x80, 0x280⟩ ∧ ¬ t.Covers ⟨0x80, 0x280⟩ := by
  have hentered : (afterCalls overlappingCalls).toOption.map (fun t =>
      (t.addAvailable 0x80000 0x200000).answer) = some (.ok (.ok true)) := by decide +kernel
  cases ht : afterCalls overlappingCalls with
  | error e =>
    rw [ht] at hentered
    cases hentered
  | ok t =>
    rw [ht] at hentered
    have hok : (t.addAvailable 0x80000 0x200000).answer = .ok (.ok true) := Option.some.inj hentered
    obtain ⟨⟨turns, hturns, hlength, -⟩, -, hcovers⟩ := gap_search_exact ht 0x80000 0x200000
    obtain ⟨hfull, -⟩ | ⟨b, hb, hafter, hbefore⟩ := hcovers _ hok
    · cases hfull
    · cases hb
      exact ⟨t, turns, rfl, hturns, hlength, hok, hafter, hbefore.mp rfl⟩

/-- Pages that lie in no region, but the answer is not that some were added: those that are cut off a region by reserving
them and entered again count twice, and the total gets too large for a word; or all slots are in use. -/
theorem uncovered_pages_not_added :
    (∃ t, afterCalls [.addAvailable 0 0xFFFFFFFFFFFFFFFF, .reserve ⟨0⟩ ⟨0x8000000000000000⟩] = .ok t ∧ ¬ t.Full ∧
      ¬ t.Covers (Span.within 0 0x8000000000000000) ∧
      (t.addAvailable 0 0x8000000000000000).answer = .error .addOverflow) ∧
    ∃ t, afterCalls crowdedCalls = .ok t ∧ ¬ t.Covers (Span.within 0x10000000 0x4000) ∧
      (t.addAvailable 0x10000000 0x4000).answer = .ok (.error .full) := by
  constructor
  · have hrun : afterCalls [.addAvailable 0 0xFFFFFFFFFFFFFFFF, .reserve ⟨0⟩ ⟨0x8000000000000000⟩] =
        .ok ⟨[⟨⟨0x8000000000000, 0xFFFFFFFFFFFFF⟩, .available⟩], 0xFFFFFFFFFFFFF, 0x8000000000000⟩ := by decide +kernel
    refine ⟨_, hrun, by decide, fun hcovers => ?_, by decide +kernel⟩
    obtain ⟨r, hr, hp⟩ := hcovers 0 (by decide)
    cases List.mem_singleton.mp hr
    exact absurd hp (by decide)
  · have hcrowded : (afterCalls crowdedCalls).toOption.map (fun t =>
        decide (∃ r ∈ t.regions, 0x10000 ∈ r.span) || (t.addAvailable 0x10000000 0x4000).answer != .ok (.error .full)) =
        some false := by decide +kernel
    cases ht : afterCalls crowdedCalls with
    | error e =>
      rw [ht] at hcrowded
      cases hcrowded
    | ok t =>
      rw [ht] at hcrowded
      obtain ⟨hfree, hanswer⟩ := Bool.or_eq_false_iff.mp (Option.some.inj hcrowded)
      exact ⟨t, rfl, fun hcovers => of_decide_eq_false hfree (hcovers 0x10000 (by decide)), by simpa using hanswer⟩

end Nucleus.Memory.RegionTable
