import Nucleus.Proofs.Paging.HeapRanges

/-!
Which tables a release gives back. Between two pages some tables may be empty that are looked at later: those on the
way to the next page. Looking at the tables on the way to a page puts an end to the empty ones there. A lowest table is
looked at when its last page was released, and the loop knows this by the address that follows, which is the first of
a table only if the range starts with a page. Otherwise only the tables of the last page are looked at, and the lowest
tables of the pages before it stay linked if they got empty.
-/

namespace Nucleus.Paging

open Memory Relation

/-! ### Empty tables -/

/-- Each table below the root holds an entry. -/
def TablesUsed (s : Store) (root : PhysAddr) : Prop :=
  ∀ l < Level.root, ∀ n t, tableAt s root l n = some t → ¬ TableEmpty s.ram t

/-- The empty tables below the root are among those that `left` names by level and number. -/
def View.EmptyAmong (V : View) (left : Nat → Nat → Prop) : Prop := ∀ l < Level.root, ∀ n, V.Empty l n → left l n

section Empties

variable {s : Store} {V V' : View} {v : VirtAddr} {left : Nat → Nat → Prop}

lemma Depicts.empty_of_tableAt (h : Depicts s V) {l n : Nat} {t : PhysAddr} (hl : l ≤ Level.root)
    (ht : tableAt s V.root l n = some t) (he : TableEmpty s.ram t) : V.Empty l n := by
  rw [(h.table?_and_word hl n).1] at ht
  refine ⟨by rw [ht]; exact Option.some_ne_none t, fun i hi => ?_⟩
  rw [← h.words hl ht i hi]
  exact he i hi

lemma Depicts.tableAt_of_empty (h : Depicts s V) {l n : Nat} (hl : l ≤ Level.root) (he : V.Empty l n) :
    ∃ t, tableAt s V.root l n = some t ∧ TableEmpty s.ram t := by
  obtain ⟨t, ht⟩ := Option.ne_none_iff_exists'.mp he.1
  exact ⟨t, (h.table?_and_word hl n).1.trans ht, fun i hi => (h.words hl ht i hi).trans (he.2 i hi)⟩

lemma Depicts.tablesUsed_iff (h : Depicts s V) : TablesUsed s V.root ↔ V.EmptyAmong fun _ _ => False := by
  constructor
  · intro hu l hl n he
    obtain ⟨t, ht, hempty⟩ := h.tableAt_of_empty (Nat.le_of_lt hl) he
    exact hu l hl n t ht hempty
  · exact fun hu l hl n t ht hempty => hu l hl n (h.empty_of_tableAt (Nat.le_of_lt hl) ht hempty)

lemma View.EmptyAmong.releasePage (h : V.EmptyAmong left) :
    (V.releasePage v).EmptyAmong fun l n => left l n ∨ l = 0 ∧ n = index 1 v := by
  intro l hl n he
  have he' : (V.setWord 0 (index 0 v) 0).Empty l n := he
  rcases View.of_empty_setWord_zero (Nat.zero_le _) he' with ⟨rfl, rfl⟩ | he
  · exact .inr ⟨rfl, (index_succ 0 v).symm⟩
  · exact .inl (h l hl n he)

/-- Giving back the empty tables on the way to an address leaves those elsewhere. -/
lemma View.EmptyAmong.shrinks (h : V.EmptyAmong left) (st : Shrinks v V V')
    (way : ∀ l < Level.root, ¬ V'.Empty l (index (l + 1) v)) :
    V'.EmptyAmong fun l n => left l n ∧ n ≠ index (l + 1) v := by
  intro l hl n he
  have hne : n ≠ index (l + 1) v := by
    rintro rfl
    exact way l hl he
  refine ⟨h l hl n ?_, hne⟩
  clear way
  induction st with
  | refl => exact he
  | tail _ st ih => exact ih ((st.of_empty he).resolve_left hne)

end Empties

/-! ### The loop -/

/-- Each page that is not installed has a frame of its own, and the empty tables below the root are among `left`. -/
def OnlyEmpty (root : PhysAddr) (installed : Nat → Prop) (left : Nat → Nat → Prop) (s : Store) : Prop :=
  ∃ V, V.root = root ∧ Shows s V ∧ SoleFrames installed V ∧ V.EmptyAmong left

section Loop

variable {root : PhysAddr} {installed : Nat → Prop} {left left' : Nat → Nat → Prop} {s : Store} {v start : VirtAddr}
  {count : Nat}

/-- What each page keeps up, for the page itself and for giving back the tables on its way, a release keeps up. -/
lemma releaseFrom_rule {I : Nat → Store → Prop} {i n : Nat}
    (fits : ∀ k, i ≤ k → k < i + n → start.toNat + k * pageSize < 2 ^ 64)
    (page : ∀ k t, i ≤ k → k < i + n → I k t → Ends (releaseOne root (pageAt start k)) t fun _ t' =>
      if k + 1 = i + n ∨ EndsTable (pageAt start k) then
        Ends (reclaim root (pageAt start k)) t' fun _ u => I (k + 1) u
      else I (k + 1) t')
    (h : I i s) : Ends (releaseFrom root start i n) s fun _ s' => I (i + n) s' := by
  induction n generalizing i s with
  | zero => exact ends_pure h
  | succ n ih =>
    have hlast : i + 1 = i + (n + 1) ↔ n = 0 := by omega
    have hnext : i + (n + 1) = i + 1 + n := by omega
    have hrest : ∀ t, I (i + 1) t → Ends (releaseFrom root start (i + 1) n) t fun _ s' => I (i + (n + 1)) s' := by
      rw [hnext] at fits page ⊢
      exact fun t ht => ih (fun k hik => fits k (by omega)) (fun k t hik => page k t (by omega)) ht
    rw [releaseFrom, ends_check_bind (pageFrom_eq (fits i (Nat.le_refl i) (by omega)))]
    refine Ends.bind (page i s (Nat.le_refl i) (by omega) h) ?_
    intro _ t ht
    by_cases hend : n = 0 ∨ EndsTable (pageAt start i)
    · rw [if_pos (hend.imp_left hlast.mpr)] at ht
      rw [if_pos hend]
      exact Ends.bind ht fun _ u hu => hrest u hu
    · rw [if_neg fun hc => hend (hc.imp_left hlast.mp)] at ht
      rw [if_neg hend]
      exact hrest t ht

namespace OnlyEmpty

lemma mono (h : OnlyEmpty root installed left s) (hl : ∀ l n, left l n → left' l n) :
    OnlyEmpty root installed left' s := by
  obtain ⟨V, hroot, hs, hsole, hempty⟩ := h
  exact ⟨V, hroot, hs, hsole, fun l hlt n he => hl l n (hempty l hlt n he)⟩

lemma of_tableAt (h : OnlyEmpty root installed left s) {l n : Nat} {t : PhysAddr} (hl : l < Level.root)
    (ht : tableAt s root l n = some t) (he : TableEmpty s.ram t) : left l n := by
  obtain ⟨V, rfl, hs, -, hempty⟩ := h
  exact hempty l hl n (hs.empty_of_tableAt (Nat.le_of_lt hl) ht he)

/-- **Releasing a page** leaves at most its lowest table empty. -/
lemma releaseOne_ends (h : OnlyEmpty root installed left s) (hi : ¬ installed (index 0 v)) :
    Ends (releaseOne root v) s fun _ => OnlyEmpty root installed fun l n => left l n ∨ l = 0 ∧ n = index 1 v := by
  obtain ⟨V, rfl, hs, hsole, hempty⟩ := h
  refine (hs.releaseOne_ends fun hp => hsole.loose _ hi hp).mono ?_
  rintro _ s' (⟨hs', -⟩ | ⟨-, -, hs'⟩)
  · exact ⟨V, rfl, hs', hsole, fun l hl n he => .inl (hempty l hl n he)⟩
  · exact ⟨V.releasePage v, rfl, hs', hsole.releasePage fun _ => hi, hempty.releasePage⟩

/-- **Looking at the tables** on the way to a page leaves none of them empty. -/
lemma reclaim_ends (h : OnlyEmpty root installed left s) :
    Ends (reclaim root v) s fun _ => OnlyEmpty root installed fun l n => left l n ∧ n ≠ index (l + 1) v := by
  obtain ⟨V, rfl, hs, hsole, hempty⟩ := h
  refine (hs.reclaim_ends hsole.plain.nullInUse).mono ?_
  rintro _ s' ⟨V', hst, hs', hway, -⟩
  exact ⟨V', hst.keepsPages.root, hs', hsole.shrinks hst, hempty.shrinks hst (hway hsole.plain.not_barred)⟩

section FromUsed

variable (h : OnlyEmpty root installed (fun _ _ => False) s) (fits : ∀ j < count, v.toNat + j * pageSize < 2 ^ 64)
  (own : ∀ n, OnPages v 0 count n → ¬ installed n)

include h fits own

/-- **Releasing pages**, where `left k` are the tables that may be empty before page number `k` is released: each page
may add its lowest table to them, and looking at the tables on its way takes these out. -/
lemma release_ends (left : Nat → Nat → Nat → Prop)
    (next : ∀ k < count, ∀ l n, left k l n ∨ l = 0 ∧ n = index 1 (pageAt v k) →
      (k + 1 = count ∨ EndsTable (pageAt v k) → n ≠ index (l + 1) (pageAt v k)) → left (k + 1) l n) :
    Ends (release root v count) s fun _ => OnlyEmpty root installed (left count) := by
  rw [← Nat.zero_add count] at fits own next ⊢
  have hstart : OnlyEmpty root installed (left 0) s := h.mono fun _ _ => False.elim
  have hpage : ∀ k t, 0 ≤ k → k < 0 + count → OnlyEmpty root installed (left k) t →
      Ends (releaseOne root (pageAt v k)) t fun _ t' => if k + 1 = 0 + count ∨ EndsTable (pageAt v k) then
        Ends (reclaim root (pageAt v k)) t' fun _ => OnlyEmpty root installed (left (k + 1))
      else OnlyEmpty root installed (left (k + 1)) t' := by
    intro k t _ hk ht
    refine (ht.releaseOne_ends (own _ ⟨k, Nat.zero_le k, hk, rfl⟩)).mono fun _ t' ht' => ?_
    by_cases hend : k + 1 = 0 + count ∨ EndsTable (pageAt v k)
    · rw [if_pos hend]
      refine ht'.reclaim_ends.mono fun _ u hu => hu.mono ?_
      rintro l n ⟨hleft, hne⟩
      exact next k hk l n hleft fun _ => hne
    · rw [if_neg hend]
      exact ht'.mono fun l n hleft => next k hk l n hleft fun hend' => absurd hend' hend
  have hrule := releaseFrom_rule (I := fun k => OnlyEmpty root installed (left k)) (fun k _ => fits k) hpage hstart
  rwa [Nat.zero_add] at hrule ⊢

/-- Only lowest tables of pages before the last one can be empty after a release, and not the one of the last page. -/
lemma release_lowest : Ends (release root v count) s fun _ => OnlyEmpty root installed fun l n =>
    l = 0 ∧ n ≠ index 1 (pageAt v (count - 1)) ∧ ∃ j < count, n = index 1 (pageAt v j) := by
  refine (h.release_ends fits own (fun k l n => l = 0 ∧ (k = count → n ≠ index 1 (pageAt v (count - 1))) ∧
    ∃ j < k, n = index 1 (pageAt v j)) ?_).mono fun _ s' h' => h'.mono ?_
  · intro k hk l n hleft hlooked
    obtain ⟨rfl, hpage⟩ : l = 0 ∧ ∃ j < k + 1, n = index 1 (pageAt v j) := by
      rcases hleft with ⟨hl, -, j, hj, hn⟩ | ⟨hl, hn⟩
      · exact ⟨hl, j, by omega, hn⟩
      · exact ⟨hl, k, Nat.lt_succ_self k, hn⟩
    refine ⟨rfl, fun hlast => ?_, hpage⟩
    rw [← hlast]
    exact hlooked (.inl hlast)
  · rintro l n ⟨h0, hlast, hpage⟩
    exact ⟨h0, hlast rfl, hpage⟩

/-- In a range that starts with a page, all empty tables are on the way to the next page, or none are left. -/
lemma release_aligned (haligned : v.PageAligned) :
    Ends (release root v count) s fun _ => OnlyEmpty root installed fun _ _ => False := by
  refine (h.release_ends fits own (fun k l n => k < count ∧ n = index (l + 1) (pageAt v k)) ?_).mono
    fun _ s' h' => h'.mono ?_
  · intro k hk l n hleft hlooked
    have hn : n = index (l + 1) (pageAt v k) := by
      rcases hleft with ⟨-, hn⟩ | ⟨rfl, hn⟩
      · exact hn
      · exact hn
    -- the loop goes on without looking inside of a lowest table only, where the way to the next page is the same
    have hgo : ¬ (k + 1 = count ∨ EndsTable (pageAt v k)) := fun hend => hlooked hend hn
    obtain ⟨hlast, hin⟩ := not_or.mp hgo
    have hnext : k + 1 < count := by omega
    exact ⟨hnext, hn.trans (index_pageAt_succ haligned (fits (k + 1) hnext) hin l).symm⟩
  · rintro l n ⟨hlt, -⟩
    exact Nat.lt_irrefl count hlt

end FromUsed

end OnlyEmpty

/-- The entries of all pages after a release: those of the range are unused, and the others are as before. -/
lemma SoleFrames.release_pages {V : View} (h : SoleFrames installed V) (hs : Shows s V)
    (fits : ∀ j < count, v.toNat + j * pageSize < 2 ^ 64) (own : ∀ n, OnPages v 0 count n → ¬ installed n) :
    Ends (release V.root v count) s fun _ s' =>
      (∀ j < count, ∀ e, entry? s' V.root (pageAt v j) = some e → e.Unused) ∧
      ∀ n, ¬ OnPages v 0 count n → wordAt s' V.root 0 n = wordAt s V.root 0 n := by
  rw [← Nat.zero_add count] at fits own
  refine (h.releaseFrom_ends hs (fun k _ => fits k) fun n hn _ => own n hn).mono ?_
  rintro _ s' ⟨V', hs', -, hset⟩
  rw [Nat.zero_add] at hset
  rw [← hset.root]
  refine ⟨fun j hj e he => ?_, fun n hn => ?_⟩
  · obtain ⟨-, rfl⟩ := hs'.entry?_eq_some.mp he
    exact hset.set _ ⟨j, Nat.zero_le j, hj, rfl⟩
  · rw [(hs'.table?_and_word (Nat.zero_le _) n).2, hset.kept n hn, hset.root,
      (hs.table?_and_word (Nat.zero_le _) n).2]

end Loop

/-! ### Releases in a run -/

section Runs

variable {root : PhysAddr} {s₀ s s' : Store} {V : View} {h₀ h h' : Heap} {given : List (VirtAddr × Nat)}
  {a b v : VirtAddr} {count : Nat}

lemma tablesUsed_of_zeroed (hz : TableEmpty s.ram root) : TablesUsed s root := fun _ hl _ _ ht =>
  absurd (tableAt_of_zeroed hz (Nat.le_of_lt hl) ht).1 (Nat.ne_of_lt hl)

lemma Shows.tablesUsed_tryReserve (hs : Shows s V) (used : TablesUsed s V.root)
    (step : tryReserve V.root h count s = .ok (.ok v, h') s') : TablesUsed s' V.root := by
  obtain ⟨hfits, -, -, s₁, hmark, rfl⟩ := tryReserve_ok step
  obtain ⟨V', -, hroot, hs', -, hempty⟩ := hs.markFrom_spends (fun k hk => hfits.page (by omega)) hmark
  rw [← hroot]
  refine ((hs'.emit rfl).tablesUsed_iff).mpr fun l hl n he => ?_
  exact hs.tablesUsed_iff.mp used l hl n (hempty l hl n he)

/-- **A release returns the tables that it empties, if it starts with a page.** For every start the pages have no
entries afterwards, and no entry of another page changes. Where the start is inside of a page, the tables that stay
linked although they are empty are lowest tables of pages before the last one, and the lowest table of the last page is
none of them. -/
theorem release_returns_emptied_tables {fs : List PhysAddr} (below : s₀.frames.mapped.stop.toNat ≤ 2 ^ 52)
    (aligned : root.PageAligned) (zeroed : TableEmpty s₀.ram root) (free : FreeFrames s₀ fs) (apart : root ∉ fs)
    (heap : Heap.new a b = .ok h₀) (run : HeapRun root s₀ h₀ s h given) (used : TablesUsed s root)
    (fits : ∀ j < count, v.toNat + j * pageSize < 2 ^ 64) :
    Ends (release root v count) s fun _ s' =>
      (∀ j < count, ∀ e, entry? s' root (pageAt v j) = some e → e.Unused) ∧
      (∀ n, ¬ OnPages v 0 count n → wordAt s' root 0 n = wordAt s root 0 n) ∧
      (v.PageAligned → TablesUsed s' root) ∧
      ∀ l < Level.root, ∀ n t, tableAt s' root l n = some t → TableEmpty s'.ram t →
        l = 0 ∧ n ≠ index 1 (pageAt v (count - 1)) ∧ ∃ j < count, n = index 1 (pageAt v j) := by
  obtain ⟨V, rfl, hs, h'⟩ := run.shows below aligned zeroed free apart heap
  have hown : ∀ n, OnPages v 0 count n → ¬ False := fun _ _ => id
  have honly : OnlyEmpty V.root (fun _ => False) (fun _ _ => False) s :=
    ⟨V, rfl, hs, h'.toSoleFrames, hs.tablesUsed_iff.mp used⟩
  obtain ⟨_, s', hrelease, ⟨hunused, hkept⟩, hlowest⟩ :=
    (h'.toSoleFrames.release_pages hs fits hown).and (honly.release_lowest fits hown)
  refine ⟨_, s', hrelease, hunused, hkept, fun hpage l hl n t ht => ?_, fun l hl n t ht => hlowest.of_tableAt hl ht⟩
  exact ((honly.release_aligned fits hown hpage).elim hrelease).of_tableAt hl ht

end Runs

/-- Two pages on both sides of the end of a lowest table, which are handed out and then released from inside of the
first one on. -/
lemma sixFrames_straddled : ∃ s s' t,
    HeapRun ⟨0x1000⟩ sixFrames ⟨⟨0x401ff000⟩, ⟨0x50000000⟩⟩ s ⟨⟨0x40201000⟩, ⟨0x50000000⟩⟩ [(⟨0x401ff000⟩, 2)] ∧
      s.frames.count = 2 ∧ TablesUsed s ⟨0x1000⟩ ∧ release ⟨0x1000⟩ ⟨0x401ff800⟩ 2 s = .ok () s' ∧
      tableAt s' ⟨0x1000⟩ 0 0x200 = some t ∧ TableEmpty s'.ram t := by
  have hruns : (do
      let r ← tryReserve ⟨0x1000⟩ ⟨⟨0x401ff000⟩, ⟨0x50000000⟩⟩ 2
      let s ← get
      release ⟨0x1000⟩ ⟨0x401ff800⟩ 2
      let s' ← get
      return (r, s.frames.count, (tableAt s' ⟨0x1000⟩ 0 0x200).map fun t => decide (TableEmpty s'.ram t)) :
        StoreM _).run' sixFrames =
      some ((.ok ⟨0x401ff000⟩, ⟨⟨0x40201000⟩, ⟨0x50000000⟩⟩), 2, some true) := by decide +kernel
  obtain ⟨_, hrun⟩ := eq_ok_of_run' hruns
  obtain ⟨r, s, hreserve, hrun⟩ := of_bind_eq_ok hrun
  obtain ⟨_, _, hget, hrun⟩ := of_bind_eq_ok hrun
  cases hget
  obtain ⟨_, s', hrelease, hrun⟩ := of_bind_eq_ok hrun
  obtain ⟨_, _, hget, hrun⟩ := of_bind_eq_ok hrun
  cases hget
  injection hrun with hanswer
  obtain ⟨rfl, hrest⟩ := Prod.mk.inj hanswer
  obtain ⟨hcount, hleft⟩ := Prod.mk.inj hrest
  obtain ⟨t, ht, hempty⟩ := Option.map_eq_some_iff.mp hleft
  have hs := Shows.zeroed (s := sixFrames) (by decide) (by decide) tableEmpty_sixFrames freeFrames_sixFrames (by decide)
  exact ⟨s, s', t, HeapRun.start.tryReserve hreserve, hcount,
    hs.tablesUsed_tryReserve (tablesUsed_of_zeroed tableEmpty_sixFrames) hreserve, hrelease, ht,
    of_decide_eq_true hempty⟩

/-- Released from their first address on, the two pages give both of their tables back. -/
theorem release_returns_emptied_tables_two_lowest : ∃ s,
    HeapRun ⟨0x1000⟩ sixFrames ⟨⟨0x401ff000⟩, ⟨0x50000000⟩⟩ s ⟨⟨0x40201000⟩, ⟨0x50000000⟩⟩ [(⟨0x401ff000⟩, 2)] ∧
      s.frames.count = 2 ∧ TablesUsed s ⟨0x1000⟩ ∧
      Ends (release ⟨0x1000⟩ ⟨0x401ff000⟩ 2) s fun _ s' => TablesUsed s' ⟨0x1000⟩ := by
  have hheap : Heap.new ⟨0x401ff000⟩ ⟨0x50000000⟩ = .ok ⟨⟨0x401ff000⟩, ⟨0x50000000⟩⟩ := by decide +kernel
  have hfits : ∀ j < 2, (⟨0x401ff000⟩ : VirtAddr).toNat + j * pageSize < 2 ^ 64 := by decide
  obtain ⟨s, -, -, hrun, hcount, hused, -⟩ := sixFrames_straddled
  refine ⟨s, hrun, hcount, hused, ?_⟩
  refine (release_returns_emptied_tables (by decide) (by decide) tableEmpty_sixFrames freeFrames_sixFrames (by decide)
    hheap hrun hused hfits).mono ?_
  rintro _ s' ⟨-, -, hpage, -⟩
  exact hpage (by decide)

/-- Released from inside of the first page on, they do not: the table of the first page stays linked, and is empty. -/
theorem unaligned_release_leaves_empty_table : ∃ s,
    HeapRun ⟨0x1000⟩ sixFrames ⟨⟨0x401ff000⟩, ⟨0x50000000⟩⟩ s ⟨⟨0x40201000⟩, ⟨0x50000000⟩⟩ [(⟨0x401ff000⟩, 2)] ∧
      TablesUsed s ⟨0x1000⟩ ∧ (∀ j < 2, (⟨0x401ff800⟩ : VirtAddr).toNat + j * pageSize < 2 ^ 64) ∧
      ¬ Ends (release ⟨0x1000⟩ ⟨0x401ff800⟩ 2) s fun _ s' => TablesUsed s' ⟨0x1000⟩ := by
  obtain ⟨s, s', t, hrun, -, hused, hrelease, htable, hempty⟩ := sixFrames_straddled
  exact ⟨s, hrun, hused, by decide, fun hends => hends.elim hrelease 0 (by decide) 0x200 t htable hempty⟩

end Nucleus.Paging
