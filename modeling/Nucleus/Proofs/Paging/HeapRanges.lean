import Mathlib.Order.Interval.Set.Basic
import Nucleus.Proofs.Paging.Observed
import Nucleus.Proofs.Paging.Overwriting

/-!
What the heap hands out over a whole run. The break only moves up, and it moves when a reservation succeeds, by the
pages that are handed out then; so no address is handed out twice, whatever is released in between. A reservation that
succeeds takes frames for tables only: each frame that it takes is a table afterwards.
-/

namespace Nucleus.Paging

open Memory Relation

/-! ### Operations that end -/

section Endings

variable {root : PhysAddr} {start v : VirtAddr} {h h' : Heap} {i n count : Nat} {s s' : Store}

lemma Heap.Fits.page (hf : h.Fits count) {k : Nat} (hk : k < count) : h.brk.toNat + k * pageSize < 2 ^ 64 := by
  have hle : k * pageSize ≤ count * pageSize := Nat.mul_le_mul_right _ (Nat.le_of_lt hk)
  exact Nat.lt_of_le_of_lt (Nat.add_le_add_left hle _) hf.2.1

lemma eq_ok_of_check {α : Type} {c : Checked α} {a : α} (h : Store.check c s = .ok a s') : c = .ok a ∧ s' = s := by
  cases c with
  | error e => cases h
  | ok b =>
    cases h
    exact ⟨rfl, rfl⟩

lemma fits_of_pageFrom (hi : i < 2 ^ 64) (h : pageFrom start i = .ok v) : start.toNat + i * pageSize < 2 ^ 64 := by
  have hnat : (UInt64.ofNat i).toNat = i := UInt64.toNat_ofNat_of_lt' hi
  have hmul : (UInt64.ofNat i).toNat * (UInt64.ofNat pageSize).toNat = i * pageSize := by
    rw [hnat]
    rfl
  unfold pageFrom Word.mul at h
  rw [hmul] at h
  by_cases hm : i * pageSize < 0x10000000000000000
  · have hprod : (UInt64.ofNat i * UInt64.ofNat pageSize).toNat = i * pageSize := by
      rw [UInt64.toNat_mul, hmul]
      exact Nat.mod_eq_of_lt hm
    rw [if_pos hm] at h
    by_contra hsum
    have hadd : start.add (UInt64.ofNat i * UInt64.ofNat pageSize) = .error .addOverflow := by
      unfold Addr.add Word.add
      rw [hprod, if_neg (show ¬ start.word.toNat + i * pageSize < 0x10000000000000000 from hsum)]
      rfl
    have h' : start.add (UInt64.ofNat i * UInt64.ofNat pageSize) = .ok v := h
    rw [hadd] at h'
    cases h'
  · rw [if_neg hm] at h
    cases h

/-- Where pages were released, all of them have addresses. -/
lemma fits_of_releaseFrom (hi : i < 2 ^ 64) (h : releaseFrom root start i n s = .ok () s') :
    ∀ k, i ≤ k → k < i + n → start.toNat + k * pageSize < 2 ^ 64 := by
  induction n generalizing i s with
  | zero =>
    intro k hik hki
    omega
  | succ n ih =>
    rw [releaseFrom] at h
    obtain ⟨v, s₁, hv, h₁⟩ := of_bind_eq_ok h
    obtain ⟨_, s₂, -, h₂⟩ := of_bind_eq_ok h₁
    have hfit := fits_of_pageFrom hi (eq_ok_of_check hv).1
    have hnext : i + 1 < 2 ^ 64 := by
      unfold pageSize at hfit
      omega
    have hrest : ∀ k, i + 1 ≤ k → k < i + 1 + n → start.toNat + k * pageSize < 2 ^ 64 := by
      by_cases hend : n = 0 ∨ EndsTable v
      · rw [if_pos hend] at h₂
        obtain ⟨_, s₃, -, h₃⟩ := of_bind_eq_ok h₂
        exact ih hnext h₃
      · rw [if_neg hend] at h₂
        exact ih hnext h₂
    intro k hik hki
    rcases Nat.lt_or_eq_of_le hik with hlt | rfl
    · exact hrest k hlt (by omega)
    · exact hfit

/-- **What a reservation does**: it is refused, or it marks its pages, and if that succeeds, the break moves behind them. -/
lemma tryReserve_cases {r : Except ReserveError VirtAddr × Heap} (step : tryReserve root h count s = .ok r s') :
    (count = 0 ∧ r = (.error .nothing, h) ∧ s' = s) ∨
    (0 < count ∧ ¬ h.Fits count ∧ r = (.error .windowExhausted, h) ∧ s' = s) ∨
    (0 < count ∧ h.Fits count ∧ ∃ e, markFrom root h.brk 0 count s = .ok (.error e) s' ∧ r = (.error (.map e), h)) ∨
    (0 < count ∧ h.Fits count ∧ r = (.ok h.brk, { h with brk := pageAt h.brk count }) ∧
      ∃ s₁, markFrom root h.brk 0 count s = .ok (.ok ()) s₁ ∧
        s' = { s₁ with events := s₁.events.push (.reserved count h.brk) }) := by
  unfold tryReserve at step
  by_cases hcount : count = 0
  · rw [if_pos hcount] at step
    cases step
    exact .inl ⟨hcount, rfl, rfl⟩
  rw [if_neg hcount] at step
  have hpos := Nat.pos_of_ne_zero hcount
  by_cases hfits : ¬ h.Fits count
  · rw [if_pos hfits] at step
    cases step
    exact .inr (.inl ⟨hpos, hfits, rfl, rfl⟩)
  rw [if_neg hfits] at step
  have hfits := not_not.mp hfits
  obtain ⟨marked, s₁, hmark, hrest⟩ := of_bind_eq_ok step
  cases marked with
  | error e =>
    cases hrest
    exact .inr (.inr (.inl ⟨hpos, hfits, e, hmark, rfl⟩))
  | ok _ =>
    dsimp only at hrest
    rw [pageFrom_eq hfits.2.1] at hrest
    cases hrest
    exact .inr (.inr (.inr ⟨hpos, hfits, rfl, s₁, hmark, rfl⟩))

lemma tryReserve_ok (step : tryReserve root h count s = .ok (.ok v, h') s') :
    h.Fits count ∧ v = h.brk ∧ h' = { h with brk := pageAt h.brk count } ∧
      ∃ s₁, markFrom root h.brk 0 count s = .ok (.ok ()) s₁ ∧
        s' = { s₁ with events := s₁.events.push (.reserved count h.brk) } := by
  rcases tryReserve_cases step with ⟨-, he, -⟩ | ⟨-, -, he, -⟩ | ⟨-, -, e, -, he⟩ | ⟨-, hfits, he, hmark⟩
  · cases he
  · cases he
  · cases he
  · cases he
    exact ⟨hfits, rfl, rfl, hmark⟩

lemma tryReserve_error {e : ReserveError} (step : tryReserve root h count s = .ok (.error e, h') s') : h' = h := by
  rcases tryReserve_cases step with ⟨-, he, -⟩ | ⟨-, -, he, -⟩ | ⟨-, -, _, -, he⟩ | ⟨-, -, he, -⟩
  · cases he
    rfl
  · cases he
    rfl
  · cases he
    rfl
  · cases he

/-- The two reasons to refuse a reservation before anything is done. -/
lemma tryReserve_refusal {r : Except ReserveError VirtAddr × Heap} (step : tryReserve root h count s = .ok r s') :
    (r.1 = .error .nothing ↔ count = 0) ∧
      (r.1 = .error .windowExhausted ↔ 0 < count ∧ h.stop.toNat < h.brk.toNat + count * pageSize) := by
  have hexact : h.stop.toNat < h.brk.toNat + count * pageSize ↔ ¬ h.Fits count := by
    have hstop := h.stop.toNat_lt
    unfold Heap.Fits
    omega
  rw [hexact]
  rcases tryReserve_cases step with ⟨h0, rfl, -⟩ | ⟨hpos, hfits, rfl, -⟩ | ⟨hpos, hfits, e, -, rfl⟩ |
    ⟨hpos, hfits, rfl, -⟩
  · simp [h0]
  · simp [hfits, hpos, Nat.ne_of_gt hpos]
  · simp [hfits, Nat.ne_of_gt hpos]
  · simp [hfits, Nat.ne_of_gt hpos]

lemma markFrom_ok (hv : pageFrom start i = .ok v) (step : markFrom root start i (n + 1) s = .ok (.ok ()) s') :
    ∃ a s₁ s₂, leafOrCreate root v s = .ok (.ok a) s₁ ∧ setEntry a pendingEntry s₁ = .ok () s₂ ∧
      markFrom root start (i + 1) n s₂ = .ok (.ok ()) s' := by
  rw [markFrom, hv] at step
  obtain ⟨r, s₁, hleaf, hrest⟩ := of_bind_eq_ok (show (leafOrCreate root v >>= _) s = _ from step)
  cases r with
  | error e =>
    obtain ⟨_, s₂, -, hrest⟩ := of_bind_eq_ok hrest
    obtain ⟨_, s₃, -, hrest⟩ := of_bind_eq_ok hrest
    cases hrest
  | ok a =>
    obtain ⟨_, s₂, hset, hrest⟩ := of_bind_eq_ok hrest
    exact ⟨a, s₁, s₂, hleaf, hset, hrest⟩

end Endings

/-! ### Tables that are linked -/

/-- The page at `t` is a table below the root. -/
def Linked (s : Store) (root t : PhysAddr) : Prop := ∃ l < Level.root, ∃ n, tableAt s root l n = some t

def View.Linked (V : View) (t : PhysAddr) : Prop := ∃ l < Level.root, ∃ n, V.table? l n = some t

/-- Of the free frames the first ones, `made`, have become tables, and no other table was linked or cut off. -/
structure Spends (made : List PhysAddr) (V V' : View) : Prop where
  free : V.free = made ++ V'.free
  linked : ∀ t, V'.Linked t ↔ V.Linked t ∨ t ∈ made

section Tables

variable {s s' : Store} {V V₁ V₂ V' : View} {v start : VirtAddr} {made made' : List PhysAddr} {t : PhysAddr}

lemma Depicts.linked_iff (h : Depicts s V) : Linked s V.root t ↔ V.Linked t := by
  refine exists_congr fun l => and_congr_right fun hl => exists_congr fun n => ?_
  rw [(h.table?_and_word (Nat.le_of_lt hl) n).1]

lemma View.linked_setWord_zero (V : View) (n : Nat) (w : UInt64) : (V.setWord 0 n w).Linked t ↔ V.Linked t := by
  refine exists_congr fun l => and_congr_right fun _ => exists_congr fun m => ?_
  rw [View.table?_setWord (Nat.zero_le _), if_neg fun h => Nat.succ_ne_zero l h.1]

namespace Spends

lemma nothing (V : View) : Spends [] V V := ⟨rfl, fun _ => (or_iff_left (by simp)).symm⟩

lemma trans (h : Spends made V V₁) (h' : Spends made' V₁ V₂) : Spends (made ++ made') V V₂ := by
  refine ⟨?_, fun t => ?_⟩
  · rw [h.free, h'.free, List.append_assoc]
  · rw [h'.linked, h.linked, List.mem_append, or_assoc]

lemma setWord_zero (h : Spends made V V₁) (n : Nat) (w : UInt64) : Spends made V (V₁.setWord 0 n w) :=
  ⟨h.free, fun t => (V₁.linked_setWord_zero n w).trans (h.linked t)⟩

/-- The frames that have become tables are those that are linked now and were not before. -/
lemma mem_made (h : Spends made V V') (hs : Shows s V) : t ∈ made ↔ V'.Linked t ∧ ¬ V.Linked t := by
  rw [h.linked]
  constructor
  · refine fun ht => ⟨.inr ht, fun ⟨l, hl, n, hn⟩ => hs.apart (Nat.le_of_lt hl) hn ?_⟩
    rw [h.free]
    exact List.mem_append_left _ ht
  · exact fun ⟨hor, hnot⟩ => hor.resolve_left hnot

end Spends

lemma Links.spends (st : Links v V V') : ∃ f, Spends [f] V V' := by
  obtain @⟨l, f, fs, below, free, child, -, -, absent, -, -⟩ := st
  have htable := View.table?_setWord_succ (V := V) below (index (l + 1) v) (linkTo f).raw
  refine ⟨f, free, fun t => ?_⟩
  constructor
  · rintro ⟨k, hk, n, hn⟩
    have hn' := (htable k n).symm.trans hn
    split at hn'
    · have hft := Option.some.inj (child.symm.trans hn')
      exact .inr (List.mem_singleton.mpr hft.symm)
    · exact .inl ⟨k, hk, n, hn'⟩
  · rintro (⟨k, hk, n, hn⟩ | hm)
    · refine ⟨k, hk, n, (htable k n).trans ((if_neg ?_).trans hn)⟩
      rintro ⟨rfl, rfl⟩
      rw [Depicts.table?_of_absent below absent] at hn
      cases hn
    · rw [List.mem_singleton.mp hm]
      exact ⟨l, below, index (l + 1) v, (htable l _).trans ((if_pos ⟨rfl, rfl⟩).trans child)⟩

lemma Grows.spends (st : Grows v V V') : ∃ made, Spends made V V' := by
  induction st with
  | refl => exact ⟨[], .nothing V⟩
  | tail _ st ih =>
    obtain ⟨made, h⟩ := ih
    obtain ⟨f, h'⟩ := st.spends
    exact ⟨made ++ [f], h.trans h'⟩

lemma Grows.of_empty (st : Grows v V V') {k n : Nat} (he : V'.Empty k n) : n = index (k + 1) v ∨ V.Empty k n := by
  induction st with
  | refl => exact .inr he
  | tail _ st ih =>
    rcases st.of_empty he with rfl | he
    · exact .inl rfl
    · exact ih he

lemma Shows.of_empty_mark (hs : Shows s' (V₁.setWord 0 (index 0 v) pendingEntry.raw)) (hg : Grows v V V₁) {l n : Nat}
    (hl : l < Level.root) (he : (V₁.setWord 0 (index 0 v) pendingEntry.raw).Empty l n) : V.Empty l n := by
  have hpending : pendingEntry.raw ≠ 0 := by decide
  have hway : n ≠ index (l + 1) v := by
    rintro rfl
    refine hs.not_empty_on_way ?_ (Nat.le_of_lt hl) he
    rw [View.word_setWord, if_pos ⟨rfl, rfl⟩]
    exact hpending
  rcases View.of_empty_setWord (Nat.zero_le _) hpending he with ⟨h0, -⟩ | he
  · exact absurd h0 (Nat.succ_ne_zero l)
  · exact (hg.of_empty he).resolve_left hway

/-- **Marking pages** takes frames for tables only, and leaves none of these tables empty. -/
lemma Shows.markFrom_spends (hs : Shows s V) {i n : Nat} (fits : ∀ k < i + n, start.toNat + k * pageSize < 2 ^ 64)
    (step : markFrom V.root start i n s = .ok (.ok ()) s') : ∃ V' made, V'.root = V.root ∧ Shows s' V' ∧
      Spends made V V' ∧ ∀ l < Level.root, ∀ m, V'.Empty l m → V.Empty l m := by
  induction n generalizing i s V with
  | zero =>
    cases step
    exact ⟨V, [], rfl, hs, .nothing V, fun _ _ _ => id⟩
  | succ n ih =>
    obtain ⟨a, s₁, s₂, hleaf, hset, hrest⟩ := markFrom_ok (pageFrom_eq (fits i (by omega))) step
    obtain ⟨V₁, hg, hs₁, ha⟩ := hs.leafOrCreate_ends.elim hleaf
    obtain ⟨made, hspends⟩ := hg.spends
    have hs₂ := (hs₁.setEntry_leaf (ha a rfl) pendingEntry).elim hset
    rw [← hg.keepsPages.root] at hrest ⊢
    -- the page uses its tables before the next one is looked at, so the empty ones at the end were empty before
    obtain ⟨V', made', hroot, hs', hspends', hempty⟩ := ih hs₂ (fun k hk => fits k (by omega)) hrest
    refine ⟨V', made ++ made', hroot, hs', (hspends.setWord_zero _ _).trans hspends', fun l hl m he => ?_⟩
    exact hs₂.of_empty_mark hg hl (hempty l hl m he)

end Tables

/-! ### Runs -/

def addressesOf (v : VirtAddr) (count : Nat) : Set Nat := Set.Ico v.toNat (v.toNat + count * pageSize)

/-- A run of the heap from the store `s₀` and the heap `h₀` on, in which the pages `given` were handed out, the last
ones first. Pages can be released that were not handed out, or more than once. -/
inductive HeapRun (root : PhysAddr) (s₀ : Store) (h₀ : Heap) : Store → Heap → List (VirtAddr × Nat) → Prop where
  | start : HeapRun root s₀ h₀ s₀ h₀ []
  | tryReserve {s s' h h' given count v} (run : HeapRun root s₀ h₀ s h given)
      (step : tryReserve root h count s = .ok (.ok v, h') s') : HeapRun root s₀ h₀ s' h' ((v, count) :: given)
  | tryReserveFails {s s' h h' given count e} (run : HeapRun root s₀ h₀ s h given)
      (step : tryReserve root h count s = .ok (.error e, h') s') : HeapRun root s₀ h₀ s' h' given
  | release {s s' h given v count} (run : HeapRun root s₀ h₀ s h given)
      (step : release root v count s = .ok () s') : HeapRun root s₀ h₀ s' h given
  | resolveFault {s s' h given v r} (run : HeapRun root s₀ h₀ s h given)
      (step : resolveFault root v s = .ok r s') : HeapRun root s₀ h₀ s' h given

/-- The pages that were handed out follow one another, up to the break. -/
structure HandedOut (h₀ h : Heap) (given : List (VirtAddr × Nat)) : Prop where
  first : h₀.brk.toNat ≤ h.brk.toNat
  stop : h.stop = h₀.stop
  inside : ∀ r ∈ given, h₀.brk.toNat ≤ r.1.toNat ∧ r.1.toNat + r.2 * pageSize ≤ h.brk.toNat ∧
    r.1.toNat + r.2 * pageSize ≤ h₀.stop.toNat
  ordered : given.Pairwise fun r r' => r'.1.toNat + r'.2 * pageSize ≤ r.1.toNat

section Runs

variable {root : PhysAddr} {s₀ s : Store} {h₀ h : Heap} {given : List (VirtAddr × Nat)} {a b : VirtAddr} {count : Nat}

lemma HeapRun.shared (run : HeapRun root s₀ h₀ s h given) : SharedRun root s₀ h₀ s h fun _ => False := by
  induction run with
  | start => exact .start
  | tryReserve _ step ih =>
    have hrun := ih.tryReserve step
    simp only [false_and] at hrun
    exact hrun
  | tryReserveFails _ step ih => exact ih.tryReserveFails step
  | release _ step ih =>
    have hfits := fits_of_releaseFrom (by decide) step
    exact ih.release (fun j hj => hfits j (Nat.zero_le j) (by omega)) (fun _ _ => id) step
  | resolveFault _ step ih => exact ih.resolveFault step

lemma HandedOut.reserved (h' : HandedOut h₀ h given) (hf : h.Fits count) :
    HandedOut h₀ { h with brk := pageAt h.brk count } ((h.brk, count) :: given) := by
  obtain ⟨-, hend, hstop⟩ := hf
  have hbrk : (pageAt h.brk count).toNat = h.brk.toNat + count * pageSize := toNat_pageAt hend
  have hfirst := h'.first
  rw [h'.stop] at hstop
  refine ⟨?_, h'.stop, fun r hr => ?_, List.pairwise_cons.mpr ⟨fun r hr => (h'.inside r hr).2.1, h'.ordered⟩⟩
  · dsimp only
    omega
  · dsimp only
    rw [hbrk]
    rcases List.mem_cons.mp hr with rfl | hr
    · exact ⟨hfirst, Nat.le_refl _, hstop⟩
    · obtain ⟨hlow, hhigh, hlast⟩ := h'.inside r hr
      exact ⟨hlow, by omega, hlast⟩

lemma HeapRun.handedOut (run : HeapRun root s₀ h₀ s h given) : HandedOut h₀ h given := by
  induction run with
  | start => exact ⟨Nat.le_refl _, rfl, nofun, .nil⟩
  | tryReserve _ step ih =>
    obtain ⟨hf, rfl, rfl, -⟩ := tryReserve_ok step
    exact ih.reserved hf
  | tryReserveFails _ step ih =>
    obtain rfl := tryReserve_error step
    exact ih
  | release _ _ ih => exact ih
  | resolveFault _ _ ih => exact ih

lemma HandedOut.apart (h' : HandedOut h₀ h given) :
    given.Pairwise fun r r' => ∀ x ∈ addressesOf r.1 r.2, x ∉ addressesOf r'.1 r'.2 := by
  refine h'.ordered.imp fun {r r'} hle x hx hx' => ?_
  have hlow : r.1.toNat ≤ x := hx.1
  have hhigh : x < r'.1.toNat + r'.2 * pageSize := hx'.2
  omega

lemma Heap.bounds_of_new (heap : Heap.new a b = .ok h) : a.toNat ≤ h.brk.toNat ∧ h.stop.toNat ≤ b.toNat := by
  unfold Heap.new at heap
  cases ha : a.pageAbove with
  | error e =>
    rw [ha] at heap
    cases heap
  | ok first =>
    rw [ha] at heap
    cases heap
    have habove := Addr.toNat_pageAbove ha
    have hbase := b.toNat_pageBase
    unfold Addr.page at hbase
    unfold Span.pagesUp at habove
    unfold pageSize at *
    dsimp only
    omega

lemma HandedOut.subset (h' : HandedOut h₀ h given) (heap : Heap.new a b = .ok h₀) {r : VirtAddr × Nat}
    (hr : r ∈ given) : addressesOf r.1 r.2 ⊆ Set.Ico a.toNat b.toNat := by
  obtain ⟨hlow, -, hhigh⟩ := h'.inside r hr
  obtain ⟨hstart, hstop⟩ := Heap.bounds_of_new heap
  exact Set.Ico_subset_Ico (Nat.le_trans hstart hlow) (Nat.le_trans hhigh hstop)

/-- What a run of the heap keeps, from a zeroed root and a new window on. -/
lemma HeapRun.shows {fs : List PhysAddr} (below : s₀.frames.mapped.stop.toNat ≤ 2 ^ 52) (aligned : root.PageAligned)
    (zeroed : TableEmpty s₀.ram root) (free : FreeFrames s₀ fs) (apart : root ∉ fs) (heap : Heap.new a b = .ok h₀)
    (run : HeapRun root s₀ h₀ s h given) : ∃ V, V.root = root ∧ Shows s V ∧ Shared h₀ h (fun _ => False) V :=
  run.shared.shared ⟨_, rfl, .zeroed below aligned zeroed free apart, .zeroed zeroed (Heap.aligned_of_new heap)⟩

/-- What a reservation that succeeds comes to: the pages from the old break on wait for their first access, and each
frame that it took is a table that was not linked before. -/
structure Reserved (root : PhysAddr) (h : Heap) (count : Nat) (s s' : Store) (v : VirtAddr) (h' : Heap) : Prop where
  first : v = h.brk
  brk : h'.brk.toNat = h.brk.toNat + count * pageSize
  stop : h'.stop = h.stop
  waiting : ∀ i < count, ∃ e, entry? s' root (pageAt v i) = some e ∧ e.Demand ∧ e.Writable ∧ ¬ e.Present
  spent : ∃ made : List PhysAddr, s.frames.count = s'.frames.count + made.length ∧ made.Nodup ∧
    ∀ t, t ∈ made ↔ Linked s' root t ∧ ¬ Linked s root t

lemma Shows.spent {V V' : View} {s' : Store} {made : List PhysAddr} (hs : Shows s V) (hs' : Shows s' V')
    (hroot : V'.root = V.root) (hspends : Spends made V V') : s.frames.count = s'.frames.count + made.length ∧
      made.Nodup ∧ ∀ t, t ∈ made ↔ Linked s' V.root t ∧ ¬ Linked s V.root t := by
  refine ⟨?_, ?_, fun t => ?_⟩
  · rw [hs.free.count, hs'.free.count, hspends.free, List.length_append, Nat.add_comm]
  · have hnodup := hs.free.nodup
    rw [hspends.free] at hnodup
    exact (List.nodup_append.mp hnodup).1
  · rw [hspends.mem_made hs, ← hroot, hs'.linked_iff, hroot, hs.linked_iff]

lemma Shows.entry?_of_pending {V : View} {v : VirtAddr} (hs : Shows s V) (hp : Plain V)
    (hword : V.word 0 (index 0 v) = pendingEntry.raw) : entry? s V.root v = some pendingEntry := by
  refine hs.entry?_eq_some.mpr ⟨?_, congrArg Entry.mk hword⟩
  by_contra hnone
  have hzero := (hs.word_zero_of_no_leaf (not_exists.mp hnone)).resolve_left hp.not_barred
  rw [hword] at hzero
  exact absurd hzero (by decide)

/-- **A reservation** ends, leaves the break where it is if it fails, and moves it up if it succeeds. -/
lemma Shared.tryReserve_reserved {installed : Nat → Prop} {V : View} (h' : Shared h₀ h installed V) (hs : Shows s V)
    (count : Nat) : Ends (tryReserve V.root h count) s fun r s' => h.brk ≤ r.2.brk ∧
      (∀ e, r.1 = .error e → r.2 = h) ∧ ∀ v, r.1 = .ok v → Reserved V.root h count s s' v r.2 := by
  obtain ⟨r, s', step, V', hs', hsole, hcases⟩ := h'.toSoleFrames.tryReserve_ends hs h count
  refine ⟨r, s', step, ?_⟩
  rcases hcases with ⟨rfl, hfits, hset⟩ | ⟨⟨e, rfl⟩, -⟩
  · obtain ⟨-, -, -, s₁, hmark, rfl⟩ := tryReserve_ok step
    have hend := hfits.2.1
    have hbrk : (pageAt h.brk count).toNat = h.brk.toNat + count * pageSize := toNat_pageAt hend
    refine ⟨?_, nofun, ?_⟩
    · refine Addr.le_def.mpr ?_
      show h.brk.toNat ≤ (pageAt h.brk count).toNat
      omega
    rintro _ ⟨⟩
    refine ⟨rfl, hbrk, rfl, fun i hi => ?_, ?_⟩
    · refine ⟨pendingEntry, ?_, by decide, by decide, by decide⟩
      rw [← hset.root]
      exact hs'.entry?_of_pending hsole.plain (hset.set _ ⟨i, Nat.zero_le i, hi, rfl⟩)
    · obtain ⟨V₁, made, hroot, hs₁, hspends, -⟩ := hs.markFrom_spends (fun k hk => hfits.page (by omega)) hmark
      exact ⟨made, hs.spent (hs₁.emit rfl) hroot hspends⟩
  · exact ⟨Nat.le_refl _, fun _ _ => rfl, nofun⟩

/-- **No address is handed out twice.** Whatever is released in between, the ranges that the heap hands out have no
address in common and lie in the window. The break does not move down. A reservation ends for every number of pages, and
is refused at once if there are none or if they do not fit into the window; if it succeeds, it hands out the pages from
the break on, which wait for their first access, and takes frames for tables only. -/
theorem heap_ranges_handed_out_once {fs : List PhysAddr} (below : s₀.frames.mapped.stop.toNat ≤ 2 ^ 52)
    (aligned : root.PageAligned) (zeroed : TableEmpty s₀.ram root) (free : FreeFrames s₀ fs) (apart : root ∉ fs)
    (heap : Heap.new a b = .ok h₀) (run : HeapRun root s₀ h₀ s h given) :
    h.brk.PageAligned ∧ h₀.brk ≤ h.brk ∧
      given.Pairwise (fun r r' => ∀ x ∈ addressesOf r.1 r.2, x ∉ addressesOf r'.1 r'.2) ∧
      (∀ r ∈ given, addressesOf r.1 r.2 ⊆ Set.Ico a.toNat b.toNat) ∧
      ∀ count, Ends (tryReserve root h count) s fun r s' => h.brk ≤ r.2.brk ∧ (∀ e, r.1 = .error e → r.2 = h) ∧
        (r.1 = .error .nothing ↔ count = 0) ∧
        (r.1 = .error .windowExhausted ↔ 0 < count ∧ h.stop.toNat < h.brk.toNat + count * pageSize) ∧
        ∀ v, r.1 = .ok v → Reserved root h count s s' v r.2 := by
  have hgiven := run.handedOut
  obtain ⟨V, rfl, hs, h'⟩ := run.shows below aligned zeroed free apart heap
  refine ⟨h'.aligned, h'.first, hgiven.apart, fun r hr => hgiven.subset heap hr, fun count => ?_⟩
  obtain ⟨r, s', step, hbrk, hfails, hreserved⟩ := h'.tryReserve_reserved hs count
  obtain ⟨hnothing, hexhausted⟩ := tryReserve_refusal step
  exact ⟨r, s', step, hbrk, hfails, hnothing, hexhausted, hreserved⟩

end Runs

/-- In a window that is not aligned, two pages are handed out, the first one is released, and one more is handed out. -/
theorem heap_ranges_handed_out_once_after_release : ∃ s,
    HeapRun ⟨0x1000⟩ sixFrames ⟨⟨0x40000000⟩, ⟨0x40400000⟩⟩ s ⟨⟨0x40003000⟩, ⟨0x40400000⟩⟩
      [(⟨0x40002000⟩, 1), (⟨0x40000000⟩, 2)] ∧
    (∀ x ∈ addressesOf ⟨0x40002000⟩ 1, x ∉ addressesOf ⟨0x40000000⟩ 2) ∧
    addressesOf ⟨0x40002000⟩ 1 ⊆ Set.Ico 0x3ffff001 0x40400fff ∧
    Ends (tryReserve ⟨0x1000⟩ ⟨⟨0x40003000⟩, ⟨0x40400000⟩⟩ 4) s fun r s' => ∀ v, r.1 = .ok v →
      Reserved ⟨0x1000⟩ ⟨⟨0x40003000⟩, ⟨0x40400000⟩⟩ 4 s s' v r.2 := by
  have hheap : Heap.new ⟨0x3ffff001⟩ ⟨0x40400fff⟩ = .ok ⟨⟨0x40000000⟩, ⟨0x40400000⟩⟩ := by decide +kernel
  have hruns : (do
      let r ← tryReserve ⟨0x1000⟩ ⟨⟨0x40000000⟩, ⟨0x40400000⟩⟩ 2
      release ⟨0x1000⟩ ⟨0x40000000⟩ 1
      let r' ← tryReserve ⟨0x1000⟩ ⟨⟨0x40002000⟩, ⟨0x40400000⟩⟩ 1
      return (r, r') : StoreM _).run' sixFrames =
        some ((.ok ⟨0x40000000⟩, ⟨⟨0x40002000⟩, ⟨0x40400000⟩⟩), .ok ⟨0x40002000⟩, ⟨⟨0x40003000⟩, ⟨0x40400000⟩⟩) := by
    decide +kernel
  obtain ⟨s, hrun⟩ := eq_ok_of_run' hruns
  obtain ⟨r, s₁, hfirst, hrun⟩ := of_bind_eq_ok hrun
  obtain ⟨_, s₂, hrelease, hrun⟩ := of_bind_eq_ok hrun
  obtain ⟨r', s₃, hsecond, hrun⟩ := of_bind_eq_ok hrun
  cases hrun
  have hrun : HeapRun ⟨0x1000⟩ sixFrames ⟨⟨0x40000000⟩, ⟨0x40400000⟩⟩ s ⟨⟨0x40003000⟩, ⟨0x40400000⟩⟩ _ :=
    ((HeapRun.start.tryReserve hfirst).release hrelease).tryReserve hsecond
  obtain ⟨-, -, hapart, hinside, hreserve⟩ := heap_ranges_handed_out_once (by decide) (by decide) tableEmpty_sixFrames
    freeFrames_sixFrames (by decide) hheap hrun
  exact ⟨s, hrun, List.rel_of_pairwise_cons hapart (List.mem_cons_self ..), hinside _ (List.mem_cons_self ..),
    (hreserve 4).mono fun _ _ hr => hr.2.2.2.2⟩

end Nucleus.Paging
