import Nucleus.Proofs.Paging.View

/-!
Pages of the heap window: their addresses and numbers, where a run of pages leaves the tables of one for the
next, and what reservations leave of the window.
-/

namespace Nucleus.Paging

open Memory

/-- The address of the page number `i` after `start`. -/
def pageAt (start : VirtAddr) (i : Nat) : VirtAddr := .ofNat (start.toNat + i * pageSize)

section Pages

variable {start : VirtAddr} {i : Nat}

lemma toNat_pageAt (h : start.toNat + i * pageSize < 2 ^ 64) :
    (pageAt start i).toNat = start.toNat + i * pageSize := Addr.toNat_ofNat h

lemma page_pageAt (h : start.toNat + i * pageSize < 2 ^ 64) : (pageAt start i).page = start.page + i := by
  unfold Addr.page
  rw [toNat_pageAt h]
  exact Nat.add_mul_div_right _ _ (by decide)

lemma pageFrom_eq (h : start.toNat + i * pageSize < 2 ^ 64) : pageFrom start i = .ok (pageAt start i) := by
  have hi : i < 2 ^ 64 := by
    unfold pageSize at h
    omega
  have hmul : Word.mul (UInt64.ofNat i) (UInt64.ofNat pageSize) = .ok (UInt64.ofNat (i * pageSize)) := by
    unfold Word.mul
    rw [UInt64.toNat_ofNat_of_lt' hi, UInt64.toNat_ofNat_of_lt' (by decide), if_pos (by omega), UInt64.ofNat_mul]
  have hadd : Word.add start.word (UInt64.ofNat (i * pageSize)) = .ok (pageAt start i).word := by
    have hsum : start.word.toNat + (UInt64.ofNat (i * pageSize)).toNat = start.toNat + i * pageSize := by
      rw [UInt64.toNat_ofNat_of_lt' (by simp only [UInt64.size]; omega)]
      rfl
    unfold Word.add
    rw [hsum]
    refine (if_pos h).trans (congrArg _ (UInt64.toNat_inj.mp ?_))
    rw [UInt64.toNat_add, hsum, Nat.mod_eq_of_lt h]
    exact (toNat_pageAt h).symm
  unfold pageFrom
  rw [hmul]
  show (do return ⟨← Word.add start.word (UInt64.ofNat (i * pageSize))⟩ : Checked VirtAddr) = _
  rw [hadd]
  rfl

/-- Inside of a table, the tables on the way to a page are those on the way to the next one. -/
lemma index_pageAt_succ (ha : start.PageAligned) (h : start.toNat + (i + 1) * pageSize < 2 ^ 64)
    (he : ¬ EndsTable (pageAt start i)) (l : Nat) :
    index (l + 1) (pageAt start (i + 1)) = index (l + 1) (pageAt start i) := by
  have hle : i * pageSize ≤ (i + 1) * pageSize := Nat.mul_le_mul_right _ (Nat.le_succ i)
  have hi : (pageAt start i).toNat = start.toNat + i * pageSize := toNat_pageAt (by omega)
  have hnext := toNat_pageAt h
  induction l with
  | zero =>
    unfold EndsTable at he
    unfold index Addr.page
    rw [span_eq, hi] at he
    rw [hi]
    rw [hnext]
    unfold Addr.PageAligned pageSize at *
    unfold entriesPerTable
    omega
  | succ l ih => rw [index_succ (l + 1), ih, ← index_succ]

lemma index_zero_of_lt {v : VirtAddr} (h : v.toNat < 2 ^ 47) : index 0 v = v.page := by
  unfold index Addr.page entriesPerTable pageSize
  omega

lemma index_pageAt_of_lt (h : start.toNat + i * pageSize < 2 ^ 47) : index 0 (pageAt start i) = start.page + i := by
  have hword : start.toNat + i * pageSize < 2 ^ 64 := by omega
  rw [index_zero_of_lt (by rwa [toNat_pageAt hword]), page_pageAt hword]

lemma index_pageAt {n : Nat} (hlow : start.toNat + n * pageSize ≤ 2 ^ 47) (hi : i < n) :
    index 0 (pageAt start i) = start.page + i := by
  refine index_pageAt_of_lt ?_
  unfold pageSize at *
  omega

end Pages

/-! ### Heaps -/

/-- The numbers of the pages that can be handed out. -/
def Heap.window (h : Heap) : Span := ⟨h.brk.page, h.stop.page⟩

/-- The window has the pages that are left of the heap, and the pages handed out before. -/
structure Heap.Within (window : Span) (h : Heap) : Prop where
  aligned : h.brk.PageAligned
  first : window.first ≤ h.brk.page
  last : window.last = h.stop.page
  low : h.stop.toNat ≤ 2 ^ 47

lemma Heap.aligned_of_new {a b : VirtAddr} {h : Heap} (hn : Heap.new a b = .ok h) : h.brk.PageAligned := by
  unfold Heap.new at hn
  cases ha : a.pageAbove with
  | error e =>
    rw [ha] at hn
    cases hn
  | ok start =>
    rw [ha] at hn
    cases hn
    exact Addr.pageAbove_aligned ha

lemma Heap.within_of_new {a b : VirtAddr} {h : Heap} (hn : Heap.new a b = .ok h) (hl : h.stop.toNat ≤ 2 ^ 47) :
    h.Within h.window := ⟨Heap.aligned_of_new hn, Nat.le_refl _, rfl, hl⟩

namespace Heap.Within

variable {window : Span} {h : Heap} {count : Nat}

lemma low_of_fits (hw : h.Within window) (hf : h.Fits count) : h.brk.toNat + count * pageSize ≤ 2 ^ 47 :=
  Nat.le_trans hf.2.2 hw.low

lemma mem_window (hw : h.Within window) (hf : h.Fits count) {j : Nat} (hj : j < count) : h.brk.page + j ∈ window := by
  obtain ⟨-, -, hstop⟩ := hf
  obtain ⟨haligned, hfirst, hlast, -⟩ := hw
  refine Span.mem_def.mpr ⟨by omega, ?_⟩
  rw [hlast]
  unfold Addr.PageAligned Addr.page pageSize at *
  omega

lemma mem (hw : h.Within window) {n : Nat} (hn : n ∈ h.window) : n ∈ window := by
  obtain ⟨hge, hlt⟩ := Span.mem_def.mp hn
  exact Span.mem_def.mpr ⟨Nat.le_trans hw.first hge, Nat.lt_of_lt_of_eq hlt hw.last.symm⟩

lemma restart (hw : h.Within window) : h.Within h.window := ⟨hw.aligned, Nat.le_refl _, rfl, hw.low⟩

lemma after (hw : h.Within window) (hf : h.Fits count) : Heap.Within window { h with brk := pageAt h.brk count } := by
  refine ⟨?_, ?_, hw.last, hw.low⟩
  · have := hw.aligned
    unfold Addr.PageAligned at *
    dsimp only
    rw [toNat_pageAt hf.2.1, Nat.add_mul_mod_self_right, this]
  · dsimp only
    rw [page_pageAt hf.2.1]
    exact Nat.le_trans hw.first (Nat.le_add_right ..)

end Heap.Within

end Nucleus.Paging
