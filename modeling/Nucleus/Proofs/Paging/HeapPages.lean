import Nucleus.Proofs.Paging.Backing
import Nucleus.Proofs.Paging.Opening

/-!
A first reservation. Two pages that one lowest table covers are handed out at the break, on a way that was not in use.
A frame comes behind one of them at its first access. Releasing both takes the frame and the tables of the way back,
and leaves the free frames in the order they had.
-/

namespace Nucleus.Paging

open Memory

variable {s : Store} {V V' W : View} {w start : VirtAddr} {fs gs : List PhysAddr} {a : Nat} {f : PhysAddr}

/-! ### Pages that wait -/

namespace View

lemma pages_releasePage (V : View) (v : VirtAddr) (n : Nat) :
    (V.releasePage v).word 0 n = if n = index 0 v then 0 else V.word 0 n := V.pages_put v 0 n

lemma word_releasePage_succ (V : View) (v : VirtAddr) (l n : Nat) :
    (V.releasePage v).word (l + 1) n = V.word (l + 1) n := V.word_put_succ v 0 l n

def markTwo (V : View) (start : VirtAddr) : View := (V.enter start pendingEntry).enter (pageAt start 1) pendingEntry

/-- The view with the frame `f` behind the page of `start` and the next page waiting. -/
def touch (V : View) (start : VirtAddr) (f : PhysAddr) (gs : List PhysAddr) : View :=
  enter { V.markTwo start with free := gs } start (backedEntry f)

@[simp] lemma root_markTwo (V : View) (start : VirtAddr) : (V.markTwo start).root = V.root := rfl

@[simp] lemma free_markTwo (V : View) (start : VirtAddr) : (V.markTwo start).free = V.free := rfl

@[simp] lemma free_touch (V : View) (start : VirtAddr) (f : PhysAddr) (gs : List PhysAddr) :
    (V.touch start f gs).free = gs := rfl

@[simp] lemma root_touch (V : View) (start : VirtAddr) (f : PhysAddr) (gs : List PhysAddr) :
    (V.touch start f gs).root = V.root := rfl

lemma pages_touch (V : View) (start : VirtAddr) (f : PhysAddr) (gs : List PhysAddr) (n : Nat) :
    (V.touch start f gs).word 0 n = if n = index 0 start then (backedEntry f).raw else (V.markTwo start).word 0 n :=
  View.pages_enter _ start (backedEntry f) n

lemma word_markTwo_succ (V : View) (start : VirtAddr) (l n : Nat) :
    (V.markTwo start).word (l + 1) n = V.word (l + 1) n := by
  rw [markTwo, word_enter_succ, word_enter_succ]

lemma word_touch_succ (V : View) (start : VirtAddr) (f : PhysAddr) (gs : List PhysAddr) (l n : Nat) :
    (V.touch start f gs).word (l + 1) n = V.word (l + 1) n := by
  rw [touch, word_enter_succ]
  dsimp only
  rw [word_markTwo_succ]

end View

/-! ### Two pages of one table -/

lemma pageAt_zero (start : VirtAddr) : pageAt start 0 = start := by
  refine Addr.ext_toNat ?_
  rw [toNat_pageAt (by rw [Nat.zero_mul]; exact start.word.toNat_lt), Nat.zero_mul, Nat.add_zero]

/-- Two pages fit behind `start`, and one lowest table covers both. -/
structure TwoPages (start : VirtAddr) : Prop where
  aligned : start.PageAligned
  fits : start.toNat + 2 * pageSize < 2 ^ 64
  together : ¬ EndsTable start

namespace TwoPages

variable (h : TwoPages start)

include h

lemma address {i : Nat} (hi : i ≤ 2) : pageFrom start i = .ok (pageAt start i) :=
  pageFrom_eq (Nat.lt_of_le_of_lt (Nat.add_le_add_left (Nat.mul_le_mul_right _ hi) _) h.fits)

lemma way : index 1 (pageAt start 1) = index 1 start := by
  have hfits := h.fits
  have hin : ¬ EndsTable (pageAt start 0) := by
    rw [pageAt_zero]
    exact h.together
  have hway := index_pageAt_succ h.aligned (i := 0) (by unfold pageSize at *; omega) hin 0
  rwa [pageAt_zero] at hway

lemma apart : index 0 (pageAt start 1) ≠ index 0 start := by
  have hfits := h.fits
  have hpage : (pageAt start 1).page = start.page + 1 := page_pageAt (by unfold pageSize at *; omega)
  unfold index
  rw [hpage]
  unfold entriesPerTable
  omega

end TwoPages

namespace Shows

/-- **Marking two pages** opens the way to them. -/
lemma markFrom_opens (h : Shows s V) (hr : V.root ∈ V.mapped) (ht : TwoPages start) (h0 : V.Unopened start)
    (hfree : V.free = fs ++ gs) (hlen : fs.length = Level.root) : Ends (markFrom V.root start 0 2) s fun r s' =>
      r = .ok () ∧ ∃ V', V'.free = gs ∧ Opens start fs V V' ∧ (∃ a, V'.Leaf start a) ∧
        Shows s' (V'.markTwo start) := by
  rw [markFrom, ends_check_bind (ht.address (Nat.zero_le 2)), pageAt_zero]
  refine Ends.bind (h.leafOrCreate_opens hr h0 hfree hlen) ?_
  rintro _ s₁ ⟨a, V', rfl, h₁, hleaf, hfree', hopens⟩
  refine Ends.bind (h₁.setEntry_leaf hleaf pendingEntry) ?_
  rintro _ s₂ h₂
  have h₂ : Shows s₂ (V'.enter start pendingEntry) := h₂
  -- the tables made for the first page are those of the second one
  have hleaf' : ∃ b, (V'.enter start pendingEntry).Leaf (pageAt start 1) b := by
    obtain ⟨hw, t, htable, -⟩ := hleaf
    refine ⟨_, View.Leaf.enter (V := V') ⟨?_, t, ?_, rfl⟩ start pendingEntry⟩
    · exact (hopens.congr ht.way).not_barred
    · rw [ht.way]
      exact htable
  obtain ⟨b, hb⟩ := hleaf'
  have hroot : V.root = (V'.enter start pendingEntry).root := hopens.branch.root.symm
  rw [markFrom, ends_check_bind (ht.address (by decide)), hroot, ends_bind_of_ok (h₂.leafOrCreate_of_leaf hb)]
  refine Ends.bind (h₂.setEntry_leaf hb pendingEntry) ?_
  rintro _ s₃ h₃
  exact ends_pure ⟨rfl, V', hfree', hopens, ⟨a, hleaf⟩, h₃⟩

/-- **Reserving two pages** moves the break and takes the frames for the tables only. -/
lemma reserve_opens (h : Shows s V) (hr : V.root ∈ V.mapped) {heap : Heap} (hfits : heap.Fits 2)
    (ht : TwoPages heap.brk) (h0 : V.Unopened heap.brk) (hfree : V.free = fs ++ gs) (hlen : fs.length = Level.root) :
    Ends (reserve V.root heap 2) s fun r s' => r = (some heap.brk, { heap with brk := pageAt heap.brk 2 }) ∧
      ∃ V', V'.free = gs ∧ Opens heap.brk fs V V' ∧ (∃ a, V'.Leaf heap.brk a) ∧ Shows s' (V'.markTwo heap.brk) := by
  have hreserve : Ends (tryReserve V.root heap 2) s fun r s' =>
      r = (.ok heap.brk, { heap with brk := pageAt heap.brk 2 }) ∧
        ∃ V', V'.free = gs ∧ Opens heap.brk fs V V' ∧ (∃ a, V'.Leaf heap.brk a) ∧ Shows s' (V'.markTwo heap.brk) := by
    unfold tryReserve
    rw [if_neg (by decide), if_neg (not_not.mpr hfits)]
    refine Ends.bind (h.markFrom_opens hr ht h0 hfree hlen) ?_
    rintro _ s₁ ⟨rfl, V', hfree', hopens, hleaf, h₁⟩
    refine (ends_check_bind (ht.address (Nat.le_refl 2))).mpr ?_
    exact ends_modify_bind.mpr (ends_pure ⟨rfl, V', hfree', hopens, hleaf, h₁.emit rfl⟩)
  refine Ends.bind hreserve ?_
  rintro _ s₁ ⟨rfl, hrest⟩
  exact ends_pure ⟨rfl, hrest⟩

end Shows

/-! ### A frame behind the first page -/

/-- Before its first access a page that was handed out waits. -/
lemma View.entry_markTwo : (V.markTwo start).entry start = pendingEntry := by
  unfold View.entry View.markTwo
  simp

lemma View.waiting_markTwo (hleaf : ∃ a, V.Leaf start a) : (V.markTwo start).Waiting start := by
  obtain ⟨a, ha⟩ := hleaf
  refine ⟨⟨a, (ha.enter start _).enter (pageAt start 1) _⟩, ?_⟩
  rw [View.entry_markTwo]
  decide

lemma View.Leaf.touch (h : V.Leaf w a) (start : VirtAddr) (f : PhysAddr) (gs : List PhysAddr) :
    (V.touch start f gs).Leaf w a := h.of_above rfl (V.word_touch_succ start f gs)

lemma View.entry_touch : (V.touch start f gs).entry start = backedEntry f :=
  congrArg Entry.mk ((V.pages_touch start f gs _).trans (if_pos rfl))

lemma View.put_markTwo (V : View) (start : VirtAddr) (f : PhysAddr) (gs : List PhysAddr) :
    View.put { V.markTwo start with free := gs } start.pageBase (backedEntry f).raw =
      { V with dropped := V.dropped ++ [start.pageBase] }.touch start f gs := by
  unfold View.put
  rw [index_pageBase]
  rfl

lemma View.Loose.touch (h : View.Loose { V.markTwo start with free := gs } f) (g : PhysAddr) :
    View.Loose (V.touch start g gs) f := h.setWord_zero start (backedEntry g).raw

/-- Releasing both pages undoes all that was written for them. -/
lemma View.release_touch (ht : TwoPages start) (ho : Opens start fs V V') (hg : V.Grounded) (hfree : V'.free = f :: gs)
    (hbase : (backedEntry f).base = f) (W : View) (hW : W = (V'.touch start f gs).releasePage start) :
    W.entry (pageAt start 1) = pendingEntry ∧
      W.releasePage (pageAt start 1) = { V' with dropped := (W.releasePage (pageAt start 1)).dropped } := by
  -- the tables on the way are new, so neither page had an entry
  have hzero : ∀ w, index 1 w = index 1 start → V'.word 0 (index 0 w) = 0 := fun w hw =>
    (ho.pages _).trans ((ho.congr hw).unopened.word_eq_zero hg (Nat.zero_le _))
  have hentry : W.entry (pageAt start 1) = pendingEntry := by
    unfold View.entry
    rw [hW, View.pages_releasePage, if_neg ht.apart, View.pages_touch, if_neg ht.apart, View.markTwo, View.pages_enter,
      if_pos rfl]
  have hfirst : W.free = f :: gs := by
    rw [hW]
    unfold View.releasePage
    dsimp only
    rw [View.entry_touch, if_pos (backedEntry_present f), hbase]
    rfl
  have hmapped : W.mapped = V'.mapped := by
    rw [hW]
    rfl
  have hroot : W.root = V'.root := by
    rw [hW]
    rfl
  refine ⟨hentry, View.eq_withDropped hmapped hroot ?_ ?_⟩
  · funext l n
    cases l with
    | succ l => rw [View.word_releasePage_succ, hW, View.word_releasePage_succ, View.word_touch_succ]
    | zero =>
      rw [View.pages_releasePage]
      by_cases hnext : n = index 0 (pageAt start 1)
      · rw [if_pos hnext, hnext, hzero _ ht.way]
      rw [if_neg hnext, hW, View.pages_releasePage]
      by_cases hn : n = index 0 start
      · rw [if_pos hn, hn, hzero _ rfl]
      · rw [if_neg hn, View.pages_touch, if_neg hn, View.markTwo, View.pages_enter, if_neg hnext, View.pages_enter,
          if_neg hn]
  · unfold View.releasePage
    dsimp only
    rw [hentry, if_neg (by decide), hfirst, hfree]

namespace Shows

/-- **The first access** puts the next free frame behind the page. -/
lemma resolveFault_opens (h : Shows s (V.markTwo start)) (hleaf : ∃ a, V.Leaf start a) (hfree : V.free = f :: gs) :
    Ends (resolveFault V.root start) s fun r s' => r = .ok f ∧ (∀ i < entriesPerTable, s'.ram.slot f i = 0) ∧
      (V.touch start f gs).Loose f ∧ ∃ ds, Shows s' ({ V with dropped := ds }.touch start f gs) := by
  have hwaits := View.waiting_markTwo hleaf
  refine h.resolveFault_ends.mono ?_
  rintro r s' (⟨e, -, hn, -⟩ | ⟨g, hs, hg, rfl, -, hloose, hz, h'⟩)
  · refine absurd ⟨hwaits, ?_⟩ hn
    exact fun hnil => List.cons_ne_nil f gs (hfree.symm.trans hnil)
  · obtain ⟨rfl, rfl⟩ := List.cons.inj (hfree.symm.trans hg)
    rw [View.entry_markTwo] at h'
    exact ⟨rfl, hz, hloose.touch f, _, View.put_markTwo V start f gs ▸ h'⟩

lemma releaseOne_entered (h : Shows s W) (hw : ¬ W.Barred w) (hne : (W.entry w).raw ≠ 0)
    (hb : (W.entry w).Present → W.Loose (W.entry w).base) :
    Ends (releaseOne W.root w) s fun _ s' => Shows s' (W.releasePage w) := by
  refine (h.releaseOne_ends hb).mono ?_
  rintro _ s' (⟨-, hbar | hz⟩ | ⟨-, -, h'⟩)
  · exact absurd hbar hw
  · exact absurd hz hne
  · exact h'

/-- **Releasing both pages** takes back the frame and closes the way. -/
lemma release_opened (h : Shows s (V'.touch start f gs)) (hloose : (V'.touch start f gs).Loose f)
    (hfree : V'.free = f :: gs) (ht : TwoPages start) (ho : Opens start fs V V') (hg : V.Grounded)
    (hnull : ∀ f ∈ fs, f ≠ .null) : Ends (release V'.root start 2) s fun _ s' =>
      ∃ ds, Shows s' { V with dropped := ds } := by
  have hfirst : (V'.touch start f gs).entry start = backedEntry f := View.entry_touch
  have hbase : (backedEntry f).base = f :=
    Entry.base_make_of_aligned hloose.frame.aligned (Nat.lt_of_lt_of_le hloose.frame.mem.2 h.below) _
  have hway : Opens (pageAt start 1) fs V V' := ho.congr ht.way
  obtain ⟨hnext, hback⟩ := View.release_touch ht ho hg hfree hbase _ rfl
  unfold release
  rw [releaseFrom, ends_check_bind (ht.address (Nat.zero_le 2)), pageAt_zero]
  refine Ends.bind (h.releaseOne_entered ?_ ?_ fun _ => ?_) ?_
  · rw [View.barred_of_above fun l n => V'.word_touch_succ start f gs l n]
    exact ho.not_barred
  · rw [hfirst]
    exact Entry.ne_zero_of_present (backedEntry_present f)
  · rw [hfirst, hbase]
    exact hloose
  rintro _ s₁ h₁
  -- no table is given back between pages of one table
  rw [if_neg (not_or.mpr ⟨Nat.one_ne_zero, ht.together⟩), releaseFrom, ends_check_bind (ht.address (by decide))]
  refine Ends.bind (h₁.releaseOne_entered ?_ ?_ fun hp => ?_) ?_
  · rw [View.barred_of_above fun l n => View.word_releasePage_succ _ start l n,
      View.barred_of_above fun l n => V'.word_touch_succ start f gs l n]
    exact hway.not_barred
  · rw [hnext]
    decide
  · rw [hnext] at hp
    exact absurd hp (by decide)
  rintro _ s₂ h₂
  rw [hback] at h₂
  rw [if_pos (.inl rfl)]
  refine Ends.bind (h₂.reclaim_opened (hway.withDropped V.dropped _) hg hnull) ?_
  rintro _ s₃ h₃
  exact ends_pure h₃

end Shows

end Nucleus.Paging
