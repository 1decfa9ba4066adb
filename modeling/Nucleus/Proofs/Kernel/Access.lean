import Nucleus.Kernel.Access
import Nucleus.Proofs.Kernel.Exceptions
import Nucleus.Proofs.Kernel.Resting

/-!
Accesses of the processor to heap pages. The walk of the processor comes to the entry of the page; the first access to
a waiting page raises a page fault, which puts a zeroed frame behind the page, and succeeds when it is tried again.
-/

namespace Nucleus.Kernel

open Memory Paging Trap

variable {s : Store} {V V' : View} {v start : VirtAddr} {a : Nat} {i : Interrupting} {m : Machine} {heap : Heap}
  {f : PhysAddr} {fs gs : List PhysAddr}

/-! ### The walk -/

lemma walkFrom_eq (h : Depicts s V) (ha : V.Leaf v a) (ho : V.WritableWay v) {l : Nat} {t : PhysAddr} (hl : l ≤ Level.root)
    (ht : V.table? l (index (l + 1) v) = some t) :
    walkFrom s.ram v true l t =
      if (V.entry v).Present then some ⟨View.byteOf (V.entry v) 0 v, (V.entry v).Writable⟩ else none := by
  induction l generalizing t with
  | zero =>
    rw [walkFrom, h.load_slot hl ht]
    show (if ¬ (V.entry v).Present then none else some _) = _
    rw [ite_not, Bool.true_and]
    rfl
  | succ l ih =>
    obtain ⟨hp, hh, hnext⟩ := h.next_of_leaf ha hl
    rw [walkFrom, h.load_slot hl ht, if_neg (not_not.mpr hp), if_neg fun hc => hh hc.1, decide_eq_true (ho l hl)]
    exact ih (Nat.le_of_lt hl) hnext

lemma walk_eq (h : Depicts s V) (ha : V.Leaf v a) (ho : V.WritableWay v) : walk s.ram V.root v =
    if (V.entry v).Present then some ⟨View.byteOf (V.entry v) 0 v, (V.entry v).Writable⟩ else none :=
  walkFrom_eq h ha ho (Nat.le_refl _) (h.root_of_leaf ha)

lemma resolveAccess_of_absent (h : Depicts s V) (ha : V.Leaf v a) (ho : V.WritableWay v) (hp : ¬ (V.entry v).Present)
    (kind : AccessKind) : resolveAccess s.ram V.root kind v = .error kind.code := by
  unfold resolveAccess
  rw [walk_eq h ha ho, if_neg hp]

lemma resolveAccess_of_present (h : Depicts s V) (ha : V.Leaf v a) (ho : V.WritableWay v) (hp : (V.entry v).Present)
    (hw : (V.entry v).Writable) (kind : AccessKind) :
    resolveAccess s.ram V.root kind v = .ok (View.byteOf (V.entry v) 0 v) := by
  unfold resolveAccess
  rw [walk_eq h ha ho, if_pos hp]
  dsimp only
  rw [decide_eq_true hw, if_neg fun hc => hc.2 rfl]

/-! ### The first access -/

/-- The machine rests with the zeroed frame `f` behind the page of `start`, and with the next page waiting. -/
structure Touched (m : Machine) (heap : Heap) (V : View) (start : VirtAddr) (f : PhysAddr) (gs : List PhysAddr) :
    Prop extends Rests m heap (V.touch start f gs) where
  loose : (V.touch start f gs).Loose f
  zero : ∀ j < entriesPerTable, m.ram.slot f j = 0

lemma Touched.told {m' : Machine} (h : Touched m heap V start f gs) (ht : Told [] m m') :
    Touched m' heap V start f gs := ⟨h.toRests.told ht, h.loose, fun j hj => ht.ram.symm ▸ h.zero j hj⟩

/-- What the entry code finds on the stack after a page fault of the running kernel. -/
def faultFrame (code : UInt64) : Frame := ⟨.zero, 14, code, kernelProcessor.interrupted⟩

namespace Rests

lemma tryResolve_finishes (h : Rests m heap (V.markTwo start)) (hleaf : ∃ a, V.Leaf start a)
    (hfree : V.free = f :: gs) :
    Finishes (tryResolve start) i m fun r m' => r = some (.ok f) ∧ Touched m' heap V start f gs := by
  have hunlocked : ¬ m.memoryBusy = true := by
    rw [h.unlocked]
    exact Bool.false_ne_true
  unfold tryResolve
  rw [finishes_get_bind, if_neg hunlocked]
  refine (h.keepHeap (P := fun r W ram => r = .ok f ∧ W = V.touch start f gs ∧ (V.touch start f gs).Loose f ∧
    ∀ j < entriesPerTable, ram.slot f j = 0) ?_).mono ?_
  · intro s ds hs
    have hs' : Shows s (View.markTwo { V with dropped := ds } start) := hs
    refine (hs'.resolveFault_opens (hleaf.imp fun _ ha => ha.withDropped ds) hfree).mono ?_
    rintro _ s' ⟨rfl, hzero, hloose, ds', hs'⟩
    refine ⟨V.touch start f gs, ds', ?_, hs', rfl, rfl, hloose.withDropped V.dropped, hzero⟩
    rw [View.root_touch, View.root_markTwo]
  · rintro _ m' ⟨_, _, rfl, ⟨rfl, rfl, hloose, hzero⟩, h'⟩
    exact ⟨rfl, h', hloose, hzero⟩

/-- **The page fault** at a page that waits puts the next frame behind it. -/
lemma handlePageFault_finishes (h : Rests m heap (V.markTwo start)) (hleaf : ∃ a, V.Leaf start a)
    (hfree : V.free = f :: gs) (haddress : m.faultAddress = start) {code : UInt64} (hcode : code &&& 1 = 0) :
    Finishes (handlePageFault (faultFrame code)) i m fun o m' => o = .resume ∧ Touched m' heap V start f gs := by
  have hbit : (faultFrame code).errorCode &&& 1 = 0 := hcode
  unfold Finishes
  rw [handlePageFault_eq]
  dsimp only
  rw [if_pos hbit, haddress]
  refine Finishes.bind (h.tryResolve_finishes hleaf hfree) ?_
  rintro _ m₁ ⟨rfl, h₁⟩
  refine Finishes.bind (log_finishes h₁.quiet _) ?_
  rintro _ m₂ ht
  exact finishes_pure ⟨rfl, h₁.told ht⟩

lemma trapEntry_finishes (h : Rests m heap (V.markTwo start)) (hleaf : ∃ a, V.Leaf start a)
    (hfree : V.free = f :: gs) (haddress : m.faultAddress = start) {code : UInt64} (hcode : code &&& 1 = 0) :
    Finishes (trapEntry (faultFrame code)) i m fun o m' => o = .resume ∧ Touched m' heap V start f gs := by
  have hvector : (faultFrame code).vectorNumber = 14 := rfl
  rw [trapEntry_of_exception (by rw [hvector]; decide), dispatchException_eq]
  unfold reactionOf
  rw [if_pos hvector]
  refine Finishes.bind (h.handlePageFault_finishes hleaf hfree haddress hcode) ?_
  rintro _ m₁ ⟨rfl, h₁⟩
  exact finishes_pure ⟨rfl, h₁⟩

lemma take_finishes (h : Rests m heap (V.markTwo start)) (hleaf : ∃ a, V.Leaf start a) (hfree : V.free = f :: gs)
    {code : UInt64} (hcode : code &&& 1 = 0) : Finishes (take (faultAt start code)) i m fun d m' =>
      d.outcome = .resume ∧ Touched m' heap V start f gs := by
  have hframe : frameOn? (enter (faultAt start code).processor (faultAt start code).vector
      (faultAt start code).errorCode) = some (faultFrame code) := rfl
  have hrests : Rests { m with
      faultAddress := start
      stacksInUse := (m.gates.get (faultAt start code).vector).stackIndex :: m.stacksInUse } heap (V.markTwo start) :=
    ⟨⟨h.quiet.running, h.quiet.silent⟩, h.unlocked, h.root, h.shows⟩
  unfold take
  rw [finishes_get_bind]
  dsimp only
  rw [hframe, finishes_set_bind]
  refine Finishes.bind (hrests.trapEntry_finishes hleaf hfree rfl hcode) ?_
  rintro _ m₁ ⟨rfl, h₁⟩
  rw [finishes_modify_bind]
  exact finishes_pure ⟨rfl, ⟨⟨h₁.quiet.running, h₁.quiet.silent⟩, h₁.unlocked, h₁.root, h₁.shows⟩, h₁.loose, h₁.zero⟩

lemma takeOrHalt_finishes (h : Rests m heap (V.markTwo start)) (hleaf : ∃ a, V.Leaf start a)
    (hfree : V.free = f :: gs) {code : UInt64} (hcode : code &&& 1 = 0) :
    Finishes (takeOrHalt (faultAt start code)) i m fun _ m' => Touched m' heap V start f gs := by
  refine Finishes.bind (h.take_finishes hleaf hfree hcode) ?_
  rintro d m₁ ⟨hd, h₁⟩
  rw [hd, if_neg (by decide)]
  exact finishes_pure h₁

end Rests

/-! ### Words of the page -/

section Words

variable {kind : AccessKind} {p : PhysAddr}

lemma accessible_finishes (h : resolveAccess m.ram m.root kind v = .ok p) :
    Finishes (accessible kind v) i m fun r m' => r = p ∧ m' = m := by
  obtain ⟨n, hn⟩ : ∃ n, patience m = n + 1 := by
    unfold patience
    cases m.memory with
    | none => exact ⟨0, rfl⟩
    | some core => exact ⟨core.frames.count, rfl⟩
  unfold accessible
  rw [finishes_get_bind, hn, tryAccess, finishes_get_bind, h]
  exact finishes_pure ⟨rfl, rfl⟩

lemma readWord_finishes (h : resolveAccess m.ram m.root .read v = .ok p) :
    Finishes (readWord v) i m fun w m' => w = m.ram.load p.toNat ∧ m' = m := by
  refine Finishes.bind (accessible_finishes h) ?_
  rintro _ _ ⟨rfl, rfl⟩
  rw [finishes_get_bind]
  exact finishes_pure ⟨rfl, rfl⟩

lemma writeWord_finishes (h : resolveAccess m.ram m.root .write v = .ok p) (w : UInt64) :
    Finishes (writeWord v w) i m fun _ m' => m' = { m with ram := m.ram.store p.toNat w } := by
  refine Finishes.bind (accessible_finishes h) ?_
  rintro _ _ ⟨rfl, rfl⟩
  exact finishes_modify rfl

end Words

namespace Rests

/-- Frames in no use can be written to. -/
lemma store (h : Rests m heap V) (hf : V.Loose f) (w : UInt64) :
    Rests { m with ram := m.ram.store f.toNat w } heap V := by
  obtain ⟨frames, ds, hm, hs⟩ := h.shows
  have hkeeps : Keeps [f] (m.store ⟨frames, heap⟩) ⟨m.ram.store f.toNat w, frames, #[]⟩ :=
    ⟨rfl, Ram.sameOutside_store (i := 0) hf.frame.aligned (by decide) w, rfl⟩
  have hfree : FreeFrames ⟨m.ram.store f.toNat w, frames, #[]⟩ V.free := by
    refine hs.free.congr rfl fun g hg => ?_
    have hne : f ≠ g := fun he => hf.not_free (he ▸ hg)
    refine (Ram.slot_store (i := 0) hf.frame.aligned (hs.free.aligned g hg) (by decide) (by decide) w).trans ?_
    exact if_neg fun he => hne he.1
  refine ⟨⟨h.quiet.running, h.quiet.silent⟩, h.unlocked, h.root, frames, ds, hm, ?_⟩
  refine hs.ofKeeps hkeeps hfree (List.forall_mem_singleton.mpr hf.frame.aligned) ?_ hs.apart
  intro l n t hl ht hmem
  exact hf.not_table hl (List.mem_singleton.mp hmem ▸ ht)

lemma resolveAccess_eq (h : Rests m heap (V.touch start f gs)) (hloose : (V.touch start f gs).Loose f)
    (hw : V.WritableWay start) (hleaf : ∃ a, V.Leaf start a) (ha : start.PageAligned) (kind : AccessKind) :
    resolveAccess m.ram m.root kind start = .ok f := by
  obtain ⟨frames, ds, hm, hs⟩ := h.shows
  obtain ⟨a, hleaf⟩ := hleaf
  have hmapped : View.mapped { V.touch start f gs with dropped := ds } = V.mapped := rfl
  have habove : ∀ l n, View.word { V.touch start f gs with dropped := ds } (l + 1) n = V.word (l + 1) n := by
    intro l n
    dsimp only
    rw [View.word_touch_succ]
  have hentry : View.entry { V.touch start f gs with dropped := ds } start = backedEntry f := by
    unfold View.entry
    dsimp only
    rw [View.pages_touch, if_pos rfl]
  have hbase : (backedEntry f).base = f :=
    Entry.base_make_of_aligned hloose.frame.aligned (Nat.lt_of_lt_of_le hloose.frame.mem.2 hs.below) _
  have hwritable : (backedEntry f).Writable := by
    unfold Entry.Writable backedEntry
    rw [Entry.flags_make]
    decide
  have hleaf' := hleaf.of_above hmapped habove
  rw [h.root]
  refine (resolveAccess_of_present hs.toDepicts hleaf' (hw.of_above habove) ?_ ?_ kind).trans ?_
  · exact hentry ▸ backedEntry_present f
  · exact hentry ▸ hwritable
  · have haligned : start.toNat % pageSize = 0 := ha
    rw [hentry, byteOf_page, hbase, haligned, Nat.add_zero]
    exact congrArg _ (Addr.ext_toNat (Addr.toNat_ofNat f.word.toNat_lt))

lemma resolveAccess_waiting (h : Rests m heap (V.markTwo start)) (hw : V.WritableWay start) (hleaf : ∃ a, V.Leaf start a)
    (kind : AccessKind) : resolveAccess m.ram m.root kind start = .error kind.code := by
  obtain ⟨frames, ds, hm, hs⟩ := h.shows
  have hs' : Shows (m.store ⟨frames, heap⟩) (View.markTwo { V with dropped := ds } start) := hs
  obtain ⟨⟨a, ha⟩, -, hp⟩ := View.waiting_markTwo (hleaf.imp fun _ ha => ha.withDropped ds)
  rw [h.root]
  exact resolveAccess_of_absent hs'.toDepicts ha (hw.of_above fun l n => View.word_markTwo_succ _ start l n) hp kind

/-- **The first word that is read** is zero, and the read puts a frame behind the page. -/
lemma readWord_first (h : Rests m heap (V.markTwo start)) (hw : V.WritableWay start) (hleaf : ∃ a, V.Leaf start a)
    (hfree : V.free = f :: gs) (ha : start.PageAligned) :
    Finishes (readWord start) i m fun w m' => w = 0 ∧ Touched m' heap V start f gs := by
  have hpatience : patience m = gs.length + 2 := by
    obtain ⟨frames, ds, hm, hs⟩ := h.shows
    unfold patience
    rw [hm]
    have hcount : frames.count = V.free.length := hs.free.count
    dsimp only
    rw [hcount, hfree, List.length_cons]
  refine Finishes.bind (P := fun p m' => p = f ∧ Touched m' heap V start f gs) ?_ ?_
  · -- the first try raises a page fault, the second one succeeds
    unfold accessible
    rw [finishes_get_bind, hpatience, tryAccess, finishes_get_bind, h.resolveAccess_waiting hw hleaf]
    refine Finishes.bind (h.takeOrHalt_finishes hleaf hfree (by decide)) ?_
    rintro _ m₁ h₁
    rw [tryAccess, finishes_get_bind, h₁.resolveAccess_eq h₁.loose hw hleaf ha]
    exact finishes_pure ⟨rfl, h₁⟩
  · rintro _ m₁ ⟨rfl, h₁⟩
    rw [finishes_get_bind]
    exact finishes_pure ⟨h₁.zero 0 (by decide), h₁⟩

end Rests

end Nucleus.Kernel
