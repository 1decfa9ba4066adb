import Nucleus.Proofs.Kernel.PageFault
import Nucleus.Proofs.Paging.HeapPages

/-!
The memory core between two operations. A machine rests with a view of its page tables and free frames, and each
operation on the core takes it from one view to the next.
-/

namespace Nucleus.Kernel

open Memory Paging

variable {α β : Type} {i : Interrupting} {m : Machine} {heap : Heap} {V V' W : View} {v : VirtAddr}
  {f : PhysAddr} {fs gs : List PhysAddr}

lemma Finishes.map {x : KernelM α} {P : α → Machine → Prop} {Q : β → Machine → Prop} (h : Finishes x i m P) (g : α → β)
    (k : ∀ a m', P a m' → Q (g a) m') : Finishes (g <$> x) i m Q := by
  rw [map_eq_pure_bind]
  exact h.bind fun a m' ha => finishes_pure (k a m' ha)

/-- The machine is ready for further work. Its tables and free frames are those of `V`. -/
structure Rests (m : Machine) (heap : Heap) (V : View) : Prop where
  quiet : m.Quiet
  unlocked : m.memoryBusy = false
  root : m.root = V.root
  shows : ∃ frames ds, m.memory = some ⟨frames, heap⟩ ∧ Shows (m.store ⟨frames, heap⟩) { V with dropped := ds }

namespace Rests

lemma grounded (h : Rests m heap V) : V.Grounded := by
  obtain ⟨frames, ds, -, hs⟩ := h.shows
  exact fun l hl n hn => hs.grounded hl hn

lemma frames (h : Rests m heap V) : ∀ f ∈ V.free, IsFrame V.mapped f ∧ f.toNat < 2 ^ 52 := by
  obtain ⟨frames, ds, -, hs⟩ := h.shows
  intro f hf
  have hframe : IsFrame V.mapped f := hs.mapped ▸ hs.free.frames f hf
  exact ⟨hframe, Nat.lt_of_lt_of_le hframe.mem.2 hs.below⟩

lemma told {m' : Machine} (h : Rests m heap V) (ht : Told [] m m') : Rests m' heap V := by
  obtain ⟨frames, ds, hm, hs⟩ := h.shows
  refine ⟨ht.quiet, ht.memoryBusy.trans h.unlocked, ht.root.trans h.root, frames, ds, ht.memory.trans hm, ?_⟩
  unfold Machine.store
  rw [ht.ram]
  exact hs

/-! ### Operations -/

/-- **An operation on the core** does to the view what it does to the store. -/
lemma withCore (h : Rests m heap V) (heap' : Heap) {op : CoreOp α} {P : α → View → Ram → Prop}
    (hop : ∀ s ds, Shows s { V with dropped := ds } → Ends (op V.root heap) s fun r s' => r.2 = heap' ∧
      ∃ W ds', W.root = V.root ∧ Shows s' { W with dropped := ds' } ∧ P r.1 W s'.ram) :
    Finishes (Kernel.withCore op) i m fun r m' => ∃ a W, r = some a ∧ P a W m'.ram ∧ Rests m' heap' W := by
  obtain ⟨frames, ds, hm, hs⟩ := h.shows
  obtain ⟨⟨a, _⟩, s', hrun, rfl, W, ds', hroot, hs', hP⟩ := hop _ ds hs
  rw [← h.root] at hrun
  refine (withCore_finishes h.quiet h.unlocked hm hrun).mono ?_
  rintro _ m' ⟨rfl, ht⟩
  have hram : m'.ram = s'.ram := ht.ram
  have hes := hs'.withEvents #[]
  refine ⟨a, W, rfl, hram ▸ hP, ht.quiet, ht.memoryBusy.trans h.unlocked, ?_, s'.frames,
    Store.dropped { s' with events := #[] }, ht.memory, ?_⟩
  · exact ht.root.trans (h.root.trans hroot.symm)
  · unfold Machine.store
    rw [hram]
    exact hes

lemma keepHeap (h : Rests m heap V) {op : PhysAddr → StoreM α} {P : α → View → Ram → Prop}
    (hop : ∀ s ds, Shows s { V with dropped := ds } → Ends (op V.root) s fun a s' =>
      ∃ W ds', W.root = V.root ∧ Shows s' { W with dropped := ds' } ∧ P a W s'.ram) :
    Finishes (Kernel.withCore (Kernel.keepHeap op)) i m fun r m' =>
      ∃ a W, r = some a ∧ P a W m'.ram ∧ Rests m' heap W :=
  h.withCore heap fun s ds hs => Ends.bind (hop s ds hs) fun _ _ h' => ends_pure ⟨rfl, h'⟩

lemma answers (h : Rests m heap V) {op : PhysAddr → StoreM α} {a : α} (hroot : W.root = V.root)
    (hop : ∀ s ds, Shows s { V with dropped := ds } → Ends (op V.root) s fun r s' =>
      r = a ∧ ∃ ds', Shows s' { W with dropped := ds' }) :
    Finishes (Kernel.withCore (Kernel.keepHeap op)) i m fun r m' => r = some a ∧ Rests m' heap W := by
  refine (h.keepHeap (P := fun r U _ => r = a ∧ U = W) fun s ds hs => (hop s ds hs).mono ?_).mono ?_
  · rintro _ s' ⟨rfl, ds', hs'⟩
    exact ⟨W, ds', hroot, hs', rfl, rfl⟩
  · rintro _ m' ⟨_, _, rfl, ⟨rfl, rfl⟩, h'⟩
    exact ⟨rfl, h'⟩

/-! ### Frames -/

lemma allocFrame_finishes (h : Rests m heap V) (hf : V.free = f :: fs) : Finishes allocFrame i m fun r m' =>
    r = some f ∧ View.Loose { V with free := fs } f ∧ Rests m' heap { V with free := fs } := by
  refine (h.keepHeap (P := fun a W _ => a = some f ∧ W = { V with free := fs } ∧ W.Loose f) ?_).map _ ?_
  · intro s ds hs
    refine (hs.alloc_cons hf).mono ?_
    rintro _ s' ⟨rfl, hs', hb⟩
    exact ⟨{ V with free := fs }, ds, rfl, hs', rfl, rfl, hb.toLoose.withDropped V.dropped⟩
  · rintro _ m' ⟨_, _, rfl, ⟨rfl, rfl, hloose⟩, h'⟩
    exact ⟨rfl, hloose, h'⟩

lemma freeFrame_finishes (h : Rests m heap V) (hf : V.Loose f) : Finishes (freeFrame f) i m fun r m' =>
    r = .ok () ∧ Rests m' heap { V with free := f :: V.free } := by
  refine (h.answers (a := .ok ()) (W := { V with free := f :: V.free }) rfl fun s ds hs => ?_).map _ ?_
  · exact (hs.free_ends (hf.withDropped ds)).mono fun _ _ ⟨hr, hs'⟩ => ⟨hr, ds, hs'⟩
  · rintro _ m' ⟨rfl, h'⟩
    exact ⟨rfl, h'⟩

lemma freeFrames_finishes (h : Rests m heap V) :
    Finishes freeFrames i m fun r m' => r = V.free.length ∧ Rests m' heap V := by
  refine (h.answers (a := V.free.length) rfl fun s ds hs => ?_).map _ ?_
  · exact ends_pure ⟨hs.free.count, ds, hs⟩
  · rintro _ m' ⟨rfl, h'⟩
    exact ⟨rfl, h'⟩

/-! ### Mappings -/

lemma translateAddress_finishes (h : Rests m heap V) (v : VirtAddr) : Finishes (translateAddress v) i m fun r m' =>
    r = V.translate v Level.root ∧ Rests m' heap V := by
  refine (h.answers (a := V.translate v Level.root) rfl fun s ds hs => ?_).map _ ?_
  · exact ends_pure ⟨(hs.translate_eq v).trans (View.translate_congr fun _ _ => rfl), ds, hs⟩
  · rintro _ m' ⟨rfl, h'⟩
    exact ⟨rfl, h'⟩

/-- Where the entry of a page can be looked up, it says whether and where the page is mapped. -/
lemma translate_of_leaf (h : Rests m heap V) (ha : ∃ a, V.Leaf v a) : V.translate v Level.root =
    if (V.entry v).Present then some (View.byteOf (V.entry v) 0 v) else none := by
  obtain ⟨frames, ds, -, hs⟩ := h.shows
  obtain ⟨a, ha⟩ := ha
  exact (View.translate_congr fun _ _ => rfl).trans (hs.translate_of_leaf (ha.withDropped ds) (Nat.le_refl _))

lemma mapPage_finishes (h : Rests m heap V) (hr : V.root ∈ V.mapped) (h0 : V.Unopened v) (hfree : V.free = fs ++ gs)
    (hlen : fs.length = Level.root) (p : PhysAddr) (flags : Flags) : Finishes (mapPage v p flags) i m fun r m' =>
      r = .ok () ∧ ∃ V', V'.free = gs ∧ Opens v fs V V' ∧ (∃ a, V'.Leaf v a) ∧
        Rests m' heap (V'.enter v (.make p (flags ∪ .present))) := by
  refine (h.keepHeap (P := fun a W _ => a = .ok () ∧ ∃ V', V'.free = gs ∧ Opens v fs V V' ∧ (∃ a, V'.Leaf v a) ∧
    W = V'.enter v (.make p (flags ∪ .present))) ?_).map _ ?_
  · intro s ds hs
    refine (hs.map_opens hr h0 hfree hlen p flags).mono ?_
    rintro _ s' ⟨rfl, V', hfree', ho, hleaf, ds', hs'⟩
    exact ⟨V'.enter v (.make p (flags ∪ .present)), ds', ho.branch.root, hs', rfl, V', hfree', ho.withDropped V.dropped V'.dropped, hleaf, rfl⟩
  · rintro _ m' ⟨_, _, rfl, ⟨rfl, V', hfree', ho, hleaf, rfl⟩, h'⟩
    exact ⟨rfl, V', hfree', ho, hleaf, h'⟩

lemma unmapPage_finishes {e : Entry} (h : Rests m heap (W.enter v e)) (he : e.raw ≠ 0) (ho : Opens v fs V W)
    (hg : V.Grounded) (hnull : ∀ f ∈ fs, f ≠ .null) : Finishes (unmapPage v) i m fun r m' =>
      r = some e.base ∧ Rests m' heap V := by
  refine (h.answers (a := some e.base) ho.branch.root.symm fun s ds hs => ?_).map _ ?_
  · exact Shows.unmap_opened (W := { W with dropped := ds }) hs he (ho.withDropped V.dropped ds) hg hnull
  · rintro _ m' ⟨rfl, h'⟩
    exact ⟨rfl, h'⟩

/-! ### Heap pages -/

lemma reserveHeap_finishes (h : Rests m heap V) (hr : V.root ∈ V.mapped) (hfits : heap.Fits 2)
    (ht : TwoPages heap.brk) (h0 : V.Unopened heap.brk) (hfree : V.free = fs ++ gs) (hlen : fs.length = Level.root) :
    Finishes (reserveHeap 2) i m fun r m' => r = some heap.brk ∧
      ∃ V', V'.free = gs ∧ Opens heap.brk fs V V' ∧ (∃ a, V'.Leaf heap.brk a) ∧
        Rests m' { heap with brk := pageAt heap.brk 2 } (V'.markTwo heap.brk) := by
  let left : Heap := { heap with brk := pageAt heap.brk 2 }
  refine (h.withCore left (P := fun a W _ => a = some heap.brk ∧ ∃ V', V'.free = gs ∧
    Opens heap.brk fs V V' ∧ (∃ a, V'.Leaf heap.brk a) ∧ W = V'.markTwo heap.brk) ?_).map _ ?_
  · intro s ds hs
    refine (hs.reserve_opens hr hfits ht h0 hfree hlen).mono ?_
    rintro _ s' ⟨rfl, V', hfree', ho, hleaf, hs'⟩
    exact ⟨rfl, V'.markTwo heap.brk, V'.dropped, ho.branch.root, hs', rfl, V', hfree',
      ho.withDropped V.dropped V'.dropped, hleaf, rfl⟩
  · rintro _ m' ⟨_, _, rfl, ⟨rfl, V', hfree', ho, hleaf, rfl⟩, h'⟩
    exact ⟨rfl, V', hfree', ho, hleaf, h'⟩

lemma releaseHeap_finishes {start : VirtAddr} (h : Rests m heap (V'.touch start f gs))
    (hloose : (V'.touch start f gs).Loose f) (hfree : V'.free = f :: gs) (ht : TwoPages start)
    (ho : Opens start fs V V') (hg : V.Grounded) (hnull : ∀ f ∈ fs, f ≠ .null) :
    Finishes (releaseHeap start 2) i m fun _ m' => Rests m' heap V := by
  refine Finishes.bind (h.answers (a := ()) ho.branch.root.symm fun s ds hs => ?_) ?_
  · have hs' : Shows s ({ V' with dropped := ds }.touch start f gs) := hs
    have hends := hs'.release_opened (hloose.withDropped ds) hfree ht (ho.withDropped V.dropped ds) hg hnull
    exact hends.mono fun _ _ h' => ⟨rfl, h'⟩
  · rintro _ m' ⟨rfl, h'⟩
    exact finishes_pure h'

end Rests

end Nucleus.Kernel
