import Nucleus.Kernel.Start
import Nucleus.Proofs.Kernel.Access
import Nucleus.Proofs.Memory.Supply

/-!
The self test of a new memory core. Each of its steps passes as soon as there are four free frames and the ways to the
heap and to the scratch page are not in use, and all together leave the tables and the free frames as they were. Only
the break moves.
-/

namespace Nucleus.Kernel

open Memory Paging

namespace SelfTest

/-! ### Steps that pass -/

section Rules

variable {α β : Type} {i : Interrupting} {m : Machine} {x : TestM α} {g : α → TestM β} {P : α → Machine → Prop}
  {Q : β → Machine → Prop} {e : SelfTestError} {c : Prop} [Decidable c]

/-- The steps `x` pass when they start on the machine `m`, and `Q` holds of their answer and of the machine that they
leave. -/
def Passes (x : TestM α) (i : Interrupting) (m : Machine) (Q : α → Machine → Prop) : Prop :=
  Finishes x.run i m fun r m' => ∃ a, r = .ok a ∧ Q a m'

lemma Passes.bind (h : Passes x i m P) (k : ∀ a m', P a m' → Passes (g a) i m' Q) : Passes (x >>= g) i m Q := by
  unfold Passes
  rw [ExceptT.run_bind]
  refine Finishes.bind h ?_
  rintro _ m' ⟨a, rfl, ha⟩
  exact k a m' ha

lemma Passes.lift {y : KernelM α} (h : Finishes y i m P) : Passes (liftM y) i m P :=
  h.map _ fun a _ ha => ⟨a, rfl, ha⟩

lemma passes_ensure {Q : Unit → Machine → Prop} (hc : c) (h : Q () m) : Passes (ensure c e) i m Q := by
  refine finishes_pure ⟨(), ?_, h⟩
  rw [if_pos hc]

lemma passes_need {y : KernelM (Option α)} {a : α} {R : Machine → Prop}
    (h : Finishes y i m fun r m' => r = some a ∧ R m') : Passes (need y e) i m fun b m' => b = a ∧ R m' := by
  refine Finishes.bind h ?_
  rintro _ m' ⟨rfl, hr⟩
  exact finishes_pure ⟨a, rfl, rfl, hr⟩

lemma passes_ensure_bind {k : Unit → TestM β} (hc : c) (h : Passes (k ()) i m Q) : Passes (ensure c e >>= k) i m Q :=
  (passes_ensure (Q := fun _ m' => m' = m) hc rfl).bind fun _ _ hm => hm ▸ h

end Rules

/-! ### Frames and mappings -/

section Steps

variable {i : Interrupting} {m : Machine} {heap : Heap} {V : View} {f : PhysAddr} {fs gs : List PhysAddr}

lemma free_passes (h : Rests m heap V) (hf : V.Loose f) :
    Passes (free f) i m fun _ m' => Rests m' heap { V with free := f :: V.free } := by
  refine (Passes.lift (h.freeFrame_finishes hf)).bind ?_
  rintro _ m₁ ⟨rfl, h₁⟩
  exact passes_ensure rfl h₁

/-- **A freed frame comes back first.** -/
lemma reuse_passes (h : Rests m heap V) (hf : V.free = f :: fs) : Passes reuse i m fun a m' =>
    a = f ∧ View.Loose { V with free := fs } f ∧ Rests m' heap { V with free := fs } := by
  refine (passes_need (h.allocFrame_finishes hf)).bind ?_
  rintro _ m₁ ⟨rfl, hloose, h₁⟩
  refine (free_passes h₁ hloose).bind ?_
  rintro _ m₂ h₂
  refine (passes_need (h₂.allocFrame_finishes rfl)).bind ?_
  rintro _ m₃ ⟨rfl, -, h₃⟩
  exact passes_ensure_bind rfl (finishes_pure ⟨_, rfl, rfl, hloose, h₃⟩)

lemma offset_passes {space : Space} {a : Addr space} (ha : a.toNat < 2 ^ 52) :
    Passes (liftM (offset a)) i m fun b m' => b = .ofNat (a.toNat + probe.toNat) ∧ m' = m := by
  have hfits : a.toNat + probe.toNat < 2 ^ 64 := by
    have hprobe : probe.toNat = 0x42 := rfl
    omega
  have hadd : a.add probe = .ok (.ofNat (a.toNat + probe.toNat)) := by
    have hword : Word.add a.word probe = .ok (a.word + probe) := if_pos hfits
    unfold Addr.add
    rw [hword]
    refine congrArg Except.ok (Addr.ext_toNat ?_)
    rw [Addr.toNat_ofNat hfits]
    exact (UInt64.toNat_add ..).trans (Nat.mod_eq_of_lt hfits)
  refine Passes.lift ?_
  unfold offset
  rw [hadd]
  exact finishes_pure ⟨rfl, rfl⟩

/-- **A page is mapped and unmapped** without loss. -/
lemma mapping_passes (h : Rests m heap { V with free := fs ++ gs }) (hr : V.root ∈ V.mapped)
    (h0 : V.Unopened scratchPage) (hfree : V.free = f :: (fs ++ gs)) (hlen : fs.length = Level.root)
    (hloose : View.Loose { V with free := fs ++ gs } f) (hnull : ∀ f ∈ fs, f ≠ .null) (hlow : f.toNat < 2 ^ 52) :
    Passes (mapping f V.free.length) i m fun _ m' => Rests m' heap V := by
  let e : Entry := .make f (.writable ∪ .present)
  have hbase : e.base = f := Entry.base_make_of_aligned hloose.frame.aligned hlow _
  have hpresent : e.Present := Entry.present_make_union ..
  have hsplit : View.free { V with free := fs ++ gs } = fs ++ gs := rfl
  refine (Passes.lift (h.mapPage_finishes hr h0 hsplit hlen f .writable)).bind ?_
  rintro _ m₁ ⟨rfl, V', -, ho, ⟨a, hleaf⟩, h₁⟩
  refine passes_ensure_bind rfl ?_
  refine (offset_passes (by decide)).bind ?_
  rintro _ _ ⟨rfl, rfl⟩
  refine (offset_passes hlow).bind ?_
  rintro _ _ ⟨rfl, rfl⟩
  refine (Passes.lift (h₁.translateAddress_finishes _)).bind ?_
  rintro _ m₂ ⟨rfl, h₂⟩
  -- the probed address lies in the page that was mapped
  have hindex : index 0 (.ofNat (scratchPage.toNat + probe.toNat)) = index 0 scratchPage := by decide
  have hfound := h₁.translate_of_leaf ⟨a, (View.leaf_congr hindex.symm).mp (hleaf.enter scratchPage e)⟩
  rw [V'.entry_enter e hindex, if_pos hpresent, byteOf_page, hbase] at hfound
  refine passes_ensure_bind hfound ?_
  refine (Passes.lift (h₂.unmapPage_finishes (Entry.ne_zero_of_present hpresent) ho h.grounded hnull)).bind ?_
  rintro _ m₃ ⟨rfl, h₃⟩
  refine passes_ensure_bind (congrArg some hbase) ?_
  refine (Passes.lift (h₃.translateAddress_finishes _)).bind ?_
  rintro _ m₄ ⟨rfl, h₄⟩
  refine passes_ensure_bind (View.Unopened.translate_eq_none h0) ?_
  refine (free_passes h₄ hloose).bind ?_
  rintro _ m₅ h₅
  have hback : View.mk V.mapped V.root V.word (f :: (fs ++ gs)) V.dropped = V := by rw [← hfree]
  have h₅ : Rests m₅ heap V := hback ▸ h₅
  refine (Passes.lift h₅.freeFrames_finishes).bind ?_
  rintro _ m₆ ⟨rfl, h₆⟩
  exact passes_ensure rfl h₆

/-! ### Heap pages -/

/-- **A page that is touched** holds zeros and keeps what is written. -/
lemma touch_passes {start : VirtAddr} (h : Rests m heap (V.markTwo start)) (hw : V.WritableWay start)
    (hleaf : ∃ a, V.Leaf start a) (hfree : V.free = f :: gs) (ha : start.PageAligned) :
    Passes (touch start) i m fun _ m' => Rests m' heap (V.touch start f gs) ∧ (V.touch start f gs).Loose f := by
  refine (Passes.lift (h.readWord_first hw hleaf hfree ha)).bind ?_
  rintro _ m₁ ⟨rfl, h₁⟩
  refine passes_ensure_bind rfl ?_
  have hloose := h₁.loose
  refine (Passes.lift (writeWord_finishes (h₁.resolveAccess_eq hloose hw hleaf ha .write) pattern)).bind ?_
  rintro _ _ rfl
  have h₂ := h₁.store hloose pattern
  refine (Passes.lift (readWord_finishes (h₂.resolveAccess_eq hloose hw hleaf ha .read))).bind ?_
  rintro _ _ ⟨rfl, rfl⟩
  refine passes_ensure ?_ ⟨h₂, hloose⟩
  have haligned : f.toNat % 8 = 0 := Ram.aligned_slot hloose.frame.aligned 0
  rw [Ram.load_store haligned haligned, if_pos rfl]

/-- **Heap pages get frames when they are touched**, and give them back when they are released. -/
lemma demandPaging_passes (h : Rests m heap V) (hr : V.root ∈ V.mapped) (hfits : heap.Fits 2) (ht : TwoPages heap.brk)
    (h0 : V.Unopened heap.brk) (hfree : V.free = fs ++ f :: gs) (hlen : fs.length = Level.root)
    (hnull : ∀ f ∈ fs, f ≠ .null) : Passes (demandPaging V.free.length) i m fun _ m' =>
      Rests m' { heap with brk := pageAt heap.brk 2 } V := by
  refine (passes_need (h.reserveHeap_finishes hr hfits ht h0 hfree hlen)).bind ?_
  rintro _ m₁ ⟨rfl, V', hfree', ho, hleaf, h₁⟩
  obtain ⟨hleaf₁, -, hp⟩ := View.waiting_markTwo hleaf
  refine (Passes.lift (h₁.translateAddress_finishes _)).bind ?_
  rintro _ m₂ ⟨rfl, h₂⟩
  refine passes_ensure_bind ((h₂.translate_of_leaf hleaf₁).trans (if_neg hp)) ?_
  refine (Passes.lift h₂.freeFrames_finishes).bind ?_
  rintro _ m₃ ⟨rfl, h₃⟩
  rw [View.free_markTwo, hfree']
  -- the tables are all that the reservation took
  refine passes_ensure_bind ?_ ?_
  · rw [hfree, List.length_append, hlen, Nat.add_comm]
    exact Nat.le_refl _
  refine (touch_passes h₃ ho.writable hleaf hfree' ht.aligned).bind ?_
  rintro _ m₄ ⟨h₄, hloose⟩
  refine (Passes.lift (h₄.translateAddress_finishes _)).bind ?_
  rintro _ m₅ ⟨rfl, h₅⟩
  have hlate := h₅.translate_of_leaf (hleaf.imp fun a ha => View.Leaf.touch ha heap.brk f gs)
  rw [View.entry_touch, if_pos (backedEntry_present f)] at hlate
  refine passes_ensure_bind (hlate ▸ Option.some_ne_none _) ?_
  refine (Passes.lift h₅.freeFrames_finishes).bind ?_
  rintro _ m₆ ⟨rfl, h₆⟩
  refine passes_ensure_bind ?_ ?_
  · rw [View.free_touch, List.length_cons]
  refine (Passes.lift (h₆.releaseHeap_finishes hloose hfree' ht ho h.grounded hnull)).bind ?_
  rintro _ m₇ h₇
  refine (Passes.lift h₇.freeFrames_finishes).bind ?_
  rintro _ m₈ ⟨rfl, h₈⟩
  exact passes_ensure rfl h₈

/-! ### The whole test -/

/-- **All steps pass** on four free frames. -/
lemma steps_passes (h : Rests m heap V) (hr : V.root ∈ V.mapped) (hfits : heap.Fits 2) (ht : TwoPages heap.brk)
    (hheap : V.Unopened heap.brk) (hscratch : V.Unopened scratchPage) (hfour : 4 ≤ V.free.length) :
    Passes steps i m fun _ m' => Rests m' { heap with brk := pageAt heap.brk 2 } V := by
  obtain ⟨f₁, f₂, f₃, f₄, gs, hfree⟩ : ∃ f₁ f₂ f₃ f₄ gs, V.free = f₁ :: f₂ :: f₃ :: f₄ :: gs := by
    rcases hV : V.free with _ | ⟨f₁, _ | ⟨f₂, _ | ⟨f₃, _ | ⟨f₄, gs⟩⟩⟩⟩ <;> rw [hV] at hfour
    case cons.cons.cons.cons => exact ⟨f₁, f₂, f₃, f₄, gs, rfl⟩
    all_goals exact absurd hfour (by simp)
  -- while a page is mapped to the first frame, the next three are tables; a reservation makes tables of the first three
  have hfirst : f₁ ∈ V.free := by simp [hfree]
  have hmap : [f₂, f₃, f₄] ⊆ V.free := by simp [hfree]
  have hreserve : [f₁, f₂, f₃] ⊆ V.free := by simp [hfree]
  refine (Passes.lift h.freeFrames_finishes).bind ?_
  rintro _ m₁ ⟨rfl, h₁⟩
  refine (reuse_passes h₁ hfree).bind ?_
  rintro a m₂ ⟨ha, hloose, h₂⟩
  rw [ha]
  have hnull : ∀ f ∈ [f₂, f₃, f₄], f ≠ .null := fun f hf => (h.frames f (hmap hf)).1.ne_null
  refine (mapping_passes h₂ hr hscratch hfree rfl hloose hnull (h.frames f₁ hfirst).2).bind ?_
  rintro _ m₃ h₃
  have hnull : ∀ f ∈ [f₁, f₂, f₃], f ≠ .null := fun f hf => (h.frames f (hreserve hf)).1.ne_null
  refine (demandPaging_passes h₃ hr hfits ht hheap hfree rfl hnull).bind ?_
  rintro _ m₄ h₄
  exact Passes.lift ((log_finishes h₄.quiet _).mono fun _ _ => h₄.told)

end Steps

end SelfTest

/-! ### New memory cores -/

section Start

variable {regions : RegionTable} {i : Interrupting} {m₀ m : Machine} {core : MemoryCore}

lemma new_heap : Heap.new heapStart heapStop = .ok ⟨heapStart, heapStop⟩ := by decide

lemma core_of_startMemory (h : startMemory regions i m₀ = .ok () m) (hm : m.memory = some core) :
    FrameList.new regions (.identity identityRange) lowMemoryLimit = .ok core.frames ∧ core.heap = ⟨heapStart, heapStop⟩ := by
  unfold startMemory at h
  rw [new_heap] at h
  cases hnew : FrameList.new regions (.identity identityRange) lowMemoryLimit with
  | error e =>
    rw [hnew] at h
    obtain ⟨_, _, hthrow, -⟩ := of_kernel_bind_eq_ok h
    cases hthrow
  | ok frames =>
    rw [hnew] at h
    obtain ⟨_, _, ⟨⟩, h⟩ := of_kernel_bind_eq_ok h
    obtain ⟨_, _, ⟨⟩, h⟩ := of_kernel_bind_eq_ok h
    obtain ⟨_, _, -, h⟩ := of_kernel_bind_eq_ok h
    obtain ⟨_, _, -, h⟩ := of_kernel_bind_eq_ok h
    cases h
    cases hm
    exact ⟨rfl, rfl⟩

/-- **The self test of a new memory core passes and leaves no trace.** If the page tables in use are a tree that no free
frame belongs to, the root entries for the heap and for the scratch page are not in use and there are four free frames,
then all steps pass. Afterwards there are as many free frames, the same tables and the same translations as before, and
the break is two pages further up. The only traps are the page faults of the test itself. -/
theorem self_test_passes_and_leaves_no_trace (built : regions.Built) (init : startMemory regions i m₀ = .ok () m)
    (memory : m.memory = some core) (quiet : m.Quiet) (unlocked : m.memoryBusy = false)
    (aligned : m.root.PageAligned) (reachable : m.root ∈ identityRange)
    (distinct : DistinctTables (m.store core) m.root)
    (apart : ∀ l ≤ Level.root, ∀ n t, tableAt (m.store core) m.root l n = some t → t ∉ core.frames.waiting)
    (heapSlot : wordAt (m.store core) m.root Level.root (index Level.root heapStart) = 0)
    (scratchSlot : wordAt (m.store core) m.root Level.root (index Level.root scratchPage) = 0)
    (enough : 4 ≤ core.frames.count) : ∃ m' core', selfTest i m = .ok (.ok ()) m' ∧ m'.memory = some core' ∧
      m'.root = m.root ∧ SameTables (m.store core) (m'.store core') m.root ∧
      core'.heap.brk.toNat = core.heap.brk.toNat + 2 * pageSize ∧ core'.heap.stop = core.heap.stop := by
  obtain ⟨hnew, hheap⟩ := core_of_startMemory init memory
  have hmapped : core.frames.mapped = identityRange := (FrameList.new_eq hnew).1
  have hfree : FreeFrames (m.store core) core.frames.waiting := FrameList.freeFrames_new hnew built.sound rfl
  have hbelow : (m.store core).frames.mapped.stop.toNat ≤ 2 ^ 52 := by
    show core.frames.mapped.stop.toNat ≤ 2 ^ 52
    rw [hmapped]
    decide
  have horderly : Orderly (m.store core) m.root core.frames.waiting := ⟨hbelow, aligned, distinct, hfree, apart⟩
  have hshows := horderly.shows
  generalize hV : View.of (m.store core) m.root core.frames.waiting = V at hshows
  have hroot : V.root = m.root := hV ▸ rfl
  have hword : ∀ l n, V.word l n = wordAt (m.store core) m.root l n := fun _ _ => hV ▸ rfl
  have hrests : Rests m core.heap V := ⟨quiet, unlocked, hroot.symm, core.frames, V.dropped, memory, hshows⟩
  have hin : V.root ∈ V.mapped := by
    rw [hroot, ← hshows.mapped]
    exact hmapped ▸ reachable
  have hcount : 4 ≤ V.free.length := hshows.free.count ▸ enough
  have hpages : TwoPages core.heap.brk := hheap ▸ ⟨by decide, by decide, by decide⟩
  obtain ⟨_, m', hrun, ⟨⟩, rfl, h'⟩ := SelfTest.steps_passes (i := i) hrests hin (hheap ▸ by decide) hpages
    ((hword _ _).trans (hheap ▸ heapSlot)) ((hword _ _).trans scratchSlot) hcount
  obtain ⟨frames, ds, hmemory, hs⟩ := h'.shows
  refine ⟨m', _, hrun, hmemory, h'.root.trans hroot, ?_, toNat_pageAt hpages.fits, rfl⟩
  rw [← hroot]
  exact hshows.sameTables hs rfl rfl (fun _ _ => rfl) rfl

end Start

/-- A computer with zeroed memory, and a page of it as the root. -/
def bareMachine : Machine := { Machine.powerOn (.ofBackground fun _ => 0) ⟨0, 0⟩ with root := ⟨0x1000⟩ }

/-- The first four pages that are not left to the firmware. -/
def fourPages : RegionTable := (RegionTable.empty.addAvailable 0x100000 0x4000).table

def fourFrames : MemoryCore := ⟨⟨.identity identityRange, [⟨256, 260⟩], .null, 4, false⟩, ⟨heapStart, heapStop⟩⟩

/-- The self test on four free frames. -/
theorem self_test_passes_and_leaves_no_trace_four_frames : fourFrames.frames.count = 4 ∧
    ∃ m m' core', startMemory fourPages (fun _ => throw .stuck) bareMachine = .ok () m ∧
      selfTest (fun _ => throw .stuck) m = .ok (.ok ()) m' ∧ m'.memory = some core' ∧
      core'.frames.count = 4 ∧ core'.heap.brk = ⟨0x10000002000⟩ := by
  let i : Interrupting := fun _ => throw .stuck
  let m : Machine := { bareMachine with memory := some fourFrames }
  have hbuilt : fourPages.Built := .addAvailable .empty _ _
  have hnew : FrameList.new fourPages (.identity identityRange) lowMemoryLimit = .ok fourFrames.frames := by decide +kernel
  have hinit : startMemory fourPages i bareMachine = .ok () m := by
    unfold startMemory
    rw [hnew, new_heap]
    rfl
  have hzero : TableEmpty (m.store fourFrames).ram m.root := by decide +kernel
  have hwaiting : m.root ∉ fourFrames.frames.waiting := by decide +kernel
  have horderly : Orderly (m.store fourFrames) m.root fourFrames.frames.waiting :=
    (Shows.zeroed (by decide) (by decide) hzero (FrameList.freeFrames_new hnew hbuilt.sound rfl) hwaiting).orderly
  obtain ⟨m', core', hrun, hmemory, -, hsame, hbrk, -⟩ := self_test_passes_and_leaves_no_trace hbuilt hinit rfl
    ⟨rfl, nofun⟩ rfl (by decide) (by decide) horderly.distinct horderly.apart
    (wordAt_of_zeroed hzero (Nat.le_refl _) _) (wordAt_of_zeroed hzero (Nat.le_refl _) _) (by decide)
  exact ⟨rfl, m, m', core', hinit, hrun, hmemory, hsame.freeFrames, Addr.ext_toNat hbrk⟩

end Nucleus.Kernel
