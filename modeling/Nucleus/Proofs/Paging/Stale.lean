import Nucleus.Proofs.Paging.Ownership
import Nucleus.Proofs.Paging.Served

/-!
Runs of the memory core while the processor caches translations. Whatever is called and whatever is cached at which
moment, all that is cached after a call agrees with the tables.
-/

namespace Nucleus.Paging

open Memory

/-! ### Calls -/

namespace CoreCall

def script (root : PhysAddr) (u : Usage) : CoreCall → Script Usage
  | tryReserve count => return { u with heap := (← Script.tryReserve root u.heap count).2 }
  | reserve count => return { u with heap := (← Script.reserve root u.heap count).2 }
  | release v count => do
    Script.release root v count
    return u
  | resolveFault v => do
    let _ ← Script.resolveFault root v
    return u
  | alloc => return { u with held := (← Script.alloc).toList ++ u.held }
  | free f => do
    let _ ← Script.free f
    return { u with held := u.held.erase f }
  | map v p flags => do
    match ← Script.map root v p flags with
    | .error _ => return u
    | .ok () => return { u with installed := v.page :: u.installed }
  | unmap v => do
    let _ ← Script.unmap root v
    return { u with installed := u.installed.filter (· ≠ v.page) }
  | create v => do
    let _ ← Script.leafOrCreate root v
    return u
  | reclaim v => do
    let _ ← Script.reclaim root v
    return u

@[simp] lemma run_script (root : PhysAddr) (u : Usage) (c : CoreCall) : (c.script root u).run = c.run root u := by
  cases c with
  | tryReserve count => exact Script.run_bind_eq (Script.run_tryReserve ..) fun _ => rfl
  | reserve count => exact Script.run_bind_eq (Script.run_reserve ..) fun _ => rfl
  | release v count => exact Script.run_bind_eq (Script.run_release ..) fun _ => rfl
  | resolveFault v => exact Script.run_bind_eq Script.run_resolveFault fun _ => rfl
  | alloc => exact Script.run_bind_eq Script.run_alloc fun _ => rfl
  | free f => exact Script.run_bind_eq (Script.run_free f) fun _ => rfl
  | map v p flags =>
    refine Script.run_bind_eq (Script.run_map ..) fun r => ?_
    cases r <;> rfl
  | unmap v => exact Script.run_bind_eq Script.run_unmap fun _ => rfl
  | create v => exact Script.run_bind_eq Script.run_leafOrCreate fun _ => rfl
  | reclaim v => exact Script.run_bind_eq Script.run_reclaim fun _ => rfl

/-- The calls on page tables and the heap, with addresses below 2^47: no page that can still be handed out is mapped,
and no page that somebody mapped is released. -/
def Legal (u : Usage) : CoreCall → Prop
  | map v _ _ => v.toNat < 2 ^ 47 ∧ v.page ∉ u.heap.window
  | release v count => ∀ j < count, v.toNat + j * pageSize < 2 ^ 47 ∧ v.page + j ∉ u.installed
  | unmap v | resolveFault v | create v | reclaim v => v.toNat < 2 ^ 47
  | tryReserve _ | reserve _ => True
  | alloc | free _ => False

end CoreCall

/-- What holds between two calls. -/
structure Usage.Served (O : Origin) (u : Usage) (s : Store) : Prop where
  heap : u.heap.Within u.heap.window
  apart : ∀ n ∈ u.heap.window, n ∉ u.installed
  served : Paging.Served O (· ∈ u.installed) (· ∈ u.heap.window) s

/-- **Every call is clean.** -/
lemma CoreCall.script_clean {O : Origin} {u : Usage} {s : Store} (h : u.Served O s) {c : CoreCall} (hc : c.Legal u) :
    Clean O.view.root O.Guard (c.script O.view.root u) s fun u' s' => u'.Served O s' := by
  obtain ⟨hw, hi, hs⟩ := h
  -- a call that leaves the heap as it is and installs nothing
  have hsame : ∀ {s'}, Served O (· ∈ u.installed) (· ∈ u.heap.window) s' → u.Served O s' := fun hs' => ⟨hw, hi, hs'⟩
  have hmoved : ∀ {s' : Store} {h' : Heap}, h'.Within u.heap.window → Served O (· ∈ u.installed) (· ∈ h'.window) s' →
      Usage.Served O { u with heap := h' } s' := fun hw' hs' =>
    ⟨hw'.restart, fun n hn => hi n (hw'.mem hn), hs'⟩
  cases c with
  | tryReserve count =>
    exact (hs.tryReserve_clean hw hi count).bind fun _ s' h' => clean_pure h'.2.guard (hmoved h'.1 h'.2)
  | reserve count =>
    exact (hs.reserve_clean hw hi count).bind fun _ s' h' => clean_pure h'.2.guard (hmoved h'.1 h'.2)
  | release v count =>
    refine (hs.releaseFrom_clean fun j _ hj => hc j (by omega)).bind fun _ s' h' => ?_
    exact clean_pure h'.guard (hsame (h'.mono fun n => .inl))
  | resolveFault v => exact (hs.resolveFault_clean hc).bind fun _ s' h' => clean_pure h'.guard (hsame h')
  | map v p flags =>
    obtain ⟨hv, hout⟩ := hc
    have hpage := index_zero_of_lt hv
    refine (hs.map_clean hv (hpage ▸ hout) p flags).bind ?_
    rintro r s' (⟨⟨e, rfl⟩, h'⟩ | ⟨rfl, h'⟩)
    · exact clean_pure h'.guard (hsame h')
    · refine clean_pure h'.guard ⟨hw, fun n hn hm => ?_, ?_⟩
      · rcases List.mem_cons.mp hm with rfl | hm
        exacts [hout hn, hi n hn hm]
      · simpa only [hpage, List.mem_cons, or_comm] using h'
  | unmap v =>
    refine (hs.unmap_clean hc).bind fun _ s' h' => clean_pure h'.guard ⟨hw, fun n hn hm => ?_, ?_⟩
    · exact hi n hn (List.mem_filter.mp hm).1
    · simpa only [index_zero_of_lt hc, List.mem_filter, decide_eq_true_eq] using h'
  | create v =>
    refine hs.leafOrCreate_clean.bind ?_
    rintro r s' ⟨V, hV, ho, -⟩
    have h' : Served O _ _ s' := ⟨V, hV, ho⟩
    exact clean_pure h'.guard (hsame h')
  | reclaim v => exact hs.reclaim_clean.bind fun _ s' h' => clean_pure h'.guard (hsame h')
  | alloc | free f => exact hc.elim

/-! ### Runs -/

/-- A store after a run of calls from `s₀` on, how the memory core is in use then, and the translations that are
cached. None is cached at the start. -/
inductive ReachedCached (root : PhysAddr) (s₀ : Store) (u₀ : Usage) : Store → Usage → Set Translation → Prop where
  | start : ReachedCached root s₀ u₀ s₀ u₀ ∅
  | call {s s' : Store} {u u' : Usage} {C C' : Set Translation} {c : CoreCall} (run : ReachedCached root s₀ u₀ s u C)
      (legal : c.Legal u) (step : RunsCached root (c.script root u) s C u' s' C') :
      ReachedCached root s₀ u₀ s' u' C'

/-- At the moment `t` of a call from `s` on, the allocator has the frame behind a page that nobody mapped only if the
page was invalidated before. -/
def InvalidatedFirst (root : PhysAddr) (u : Usage) (s t : Store) : Prop :=
  ∃ ds, t.dropped = s.dropped ++ ds ∧ ∀ v e, v.toNat < 2 ^ 47 → v.page ∉ u.installed →
    entry? s root v = some e → e.Present → t.InStock e.base → ∃ w ∈ ds, w.page = v.page

lemma Shows.entry_eq {s : Store} {V : View} (h : Shows s V) {v : VirtAddr} {e : Entry}
    (he : entry? s V.root v = some e) : V.entry v = e := by
  obtain ⟨a, ha, rfl⟩ := Option.map_eq_some_iff.mp he
  exact congrArg Entry.mk (h.load_leaf (h.leaf?_eq_some.mp ha)).symm

namespace Usage.Served

variable {O : Origin} {u : Usage} {s : Store}

lemma restart (h : u.Served O s) : ∃ V, Shows s V ∧ V.root = O.view.root ∧ u.Served ⟨V, (· ∈ u.installed)⟩ s := by
  obtain ⟨hw, hi, V, hs, ho⟩ := h
  exact ⟨V, hs, ho.root, hw, hi, V, hs, ho.restart⟩

lemma agrees (h : u.Served O s) {v : VirtAddr} (hv : v.toNat < 2 ^ 47) {p : PhysAddr}
    (ht : translate s O.view.root v = some p) : Agrees s O.view.root ⟨v.page, p.page⟩ := by
  obtain ⟨-, -, V, hs, ho⟩ := h
  rw [← ho.root] at ht ⊢
  rw [hs.translate_image ho.plain] at ht
  unfold View.image? at ht
  split at ht
  · next hp =>
    have haligned : (V.entry v).base.toNat % pageSize = 0 := (V.entry v).base_aligned
    have hbase : p.page * pageSize = (V.entry v).base.toNat := by
      rw [byteOf_page] at ht
      rw [← Option.some.inj ht]
      unfold Addr.page
      rw [Addr.toNat_ofNat (by rw [Entry.toNat_base]; unfold pageSize; omega)]
      unfold pageSize at *
      omega
    have hlow : v.page < 2 ^ 35 := by
      unfold Addr.page pageSize
      omega
    refine ⟨hlow, fun w hw => ?_⟩
    have hentry : V.entry w = V.entry v := by
      have hpage : w.page = v.page := hw
      unfold View.entry index
      rw [hpage]
    rw [hs.translate_image ho.plain, View.image?, hentry, if_pos hp, byteOf_page, hbase]
  · cases ht

end Usage.Served

/-- A run keeps the translations that are cached in agreement with the tables. -/
lemma ReachedCached.served {root : PhysAddr} {s₀ s : Store} {u₀ u : Usage} {C : Set Translation}
    (h : ReachedCached root s₀ u₀ s u C) (start : ∃ O, O.view.root = root ∧ u₀.Served O s₀) :
    (∃ O, O.view.root = root ∧ u.Served O s) ∧ ∀ p ∈ C, Agrees s root p := by
  induction h with
  | start => exact ⟨start, nofun⟩
  | call _ legal step ih =>
    obtain ⟨⟨O, rfl, h⟩, hC⟩ := ih
    have hclean := CoreCall.script_clean h legal
    exact ⟨⟨O, rfl, hclean.ends.elim step.run_eq⟩, step.agrees hclean.coherent fun p hp => .inr (hC p hp)⟩

lemma Usage.served_start {s₀ : Store} {root : PhysAddr} {fs : List PhysAddr} {a b : VirtAddr} {h : Heap}
    (below : s₀.frames.mapped.stop.toNat ≤ 2 ^ 52) (aligned : root.PageAligned) (zeroed : TableEmpty s₀.ram root)
    (free : FreeFrames s₀ fs) (apart : root ∉ fs) (heap : Heap.new a b = .ok h) (lower : h.stop.toNat ≤ 2 ^ 47) :
    ∃ O, O.view.root = root ∧ (⟨h, [], []⟩ : Usage).Served O s₀ :=
  ⟨⟨.of s₀ root fs, (· ∈ [])⟩, rfl, Heap.within_of_new heap lower, fun _ _ => List.not_mem_nil,
    .of s₀ root fs, .zeroed below aligned zeroed free apart, .zeroed zeroed⟩

/-- **No stale translation survives.** After every call of a run from a zeroed root on, each translation that is
cached agrees with the tables, whatever was cached at which moment. Every legal call ends, and at each of its moments
the allocator has the frame behind a page that nobody mapped only if the page was invalidated before, so that a
release invalidates pages before their frames are free. -/
theorem no_stale_translation_survives {s₀ s : Store} {root : PhysAddr} {fs : List PhysAddr} {a b : VirtAddr} {h : Heap}
    {u : Usage} {C : Set Translation} (below : s₀.frames.mapped.stop.toNat ≤ 2 ^ 52) (aligned : root.PageAligned)
    (zeroed : TableEmpty s₀.ram root) (free : FreeFrames s₀ fs) (apart : root ∉ fs) (heap : Heap.new a b = .ok h)
    (lower : h.stop.toNat ≤ 2 ^ 47) (run : ReachedCached root s₀ ⟨h, [], []⟩ s u C) :
    (∀ p ∈ C, Agrees s root p) ∧ ∀ c : CoreCall, c.Legal u → (c.script root u).run = c.run root u ∧
      Ends (c.run root u) s (fun _ _ => True) ∧ (c.script root u).Always (InvalidatedFirst root u s) s := by
  have hstart := Usage.served_start below aligned zeroed free apart heap lower
  obtain ⟨⟨O, rfl, hserved⟩, hC⟩ := run.served hstart
  obtain ⟨V, hs, hroot, hnow⟩ := hserved.restart
  rw [← hroot] at hC ⊢
  refine ⟨hC, fun c hc => ⟨c.run_script V.root u, ?_⟩⟩
  have hclean := CoreCall.script_clean hnow hc
  refine ⟨c.run_script V.root u ▸ hclean.ends.mono fun _ _ _ => trivial, hclean.always.mono ?_⟩
  rintro t ⟨ds, hd, hguard⟩
  refine ⟨ds, hs.dropped ▸ hd, fun v e hv hi he hp hstock => ?_⟩
  obtain rfl := hs.entry_eq he
  have hpage := index_zero_of_lt hv
  refine hguard v.page hi ?_ ?_ <;> rw [← hpage]
  · exact hp
  · exact hstock

/-- A page is reserved and touched, and its translation is cached. When it is released, it is invalidated before its
frame is given back. -/
theorem no_stale_translation_survives_one_page : ∃ s u C,
    ReachedCached ⟨0x1000⟩ sixFrames ⟨⟨⟨0x40000000⟩, ⟨0x40400000⟩⟩, [], []⟩ s u C ∧ ⟨0x40000, 4⟩ ∈ C ∧
      (∀ p ∈ C, Agrees s ⟨0x1000⟩ p) ∧
      ((CoreCall.release ⟨0x40000000⟩ 1).script ⟨0x1000⟩ u).Always (InvalidatedFirst ⟨0x1000⟩ u s) s := by
  have hfree := freeFrames_sixFrames
  have hzero := tableEmpty_sixFrames
  have hheap : Heap.new ⟨0x40000000⟩ ⟨0x40400000⟩ = .ok ⟨⟨0x40000000⟩, ⟨0x40400000⟩⟩ := by decide +kernel
  have hstart := Usage.served_start (by decide) (by decide) hzero hfree (by decide) hheap (by decide)
  have hfresh := fun {s u C} => no_stale_translation_survives (s := s) (u := u) (C := C) (by decide) (by decide) hzero
    hfree (by decide) hheap (by decide)
  obtain ⟨-, hcalls⟩ := hfresh .start
  obtain ⟨hscript, ⟨u₁, s₁, hrun, -⟩, -⟩ := hcalls (.tryReserve 1) trivial
  obtain ⟨C₁, hsteps⟩ := RunsCached.of_run ((congrFun hscript _).trans hrun) ∅
  have hreserved := ReachedCached.call .start (c := .tryReserve 1) trivial hsteps
  obtain ⟨-, hcalls⟩ := hfresh hreserved
  obtain ⟨hscript, ⟨u₂, s₂, hrun', -⟩, -⟩ := hcalls (.resolveFault ⟨0x40000008⟩)
    (show (⟨0x40000008⟩ : VirtAddr).toNat < 2 ^ 47 by decide)
  obtain ⟨C₂, hsteps'⟩ := RunsCached.of_run ((congrFun hscript _).trans hrun') C₁
  have hknown : (do
      let u ← (CoreCall.tryReserve 1).run ⟨0x1000⟩ ⟨⟨⟨0x40000000⟩, ⟨0x40400000⟩⟩, [], []⟩
      let u ← (CoreCall.resolveFault ⟨0x40000008⟩).run ⟨0x1000⟩ u
      return (u.installed, translate (← get) ⟨0x1000⟩ ⟨0x40000008⟩) : StoreM _).run' sixFrames =
        some ([], some ⟨0x4008⟩) := by decide +kernel
  rw [run'_of_ok ((bind_of_ok hrun).trans (bind_of_ok hrun'))] at hknown
  obtain ⟨hinstalled, htranslate⟩ := Prod.mk.inj (Option.some.inj hknown)
  have hlow : (⟨0x40000008⟩ : VirtAddr).toNat < 2 ^ 47 := by decide
  obtain ⟨⟨O, hroot, hserved⟩, -⟩ :=
    (ReachedCached.call hreserved (c := .resolveFault ⟨0x40000008⟩) hlow hsteps').served hstart
  rw [← hroot] at htranslate
  have hagrees := hroot ▸ hserved.agrees hlow htranslate
  have hcached := ReachedCached.call hreserved (c := .resolveFault ⟨0x40000008⟩) hlow (hsteps'.gain_last hagrees)
  obtain ⟨hagree, hcalls⟩ := hfresh hcached
  refine ⟨s₂, u₂, _, hcached, Set.mem_insert .., hagree, (hcalls (.release ⟨0x40000000⟩ 1) ?_).2.2⟩
  intro j hj
  obtain rfl : j = 0 := by omega
  rw [hinstalled]
  exact ⟨by decide, List.not_mem_nil⟩

end Nucleus.Paging
