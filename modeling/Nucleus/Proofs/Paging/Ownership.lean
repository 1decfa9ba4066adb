import Nucleus.Proofs.Memory.Supply
import Nucleus.Proofs.Paging.Owner
import Nucleus.Proofs.Paging.Window

/-!
Runs of the memory core. Whatever its callers ask for and in whatever order, and whether it succeeds or not, each
frame of the pool has exactly one owner, and none is handed out while it is in use.
-/

namespace Nucleus.Paging

open Memory

/-- The store shows a memory core in which the pages of the window that are not `used` have no entry. -/
def InOrder (S : Setting) (back : Prop) (held : List PhysAddr) (installed used : Nat → Prop) (s : Store) : Prop :=
  ∃ V, Shows s V ∧ Core S back held installed used V

namespace InOrder

variable {S : Setting} {back : Prop} {held : List PhysAddr} {installed used : Nat → Prop} {s : Store}
  {v start : VirtAddr}

lemma mono (h : InOrder S back held installed used s) {used' : Nat → Prop} (hu : ∀ n, used n → used' n) :
    InOrder S back held installed used' s := by
  obtain ⟨V, hs, hc⟩ := h
  exact ⟨V, hs, hc.mono hu⟩

lemma comeBack (h : InOrder S back held installed used s) : InOrder S True held installed used s := by
  obtain ⟨V, hs, hc⟩ := h
  exact ⟨V, hs, hc.comeBack⟩

lemma emit (h : InOrder S back held installed used s) {e : Event} (he : e.invalidation? = none) :
    InOrder S back held installed used { s with events := s.events.push e } := by
  obtain ⟨V, hs, hc⟩ := h
  exact ⟨V, hs.emit he, hc⟩

/-! ### Tables -/

lemma leafOrCreate_ends (h : InOrder S False held installed used s) : Ends (leafOrCreate S.root v) s fun r s' =>
    ∃ V, Shows s' V ∧ Core S False held installed used V ∧ ∀ a, r = .ok a → V.Leaf v a := by
  obtain ⟨V, hs, hc⟩ := h
  rw [← hc.root]
  refine hs.leafOrCreate_ends.mono ?_
  rintro r s' ⟨V', hg, hs', ha⟩
  exact ⟨V', hs', hc.grows hg, ha⟩

lemma reclaim_ends (h : InOrder S back held installed used s) : Ends (reclaim S.root v) s fun _ =>
    InOrder S True held installed used := by
  obtain ⟨V, hs, hc⟩ := h
  rw [← hc.root]
  refine (hs.reclaim_ends hc.plain.nullInUse).mono ?_
  rintro n s' ⟨V', hst, hs', -, -⟩
  exact ⟨V', hs', hc.shrinks hst⟩

/-! ### Releasing -/

lemma releaseOne_ends (h : InOrder S back held installed used s)
    (hv : index 0 v ∉ S.window → ¬ installed (index 0 v)) : Ends (releaseOne S.root v) s fun _ =>
      InOrder S True held installed fun n => used n ∧ n ≠ index 0 v := by
  obtain ⟨V, hs, hc⟩ := h
  rw [← hc.root]
  have hin : V.word 0 (index 0 v) ≠ 0 → index 0 v ∈ S.window := by
    intro hne
    by_contra hout
    exact (hc.outside _ hout).elim hne fun hi => hv hout hi.2
  have hloose : (V.entry v).Present → V.Loose (V.entry v).base := fun hp =>
    hc.loose (o := .page (index 0 v)) ⟨hin (Entry.ne_zero_of_present hp), hp, rfl⟩ (.inr ⟨_, rfl⟩)
  refine (hs.releaseOne_ends hloose).mono ?_
  rintro _ s' (⟨hs', hz⟩ | ⟨hne, -, hs'⟩)
  · exact ⟨V, hs', hc.comeBack.unused (hz.resolve_left hc.plain.not_barred)⟩
  · exact ⟨_, hs', hc.releasePage (hin hne)⟩

/-- **Releasing pages** on which nothing was installed frees frames and uses none. -/
lemma releaseFrom_ends {i n : Nat} (h : InOrder S back held installed used s)
    (fits : start.toNat + (i + n) * pageSize < 2 ^ 64)
    (hv : ∀ j, i ≤ j → j < i + n → index 0 (pageAt start j) ∉ S.window → ¬ installed (index 0 (pageAt start j))) :
    Ends (releaseFrom S.root start i n) s fun _ => InOrder S True held installed
      fun m => used m ∧ ∀ j, i ≤ j → j < i + n → m ≠ index 0 (pageAt start j) := by
  induction n generalizing i s used back with
  | zero =>
    exact ends_pure (h.comeBack.mono fun m hm => ⟨hm, fun j hij hji => absurd hij (Nat.not_le_of_lt hji)⟩)
  | succ n ih =>
    have hlen : i + 1 + n = i + (n + 1) := by omega
    have haddr : pageFrom start i = .ok (pageAt start i) :=
      pageFrom_eq (Nat.lt_of_le_of_lt (Nat.add_le_add_left (Nat.mul_le_mul_right _ (by omega)) _) fits)
    rw [releaseFrom, ends_check_bind haddr]
    refine Ends.bind (h.releaseOne_ends (hv i (Nat.le_refl i) (by omega))) ?_
    rintro _ s₁ h₁
    have hrest : ∀ s₂, InOrder S True held installed (fun m => used m ∧ m ≠ index 0 (pageAt start i)) s₂ →
        Ends (releaseFrom S.root start (i + 1) n) s₂ fun _ => InOrder S True held installed
          fun m => used m ∧ ∀ j, i ≤ j → j < i + (n + 1) → m ≠ index 0 (pageAt start j) := by
      intro s₂ h₂
      refine (ih h₂ (hlen ▸ fits) fun j hj hjn => hv j (by omega) (by omega)).mono fun _ s' h' => h'.mono ?_
      rintro m ⟨⟨hu, hne⟩, hall⟩
      refine ⟨hu, fun j hj hjn => ?_⟩
      rcases Nat.lt_or_eq_of_le hj with hlt | rfl
      · exact hall j hlt (by omega)
      · exact hne
    by_cases hend : n = 0 ∨ EndsTable (pageAt start i)
    · rw [if_pos hend]
      exact Ends.bind h₁.reclaim_ends fun _ s₂ h₂ => hrest s₂ h₂
    · rw [if_neg hend]
      exact hrest s₁ h₁

/-! ### Reserving -/

/-- **Marking the pages from number `b` on** as waiting takes free frames for tables. If there are not enough, the
marks are taken away again, and the frames that come back are not used any more. -/
lemma markFrom_ends {b i n : Nat} (h : InOrder S False held installed (· < b + i) s)
    (fits : start.toNat + (i + n) * pageSize < 2 ^ 64) (hpage : ∀ j < i + n, index 0 (pageAt start j) = b + j)
    (hwin : ∀ j < i + n, b + j ∈ S.window) : Ends (markFrom S.root start i n) s fun r s' =>
      (r = .ok () ∧ InOrder S False held installed (· < b + (i + n)) s') ∨
        ((∃ e, r = .error e) ∧ InOrder S True held installed (· < b) s') := by
  induction n generalizing i s with
  | zero => exact ends_pure (.inl ⟨rfl, h⟩)
  | succ n ih =>
    have hlen : i + 1 + n = i + (n + 1) := by omega
    have hfits : ∀ k ≤ i + (n + 1), start.toNat + k * pageSize < 2 ^ 64 := fun k hk =>
      Nat.lt_of_le_of_lt (Nat.add_le_add_left (Nat.mul_le_mul_right _ hk) _) fits
    have hi := hpage i (by omega)
    rw [markFrom, ends_check_bind (pageFrom_eq (hfits i (by omega)))]
    refine Ends.bind h.leafOrCreate_ends ?_
    rintro (e | a) s₁ ⟨V₁, hs₁, hc₁, ha⟩
    · -- no table for this page: the ones before it are released, and nothing was installed on them
      have hmarked : ∀ j, 0 ≤ j → j < 0 + i → index 0 (pageAt start j) ∉ S.window →
          ¬ installed (index 0 (pageAt start j)) := by
        intro j _ hj hout
        rw [hpage j (by omega)] at hout
        exact absurd (hwin j (by omega)) hout
      have h₁ : InOrder S False held installed (· < b + i) s₁ := ⟨V₁, hs₁, hc₁⟩
      refine Ends.bind (h₁.releaseFrom_ends (hfits (0 + i) (by omega)) hmarked) ?_
      rintro _ s₂ h₂
      refine Ends.bind h₂.reclaim_ends ?_
      rintro _ s₃ h₃
      refine ends_pure (.inr ⟨⟨e, rfl⟩, h₃.mono ?_⟩)
      rintro m ⟨hm, hall⟩
      by_contra hb
      refine hall (m - b) (Nat.zero_le _) (by omega) ?_
      rw [hpage (m - b) (by omega)]
      omega
    · -- the page is marked, and counts among those in use
      refine Ends.bind (hs₁.setEntry_leaf (ha a rfl) pendingEntry) ?_
      rintro _ s₂ hs₂
      have hmark := hc₁.mark (v := pageAt start i) (hi ▸ hwin i (by omega)) (by rw [hi]; exact Nat.lt_irrefl _)
      have h₂ : InOrder S False held installed (· < b + (i + 1)) s₂ := by
        refine ⟨_, hs₂, hmark.mono ?_⟩
        rintro m (hm | rfl)
        · omega
        · rw [hi]
          omega
      rw [← hlen] at fits hpage hwin ⊢
      exact ih h₂ fits hpage hwin

lemma tryReserve_ends {h : Heap} (hs : InOrder S False held installed (· < h.brk.page) s) (hw : h.Within S.window)
    (count : Nat) : Ends (tryReserve S.root h count) s fun r s' => r.2.Within S.window ∧
      InOrder S True held installed (· < r.2.brk.page) s' := by
  unfold tryReserve
  by_cases hcount : count = 0
  · rw [if_pos hcount]
    exact ends_pure ⟨hw, hs.comeBack⟩
  rw [if_neg hcount]
  by_cases hfits : ¬ h.Fits count
  · rw [if_pos hfits]
    exact ends_pure ⟨hw, hs.comeBack⟩
  rw [if_neg hfits]
  have hf := not_not.mp hfits
  have hzero : 0 + count = count := Nat.zero_add count
  have haddr : h.brk.toNat + (0 + count) * pageSize < 2 ^ 64 := by
    rw [hzero]
    exact hf.2.1
  refine Ends.bind (hs.markFrom_ends (b := h.brk.page) (i := 0) haddr
    (fun j hj => index_pageAt (hw.low_of_fits hf) (hzero ▸ hj)) fun j hj => hw.mem_window hf (hzero ▸ hj)) ?_
  rintro r s₁ (⟨rfl, h₁⟩ | ⟨⟨e, rfl⟩, h₁⟩)
  · rw [hzero] at h₁
    refine (ends_check_bind (pageFrom_eq hf.2.1)).mpr ?_
    refine ends_modify_bind.mpr (ends_pure ⟨hw.after hf, ?_⟩)
    refine (h₁.emit rfl).comeBack.mono fun m hm => ?_
    show m < (pageAt h.brk count).page
    rwa [page_pageAt hf.2.1]
  · exact ends_pure ⟨hw, h₁⟩

lemma reserve_ends {h : Heap} (hs : InOrder S False held installed (· < h.brk.page) s) (hw : h.Within S.window)
    (count : Nat) : Ends (reserve S.root h count) s fun r s' => r.2.Within S.window ∧
      InOrder S True held installed (· < r.2.brk.page) s' := by
  unfold reserve
  refine Ends.bind (hs.tryReserve_ends hw count) ?_
  rintro ⟨e | v, h'⟩ s₁ ⟨hw₁, h₁⟩
  · exact ends_modify_bind.mpr (ends_pure ⟨hw₁, h₁.emit rfl⟩)
  · exact ends_pure ⟨hw₁, h₁⟩

lemma release_ends (h : InOrder S back held installed used s) {v : VirtAddr} {count : Nat}
    (hlow : v.toNat + count * pageSize ≤ 2 ^ 47) (hv : ∀ j < count, ¬ installed (v.page + j)) :
    Ends (release S.root v count) s fun _ => InOrder S True held installed used := by
  have hzero : 0 + count = count := Nat.zero_add count
  refine (h.releaseFrom_ends (i := 0) (by rw [hzero]; omega) fun j _ hj _ => ?_).mono ?_
  · rw [index_pageAt hlow (hzero ▸ hj)]
    exact hv j (hzero ▸ hj)
  · exact fun _ s' h' => h'.mono fun m hm => hm.1

/-! ### Frames -/

/-- **A fault** puts a free frame behind a page that is in use and has none, or changes nothing. -/
lemma resolveFault_ends (h : InOrder S False held installed used s) (v : VirtAddr) :
    Ends (resolveFault S.root v) s fun _ => InOrder S False held installed used := by
  obtain ⟨V, hs, hc⟩ := h
  rw [← hc.root]
  refine hs.resolveFault_ends.mono ?_
  rintro r s' (⟨e, -, -, hs'⟩ | ⟨f, fs, hf, -, ⟨-, hd, hp⟩, hloose, -, hs'⟩)
  · exact ⟨V, hs', hc⟩
  have hbase := index_pageBase 0 v
  have hne : V.word 0 (index 0 v) ≠ 0 := by
    intro hz
    unfold View.entry at hd
    rw [hz] at hd
    revert hd
    decide
  have hin : index 0 v ∈ S.window := by
    by_contra hout
    exact (hc.outside _ hout).elim hne fun hi => hp hi.1
  have hu : used (index 0 v) := by
    by_contra hu
    exact hne (hc.fresh _ hin hu)
  have hlt : f.toNat < 2 ^ 52 := Nat.lt_of_lt_of_le hloose.frame.mem.2 hs.below
  refine ⟨_, hs', hc.backPage (hbase ▸ hin) (hbase ▸ hu) ?_ hf hloose.not_free ?_ ?_⟩
  · rwa [V.entry_pageBase]
  · exact Entry.present_make_union ..
  · exact Entry.base_make_of_aligned hloose.frame.aligned hlt _

lemma alloc_ends (h : InOrder S False held installed used s) : Ends FrameList.alloc s fun a =>
    InOrder S False (a.toList ++ held) installed used := by
  obtain ⟨V, hs, hc⟩ := h
  cases hf : V.free with
  | nil =>
    refine (hs.alloc_nil hf).mono ?_
    rintro _ s' ⟨rfl, hs'⟩
    exact ⟨V, hs', hc⟩
  | cons f fs =>
    refine (hs.alloc_cons hf).mono ?_
    rintro _ s' ⟨rfl, hs', hb⟩
    exact ⟨_, hs', hc.take hf hb.not_free⟩

lemma free_ends (h : InOrder S back held installed used s) {f : PhysAddr} (hf : f ∈ held) :
    Ends (FrameList.free f) s fun _ => InOrder S True (held.erase f) installed used := by
  obtain ⟨V, hs, hc⟩ := h
  refine (hs.free_ends (hc.loose (o := .holder) hf (.inl rfl))).mono ?_
  rintro r s' ⟨-, hs'⟩
  exact ⟨_, hs', hc.give hf⟩

/-! ### Pages outside of the window -/

lemma map_ends (h : InOrder S False held installed used s) {v : VirtAddr} (hv : index 0 v ∉ S.window) (p : PhysAddr)
    (flags : Flags) : Ends (map S.root v p flags) s fun r s' =>
      ((∃ e, r = .error e) ∧ InOrder S False held installed used s') ∨
        (r = .ok () ∧ InOrder S False held (fun n => installed n ∨ n = index 0 v) used s') := by
  obtain ⟨V, hs, hc⟩ := h
  rw [← hc.root]
  refine (hs.map_ends p flags).mono ?_
  rintro r s' ⟨V', hg, (⟨e, rfl, hs'⟩ | ⟨rfl, -, hs'⟩)⟩
  · exact .inl ⟨⟨e, rfl⟩, V', hs', hc.grows hg⟩
  · exact .inr ⟨rfl, _, hs', (hc.grows hg).install hv (Entry.present_make_union p flags)⟩

lemma unmap_ends (h : InOrder S back held installed used s) {v : VirtAddr} (hv : index 0 v ∉ S.window) :
    Ends (unmap S.root v) s fun _ => InOrder S back held (fun n => installed n ∧ n ≠ index 0 v) used := by
  obtain ⟨V, hs, hc⟩ := h
  rw [← hc.root]
  refine hs.unmap_ends.mono ?_
  rintro r s' (⟨-, hs', hz⟩ | ⟨-, -, -, hs'⟩)
  · refine ⟨V, hs', { hc with outside := fun n hn => ?_ }⟩
    by_cases hnv : n = index 0 v
    · exact .inl (hnv ▸ hz.resolve_left hc.plain.not_barred)
    · exact (hc.outside n hn).imp_right fun hi => ⟨hi.1, hi.2, hnv⟩
  · exact ⟨_, hs', hc.uninstall hv⟩

end InOrder

/-! ### Calls -/

structure Usage where
  /-- What is left of the heap. -/
  heap : Heap
  /-- The frames that were allocated and not freed since. -/
  held : List PhysAddr
  /-- The numbers of the pages that were mapped and not unmapped since. -/
  installed : List Nat

inductive CoreCall where
  | tryReserve (count : Nat)
  | reserve (count : Nat)
  | release (v : VirtAddr) (count : Nat)
  | resolveFault (v : VirtAddr)
  | alloc
  | free (f : PhysAddr)
  | map (v : VirtAddr) (p : PhysAddr) (flags : Flags)
  | unmap (v : VirtAddr)
  | create (v : VirtAddr)
  | reclaim (v : VirtAddr)

namespace CoreCall

/-- The call with the tables below `root`, and how the core is in use after it. -/
def run (root : PhysAddr) (u : Usage) : CoreCall → StoreM Usage
  | tryReserve count => return { u with heap := (← Paging.tryReserve root u.heap count).2 }
  | reserve count => return { u with heap := (← Paging.reserve root u.heap count).2 }
  | release v count => do
    Paging.release root v count
    return u
  | resolveFault v => do
    let _ ← Paging.resolveFault root v
    return u
  | alloc => return { u with held := (← FrameList.alloc).toList ++ u.held }
  | free f => do
    let _ ← FrameList.free f
    return { u with held := u.held.erase f }
  | map v p flags => do
    match ← Paging.map root v p flags with
    | .error _ => return u
    | .ok () => return { u with installed := v.page :: u.installed }
  | unmap v => do
    let _ ← Paging.unmap root v
    return { u with installed := u.installed.filter (· ≠ v.page) }
  | create v => do
    let _ ← leafOrCreate root v
    return u
  | reclaim v => do
    let _ ← Paging.reclaim root v
    return u

/-- What the memory core relies on: nothing is released where a page was mapped, only frames are freed that were
allocated, and the pages of the window are neither mapped nor unmapped. -/
def Allowed (window : Span) (u : Usage) : CoreCall → Prop
  | release v count => v.toNat + count * pageSize ≤ 2 ^ 47 ∧ ∀ j < count, v.page + j ∉ u.installed
  | free f => f ∈ u.held
  | map v _ _ | unmap v => v.toNat < 2 ^ 47 ∧ v.page ∉ window
  | tryReserve _ | reserve _ | resolveFault _ | alloc | create _ | reclaim _ => True

end CoreCall

/-- The memory core is in order between two calls. -/
def Usage.InOrder (S : Setting) (back : Prop) (u : Usage) (s : Store) : Prop :=
  u.heap.Within S.window ∧ Paging.InOrder S back u.held (· ∈ u.installed) (· < u.heap.brk.page) s

/-- **Every call ends** and keeps the memory core in order. -/
lemma CoreCall.run_ends {S : Setting} {u : Usage} {s : Store} (h : u.InOrder S False s) {c : CoreCall}
    (ha : c.Allowed S.window u) : Ends (c.run S.root u) s fun u' s' => u'.InOrder S True s' := by
  obtain ⟨hw, hs⟩ := h
  cases c with
  | tryReserve count => exact Ends.bind (hs.tryReserve_ends hw count) fun _ s' h' => ends_pure h'
  | reserve count => exact Ends.bind (hs.reserve_ends hw count) fun _ s' h' => ends_pure h'
  | release v count => exact Ends.bind (hs.release_ends ha.1 ha.2) fun _ s' h' => ends_pure ⟨hw, h'⟩
  | resolveFault v => exact Ends.bind (hs.resolveFault_ends v) fun _ s' h' => ends_pure ⟨hw, h'.comeBack⟩
  | alloc => exact Ends.bind hs.alloc_ends fun _ s' h' => ends_pure ⟨hw, h'.comeBack⟩
  | free f => exact Ends.bind (hs.free_ends ha) fun _ s' h' => ends_pure ⟨hw, h'⟩
  | map v p flags =>
    have hpage := index_zero_of_lt ha.1
    refine Ends.bind (hs.map_ends (hpage ▸ ha.2) p flags) ?_
    rintro r s' (⟨⟨e, rfl⟩, h'⟩ | ⟨rfl, h'⟩)
    · exact ends_pure ⟨hw, h'.comeBack⟩
    · refine ends_pure ⟨hw, ?_⟩
      simpa only [hpage, List.mem_cons, or_comm] using h'.comeBack
  | unmap v =>
    have hpage := index_zero_of_lt ha.1
    refine Ends.bind (hs.unmap_ends (hpage ▸ ha.2)) ?_
    intro r s' h'
    refine ends_pure ⟨hw, ?_⟩
    simpa only [hpage, List.mem_filter, decide_eq_true_eq] using h'.comeBack
  | create v =>
    refine Ends.bind hs.leafOrCreate_ends ?_
    rintro r s' ⟨V, hV, hc, -⟩
    exact ends_pure ⟨hw, V, hV, hc.comeBack⟩
  | reclaim v => exact Ends.bind hs.reclaim_ends fun _ s' h' => ends_pure ⟨hw, h'⟩

/-! ### Runs -/

/-- A store after a run of calls from `s₀` on, and how the memory core is in use then. Between the calls, memory can
change in the frames that are held and in those behind heap pages. -/
inductive Reached (root : PhysAddr) (window : Span) (s₀ : Store) (u₀ : Usage) : Store → Usage → Prop where
  | start : Reached root window s₀ u₀ s₀ u₀
  | call {s s' : Store} {u u' : Usage} {c : CoreCall} (run : Reached root window s₀ u₀ s u)
      (allowed : c.Allowed window u) (step : c.run root u s = .ok u' s') : Reached root window s₀ u₀ s' u'
  | write {s : Store} {u : Usage} {fs : List PhysAddr} {ram : Ram} (run : Reached root window s₀ u₀ s u)
      (owned : ∀ f ∈ fs, f ∈ u.held ∨ ∃ n ∈ window,
        (⟨wordAt s root 0 n⟩ : Entry).Present ∧ (⟨wordAt s root 0 n⟩ : Entry).base = f)
      (same : s.ram.SameOutside fs ram) : Reached root window s₀ u₀ { s with ram := ram } u

/-- The frame belongs to the owner in the store, where `fs` are the free frames. -/
def Usage.Owns (u : Usage) (s : Store) (root : PhysAddr) (window : Span) (fs : List PhysAddr) :
    Owner → PhysAddr → Prop := (View.of s root fs).Owns window u.held

lemma Shows.owns_eq {s : Store} {V : View} (h : Shows s V) (u : Usage) (window : Span) :
    u.Owns s V.root window V.free = V.Owns window u.held := by
  funext o f
  cases o with
  | free | root | holder => rfl
  | link l n =>
    refine propext (and_congr_right fun hl => ?_)
    rw [View.table?_of (Nat.le_of_lt hl), (h.table?_and_word (Nat.le_of_lt hl) n).1]
  | page n =>
    show (n ∈ window ∧ (⟨wordAt s V.root 0 n⟩ : Entry).Present ∧ (⟨wordAt s V.root 0 n⟩ : Entry).base = f) = _
    rw [(h.table?_and_word (Nat.zero_le _) n).2]
    rfl

namespace Usage.InOrder

variable {S : Setting} {u : Usage} {s : Store} {back : Prop}

/-- Memory can change where somebody owns it who is not the memory core. -/
lemma write (h : u.InOrder S back s) {fs : List PhysAddr} {ram : Ram}
    (owned : ∀ f ∈ fs, f ∈ u.held ∨ ∃ n ∈ S.window,
      (⟨wordAt s S.root 0 n⟩ : Entry).Present ∧ (⟨wordAt s S.root 0 n⟩ : Entry).base = f)
    (same : s.ram.SameOutside fs ram) : u.InOrder S back { s with ram := ram } := by
  obtain ⟨hw, V, hs, hc⟩ := h
  have hloose : ∀ f ∈ fs, V.Loose f := by
    intro f hf
    rcases owned f hf with hh | ⟨n, hn, hp, hb⟩
    · exact hc.loose (o := .holder) hh (.inl rfl)
    · rw [← hc.root, (hs.table?_and_word (Nat.zero_le _) n).2] at hp hb
      exact hc.loose (o := .page n) ⟨hn, hp, hb⟩ (.inr ⟨n, rfl⟩)
  have haligned : ∀ f ∈ fs, f.PageAligned := fun f hf => (hloose f hf).frame.aligned
  have hfree : FreeFrames { s with ram := ram } V.free := hs.free.congr rfl fun f hf =>
    same.slot haligned (hs.free.aligned f hf) (fun hm => (hloose f hm).not_free hf) (by decide)
  refine ⟨hw, V, ?_, hc⟩
  exact hs.ofKeeps ⟨rfl, same, rfl⟩ hfree haligned (fun hl ht hm => (hloose _ hm).not_table hl ht) hs.apart

/-- The owners at a point of a run, from where it goes on. -/
lemma restart (h : u.InOrder S back s) : ∃ fs, FreeFrames s fs ∧ u.held.Nodup ∧
    Trail S.pool S.own back (u.Owns s S.root S.window fs) ∧
      u.InOrder { S with own := u.Owns s S.root S.window fs } False s := by
  obtain ⟨hw, V, hs, hc⟩ := h
  refine ⟨V.free, hs.free, hc.held, ?_, hw, V, hs, ?_⟩ <;> rw [← hc.root, hs.owns_eq u]
  · exact hc.owners
  · exact hc.root ▸ hc.restart

end Usage.InOrder

/-! ### Runs from a new list -/

/-- **The first frame of a new list as the root** leaves the memory core in order. -/
lemma Usage.inOrder_start {t : RegionTable} {w : Window} {low root : PhysAddr} {l : FrameList}
    {s₀ s : Store} {a b : VirtAddr} {h : Heap} (ht : t.Sound) (hn : FrameList.new t w low = .ok l)
    (hb : w.frames.stop.toNat ≤ 2 ^ 52) (hl : s₀.frames = l) (ha : FrameList.alloc s₀ = .ok (some root) s)
    (hh : Heap.new a b = .ok h) (hlow : h.stop.toNat ≤ 2 ^ 47) :
    ∃ own, (⟨h, [], []⟩ : Usage).InOrder ⟨l.waiting, own, h.window, root⟩ False s := by
  have hfree := FrameList.freeFrames_new hn ht hl
  cases hwait : l.waiting with
  | nil =>
    rw [hwait] at hfree
    obtain ⟨hnone, -⟩ := (alloc_ends_nil hfree).elim ha
    cases hnone
  | cons f fs =>
    rw [hwait] at hfree
    obtain ⟨hroot, hfree', hk, hzero⟩ := (alloc_ends_cons hfree).elim ha
    obtain rfl : f = root := (Option.some.inj hroot).symm
    have hmapped : s.frames.mapped = w.frames := by rw [hk.mapped, hl, (FrameList.new_eq hn).1]
    have hapart : f ∉ fs := (List.nodup_cons.mp hfree.nodup).1
    have hs := Shows.zeroed (hmapped ▸ hb) (hfree.aligned f (List.mem_cons_self ..)) hzero hfree' hapart
    have hword : ∀ l ≤ Level.root, ∀ n, (View.of s f fs).word l n = 0 := fun l hl => wordAt_of_zeroed hzero hl
    have howns : ∀ {o g}, (View.of s f fs).Owns h.window [] o g → (o = .free ∧ g ∈ fs) ∨ (o = .root ∧ g = f) := by
      rintro (_ | ⟨k, n⟩ | n | _ | _) g hg
      · exact .inl ⟨rfl, hg⟩
      · obtain ⟨hk, ht⟩ := hg
        simp [View.table?_of_lt hk, hword _ hk] at ht
      · obtain ⟨-, hp, -⟩ := hg
        simp [hword 0 (Nat.zero_le _)] at hp
      · exact .inr ⟨rfl, hg⟩
      · cases hg
    have hpart : Partition (f :: fs) ((View.of s f fs).Owns h.window []) := by
      refine ⟨fun g => ⟨fun hg => ?_, ?_⟩, fun {p q g} hp hq => ?_⟩
      · rcases List.mem_cons.mp hg with hg | hg
        · exact ⟨.root, hg⟩
        · exact ⟨.free, hg⟩
      · rintro ⟨o, ho⟩
        rcases howns ho with ⟨-, hg⟩ | ⟨-, rfl⟩
        · exact List.mem_cons_of_mem _ hg
        · exact List.mem_cons_self ..
      · rcases howns hp with ⟨rfl, hgp⟩ | ⟨rfl, rfl⟩ <;> rcases howns hq with ⟨rfl, hgq⟩ | ⟨rfl, hgq⟩
        · rfl
        · exact absurd (hgq ▸ hgp) hapart
        · exact absurd hgq hapart
        · rfl
    refine ⟨(View.of s f fs).Owns h.window [], Heap.within_of_new hh hlow, .of s f fs, hs, rfl, .zeroed hzero, ?_,
      .refl hpart, List.nodup_nil, fun n _ => .inl (hword 0 (Nat.zero_le _) n),
      fun n _ _ => hword 0 (Nat.zero_le _) n⟩
    show ∀ g ∈ f :: fs, IsFrame s.frames.mapped g
    rw [hk.mapped]
    exact hfree.frames

lemma Reached.inOrder {root : PhysAddr} {window : Span} {s₀ s : Store} {u₀ u : Usage}
    (h : Reached root window s₀ u₀ s u) {pool : List PhysAddr}
    (start : ∃ own, u₀.InOrder ⟨pool, own, window, root⟩ False s₀) :
    ∃ own, u.InOrder ⟨pool, own, window, root⟩ False s := by
  induction h with
  | start => exact start
  | call _ allowed step ih =>
    obtain ⟨own, h⟩ := ih
    obtain ⟨fs, -, -, -, h'⟩ := ((CoreCall.run_ends h allowed).elim step).restart
    exact ⟨_, h'⟩
  | write _ owned same ih =>
    obtain ⟨own, h⟩ := ih
    exact ⟨own, h.write owned same⟩

/-- **Each frame has one owner.** At every point of every run of calls from a new list on, each frame of the list
is either free, or linked as a table by one entry, or behind one heap page, or the root, or held by one who
allocated it. The frames in use and those that the list counts as free are as many as there were in the
beginning. Every call that is allowed there ends, and the frames that are in use after it were free before or
in the same use: none is handed out while it is in use. -/
theorem frames_have_one_owner {t : RegionTable} {w : Window} {low root : PhysAddr} {l : FrameList}
    {s₀ s₁ s : Store} {a b : VirtAddr} {h : Heap} {u : Usage} (built : t.Built)
    (new : FrameList.new t w low = .ok l) (below : w.frames.stop.toNat ≤ 2 ^ 52) (list : s₀.frames = l)
    (rooted : FrameList.alloc s₀ = .ok (some root) s₁) (heap : Heap.new a b = .ok h)
    (lower : h.stop.toNat ≤ 2 ^ 47) (run : Reached root h.window s₁ ⟨h, [], []⟩ s u) :
    ∃ fs, FreeFrames s fs ∧ u.held.Nodup ∧
      (∀ f ∈ l.waiting, ∃! o, u.Owns s root h.window fs o f) ∧
      (∀ o f, u.Owns s root h.window fs o f → f ∈ l.waiting) ∧
      (∃ used : List PhysAddr, used.Nodup ∧ (∀ f, f ∈ used ↔ ∃ o, o ≠ .free ∧ u.Owns s root h.window fs o f) ∧
        s.frames.count + used.length = l.count) ∧
      ∀ c : CoreCall, c.Allowed h.window u → Ends (c.run root u) s fun u' s' => ∃ fs', FreeFrames s' fs' ∧
        ∀ o f, o ≠ .free → u'.Owns s' root h.window fs' o f → u.Owns s root h.window fs o f ∨ f ∈ fs := by
  obtain ⟨own, hu⟩ := run.inOrder (Usage.inOrder_start built.sound new below list rooted heap lower)
  obtain ⟨fs, hfree, hheld, htrail, hrestart⟩ := hu.restart
  have hnew := FrameList.freeFrames_new new built.sound list
  have hcount : l.count = l.waiting.length := list ▸ hnew.count
  refine ⟨fs, hfree, hheld, fun f hf => ?_, fun o f ho => (htrail.mem f).mpr ⟨o, ho⟩, ?_, fun c hc => ?_⟩
  · obtain ⟨o, ho⟩ := (htrail.mem f).mp hf
    exact ⟨o, ho, fun o' ho' => htrail.unique ho' ho⟩
  · rw [hcount, hfree.count]
    exact htrail.inUse hnew.nodup hfree.nodup fun f => Iff.rfl
  · refine (CoreCall.run_ends hrestart hc).mono fun u' s' h' => ?_
    obtain ⟨fs', hfree', -, htrail', -⟩ := h'.restart
    exact ⟨fs', hfree', fun o f ho hf => htrail'.uses ho hf⟩

def sevenFrames : FrameList := ⟨.identity ⟨⟨0⟩, ⟨0x8000⟩⟩, [⟨1, 8⟩], .null, 7, false⟩

theorem frames_have_one_owner_seven : ∃ s₁ s u fs,
    FrameList.alloc ⟨.ofBackground fun _ => 0, sevenFrames, #[]⟩ = .ok (some ⟨0x7000⟩) s₁ ∧
      (CoreCall.tryReserve 1).run ⟨0x7000⟩ ⟨⟨⟨0x40000000⟩, ⟨0x40400000⟩⟩, [], []⟩ s₁ = .ok u s ∧ FreeFrames s fs ∧
      ∀ f ∈ sevenFrames.waiting, ∃! o, u.Owns s ⟨0x7000⟩ ⟨0x40000, 0x40400⟩ fs o f := by
  have hbuilt : (RegionTable.empty.addAvailable 0x1000 0x7000).table.Built := .addAvailable .empty _ _
  have hnew : FrameList.new (RegionTable.empty.addAvailable 0x1000 0x7000).table (.identity ⟨⟨0⟩, ⟨0x8000⟩⟩) ⟨0⟩ =
      .ok sevenFrames := by decide +kernel
  have hheap : Heap.new ⟨0x40000000⟩ ⟨0x40400000⟩ = .ok ⟨⟨0x40000000⟩, ⟨0x40400000⟩⟩ := by decide +kernel
  have halloc : FrameList.alloc.run' ⟨.ofBackground fun _ => 0, sevenFrames, #[]⟩ = some (some ⟨0x7000⟩) := by
    decide +kernel
  obtain ⟨s₁, hroot⟩ := eq_ok_of_run' halloc
  have howners := fun {s u} => frames_have_one_owner (s := s) (u := u) hbuilt hnew (by decide) rfl hroot hheap
    (by decide)
  obtain ⟨_, -, -, -, -, -, hcalls⟩ := howners .start
  obtain ⟨u, s, hcall, -⟩ := hcalls (.tryReserve 1) trivial
  obtain ⟨fs, hfree, -, howner, -⟩ := howners (.call (c := .tryReserve 1) .start trivial hcall)
  exact ⟨s₁, s, u, fs, hroot, hcall, hfree, howner⟩

end Nucleus.Paging
