import Nucleus.Proofs.Paging.Stale

/-!
Two writers of the entries of pages. The heap hands out the pages behind its break, and it relies on nobody else using
them; whoever has the tables can map any page, also one of these. A reservation overwrites such a page. No other
translation is lost by it, as long as nobody releases a page to which somebody else mapped a frame.
-/

namespace Nucleus.Paging

open Memory Relation

/-! ### Pages of a range -/

/-- The page number `n` belongs to a page from number `i` after `start` on and below number `j`. Addresses that differ
above bit 47 alone are in the same page. -/
def OnPages (start : VirtAddr) (i j n : Nat) : Prop := ∃ k, i ≤ k ∧ k < j ∧ n = index 0 (pageAt start k)

/-- The entries of the given pages are `w` in `V'`, and those of all other pages are as in `V`. -/
structure PagesSet (pages : Nat → Prop) (w : UInt64) (V V' : View) : Prop where
  root : V'.root = V.root
  set : ∀ n, pages n → V'.word 0 n = w
  kept : ∀ n, ¬ pages n → V'.word 0 n = V.word 0 n

section Ranges

variable {start : VirtAddr} {i j n : Nat} {pages pages' : Nat → Prop} {w w' : UInt64} {V V₁ V₂ : View}

lemma not_onPages_of_le (h : j ≤ i) : ¬ OnPages start i j n := by
  rintro ⟨k, hi, hj, -⟩
  omega

lemma onPages_cons (h : i < j) : OnPages start i j n ↔ n = index 0 (pageAt start i) ∨ OnPages start (i + 1) j n := by
  constructor
  · rintro ⟨k, hi, hj, rfl⟩
    rcases Nat.lt_or_eq_of_le hi with hlt | rfl
    · exact .inr ⟨k, hlt, hj, rfl⟩
    · exact .inl rfl
  · rintro (rfl | ⟨k, hi, hj, rfl⟩)
    · exact ⟨i, Nat.le_refl i, h, rfl⟩
    · exact ⟨k, by omega, hj, rfl⟩

lemma onPages_pageAt (h : start.toNat + i * pageSize < 2 ^ 64) :
    OnPages (pageAt start i) 0 j n ↔ OnPages start i (i + j) n := by
  have haddr : ∀ k, pageAt (pageAt start i) k = pageAt start (i + k) := by
    intro k
    unfold pageAt at *
    rw [show (Addr.ofNat (start.toNat + i * pageSize)).toNat = _ from Addr.toNat_ofNat h, Nat.add_mul, Nat.add_assoc]
  constructor
  · rintro ⟨k, -, hk, rfl⟩
    exact ⟨i + k, Nat.le_add_right i k, Nat.add_lt_add_left hk i, by rw [haddr]⟩
  · rintro ⟨k, hi, hk, rfl⟩
    refine ⟨k - i, Nat.zero_le _, by omega, ?_⟩
    rw [haddr, Nat.add_sub_cancel' hi]

/-- In a range of at most 2^36 pages no two have the same number. -/
lemma OnPages.apart (fits : start.toNat + j * pageSize ≤ 2 ^ 64) (short : j ≤ 2 ^ 36) (h : OnPages start 0 i n)
    (h' : OnPages start i j n) : False := by
  have hindex : ∀ k < j, index 0 (pageAt start k) = (start.page + k) % 2 ^ 36 := by
    intro k hk
    have hle : (k + 1) * pageSize ≤ j * pageSize := Nat.mul_le_mul_right _ hk
    unfold index
    rw [page_pageAt (by unfold pageSize at *; omega), pow_zero, Nat.div_one]
  obtain ⟨k, -, hk, rfl⟩ := h
  obtain ⟨m, him, hm, heq⟩ := h'
  rw [hindex k (by omega), hindex m hm] at heq
  omega

namespace PagesSet

lemma nothing (h : ∀ n, ¬ pages n) (hk : KeepsPages V V₁) : PagesSet pages w V V₁ :=
  ⟨hk.root, fun n hn => absurd hn (h n), fun n _ => congrFun hk.pages n⟩

lemma keepsPages (h : PagesSet pages w V V₁) (hk : KeepsPages V₁ V₂) : PagesSet pages w V V₂ :=
  ⟨hk.root.trans h.root, fun n hn => (congrFun hk.pages n).trans (h.set n hn),
    fun n hn => (congrFun hk.pages n).trans (h.kept n hn)⟩

lemma after (h : PagesSet pages w V₁ V₂) (hk : KeepsPages V V₁) : PagesSet pages w V V₂ :=
  ⟨h.root.trans hk.root, h.set, fun n hn => (h.kept n hn).trans (congrFun hk.pages n)⟩

lemma trans (h : PagesSet pages w V V₁) (h' : PagesSet pages' w V₁ V₂) :
    PagesSet (fun n => pages n ∨ pages' n) w V V₂ := by
  refine ⟨h'.root.trans h.root, fun n hn => ?_, fun n hn => ?_⟩
  · by_cases hn' : pages' n
    · exact h'.set n hn'
    · rw [h'.kept n hn', h.set n (hn.resolve_right hn')]
  · obtain ⟨h₁, h₂⟩ := not_or.mp hn
    rw [h'.kept n h₂, h.kept n h₁]

lemma overwrite (h : PagesSet pages w V V₁) (h' : PagesSet pages' w' V₁ V₂) (hsub : ∀ n, pages n → pages' n) :
    PagesSet pages' w' V V₂ :=
  ⟨h'.root.trans h.root, h'.set, fun n hn => (h'.kept n hn).trans (h.kept n fun hp => hn (hsub n hp))⟩

lemma congr (h : PagesSet pages w V V₁) (hp : ∀ n, pages' n ↔ pages n) : PagesSet pages' w V V₁ :=
  ⟨h.root, fun n hn => h.set n ((hp n).mp hn), fun n hn => h.kept n fun hc => hn ((hp n).mpr hc)⟩

end PagesSet

end Ranges

/-! ### Operations -/

namespace SoleFrames

variable {installed installed' : Nat → Prop} {s : Store} {V V' : View} {v start : VirtAddr}

lemma mark (h : SoleFrames installed V) :
    SoleFrames installed (V.setWord 0 (index 0 v) pendingEntry.raw) ∧
      PagesSet (· = index 0 v) pendingEntry.raw V (V.setWord 0 (index 0 v) pendingEntry.raw) := by
  have hpages := V.pages_setWord v pendingEntry.raw
  constructor
  · refine h.keep (h.plain.put v pendingEntry.raw) fun n hi hp => ?_
    rw [hpages] at hp ⊢
    by_cases hn : n = index 0 v
    · rw [if_pos hn] at hp
      exact absurd hp (by decide)
    · exact ⟨hi, if_neg hn, fun hl => hl.setWord_zero v pendingEntry.raw⟩
  · refine ⟨rfl, fun n hn => ?_, fun n hn => ?_⟩
    · rw [hpages, if_pos hn]
    · rw [hpages, if_neg hn]

lemma put_pagesSet (V : View) (v : VirtAddr) (w : UInt64) : PagesSet (· = index 0 v) w V (V.put v w) := by
  refine ⟨rfl, fun n hn => ?_, fun n hn => ?_⟩
  · rw [V.pages_put, if_pos hn]
  · rw [V.pages_put, if_neg hn]

lemma reclaim_ends (h : SoleFrames installed V) (hs : Shows s V) : Ends (reclaim V.root v) s fun _ s' =>
    ∃ V', Shows s' V' ∧ SoleFrames installed V' ∧ KeepsPages V V' := by
  refine (hs.reclaim_ends h.plain.nullInUse).mono ?_
  rintro _ s' ⟨V', hst, hs', -, -⟩
  exact ⟨V', hs', h.shrinks hst, hst.keepsPages⟩

/-- **Releasing a page** whose frame is its own clears its entry. -/
lemma releaseOne_ends (h : SoleFrames installed V) (hs : Shows s V)
    (hi : (V.entry v).Present → ¬ installed (index 0 v)) : Ends (releaseOne V.root v) s fun _ s' =>
      ∃ V', Shows s' V' ∧ SoleFrames installed V' ∧ PagesSet (· = index 0 v) 0 V V' := by
  refine (hs.releaseOne_ends fun hp => h.loose _ (hi hp) hp).mono ?_
  rintro _ s' (⟨hs', hz⟩ | ⟨-, -, hs'⟩)
  · refine ⟨V, hs', h, rfl, fun n hn => ?_, fun _ _ => rfl⟩
    rw [hn]
    exact hz.resolve_left h.plain.not_barred
  · have hset := put_pagesSet V v 0
    exact ⟨_, hs', h.releasePage hi, hset.root, hset.set, hset.kept⟩

/-- **Releasing pages** whose frames are their own clears their entries and changes no other page. -/
lemma releaseFrom_ends (h : SoleFrames installed V) (hs : Shows s V) {i n : Nat}
    (fits : ∀ k, i ≤ k → k < i + n → start.toNat + k * pageSize < 2 ^ 64)
    (hi : ∀ m, OnPages start i (i + n) m → (⟨V.word 0 m⟩ : Entry).Present → ¬ installed m) :
    Ends (releaseFrom V.root start i n) s fun _ s' =>
      ∃ V', Shows s' V' ∧ SoleFrames installed V' ∧ PagesSet (OnPages start i (i + n)) 0 V V' := by
  induction n generalizing i s V with
  | zero => exact ends_pure ⟨V, hs, h, .nothing (fun n => not_onPages_of_le (Nat.le_refl i)) (.refl V)⟩
  | succ n ih =>
    have hnext : i + (n + 1) = i + 1 + n := by omega
    have hcons : ∀ m, OnPages start i (i + 1 + n) m ↔ m = index 0 (pageAt start i) ∨ OnPages start (i + 1) (i + 1 + n) m :=
      fun m => onPages_cons (by omega)
    rw [releaseFrom, ends_check_bind (pageFrom_eq (fits i (Nat.le_refl i) (by omega)))]
    refine Ends.bind (h.releaseOne_ends hs (hi _ ?_)) ?_
    · rw [hnext]
      exact (hcons _).mpr (.inl rfl)
    rintro _ s₁ ⟨V₁, hs₁, h₁, hset⟩
    -- the rest of the pages, from the tables that are left
    have hrest : ∀ s₂ V₂, Shows s₂ V₂ → SoleFrames installed V₂ → KeepsPages V₁ V₂ →
        Ends (releaseFrom V.root start (i + 1) n) s₂ fun _ s' =>
          ∃ V', Shows s' V' ∧ SoleFrames installed V' ∧ PagesSet (OnPages start i (i + (n + 1))) 0 V V' := by
      intro s₂ V₂ hs₂ h₂ hk
      have hset₂ := hset.keepsPages hk
      rw [← hset₂.root, hnext]
      refine (ih h₂ hs₂ (fun k hik hkn => fits k (by omega) (by omega)) fun m hm hp => ?_).mono ?_
      · by_cases hmv : m = index 0 (pageAt start i)
        · rw [hset₂.set m hmv] at hp
          exact absurd hp Entry.not_present_zero
        · rw [hset₂.kept m hmv] at hp
          exact hi m (hnext ▸ (hcons m).mpr (.inr hm)) hp
      · rintro _ s' ⟨V', hs', h', hset'⟩
        exact ⟨V', hs', h', (hset₂.trans hset').congr hcons⟩
    by_cases hend : n = 0 ∨ EndsTable (pageAt start i)
    · rw [if_pos hend, ← hset.root]
      refine Ends.bind (h₁.reclaim_ends hs₁) ?_
      rintro _ s₂ ⟨V₂, hs₂, h₂, hk⟩
      rw [hset.root]
      exact hrest s₂ V₂ hs₂ h₂ hk
    · rw [if_neg hend]
      exact hrest s₁ V₁ hs₁ h₁ (.refl V₁)

/-- **Marking pages** overwrites their entries. If a table cannot be made, the pages marked so far have no entry
afterwards. No other page changes. -/
lemma markFrom_ends (h : SoleFrames installed V) (hs : Shows s V) {i n : Nat}
    (fits : ∀ k < i + n, start.toNat + k * pageSize < 2 ^ 64)
    (hm : ∀ m, OnPages start 0 i m → ¬ (⟨V.word 0 m⟩ : Entry).Present) :
    Ends (markFrom V.root start i n) s fun r s' => ∃ V', Shows s' V' ∧ SoleFrames installed V' ∧
      ((r = .ok () ∧ PagesSet (OnPages start i (i + n)) pendingEntry.raw V V') ∨
        ((∃ e, r = .error e) ∧ ∃ k, i ≤ k ∧ k ≤ i + n ∧ PagesSet (OnPages start 0 k) 0 V V')) := by
  induction n generalizing i s V with
  | zero =>
    refine ends_pure ⟨V, hs, h, .inl ⟨rfl, .nothing (fun n => not_onPages_of_le (Nat.le_refl i)) (.refl V)⟩⟩
  | succ n ih =>
    rw [markFrom, ends_check_bind (pageFrom_eq (fits i (by omega)))]
    refine Ends.bind hs.leafOrCreate_ends ?_
    rintro (e | a) s₁ ⟨V₁, hg, hs₁, ha⟩
    · -- no table for this page: the pages before it are released
      have hk := hg.keepsPages
      dsimp only
      rw [← hk.root]
      refine Ends.bind ((h.grows hg).releaseFrom_ends hs₁ (fun k _ hki => fits k (by omega)) fun m hmi hp => ?_) ?_
      · rw [Nat.zero_add] at hmi
        rw [hk.pages] at hp
        exact absurd hp (hm m hmi)
      rintro _ s₂ ⟨V₂, hs₂, h₂, hset⟩
      rw [← hset.root]
      refine Ends.bind (h₂.reclaim_ends hs₂) ?_
      rintro _ s₃ ⟨V₃, hs₃, h₃, hk'⟩
      rw [Nat.zero_add] at hset
      exact ends_pure ⟨V₃, hs₃, h₃, .inr ⟨⟨e, rfl⟩, i, Nat.le_refl i, by omega, (hset.keepsPages hk').after hk⟩⟩
    · -- the page is marked, and counts among the pages before the next one
      have hleaf := ha a rfl
      refine Ends.bind (hs₁.setEntry_leaf hleaf pendingEntry) ?_
      intro _ s₂ hs₂
      obtain ⟨h₂, hset⟩ := (h.grows hg).mark (v := pageAt start i)
      have hset₂ := hset.after hg.keepsPages
      have hroot : (V₁.setWord 0 (index 0 (pageAt start i)) pendingEntry.raw).root = V.root := hset₂.root
      rw [← hroot]
      refine (ih h₂ hs₂ (fun k hk => fits k (by omega)) fun m hmi => ?_).mono ?_
      · by_cases hmv : m = index 0 (pageAt start i)
        · rw [hset₂.set m hmv]
          decide
        · rw [hset₂.kept m hmv]
          obtain ⟨k, -, hk, rfl⟩ := hmi
          refine hm _ ⟨k, Nat.zero_le k, Nat.lt_of_le_of_ne (Nat.le_of_lt_succ hk) ?_, rfl⟩
          rintro rfl
          exact hmv rfl
      · rintro r s' ⟨V', hs', h', (⟨hr, hset'⟩ | ⟨hr, k, hik, hkn, hset'⟩)⟩
        · refine ⟨V', hs', h', .inl ⟨hr, (hset₂.trans hset').congr fun m => ?_⟩⟩
          rw [show i + (n + 1) = i + 1 + n by omega]
          exact onPages_cons (by omega)
        · refine ⟨V', hs', h', .inr ⟨hr, k, by omega, by omega, hset₂.overwrite hset' ?_⟩⟩
          rintro m rfl
          exact ⟨i, Nat.zero_le i, hik, rfl⟩

/-- **A reservation** marks its pages, or clears some of them and fails. -/
lemma tryReserve_ends (h : SoleFrames installed V) (hs : Shows s V) (heap : Heap) (count : Nat) :
    Ends (tryReserve V.root heap count) s fun r s' => ∃ V', Shows s' V' ∧ SoleFrames installed V' ∧
      ((r = (.ok heap.brk, { heap with brk := pageAt heap.brk count }) ∧ heap.Fits count ∧
          PagesSet (OnPages heap.brk 0 count) pendingEntry.raw V V') ∨
        ((∃ e, r = (.error e, heap)) ∧ ∃ k ≤ count, (0 < k → heap.Fits count) ∧ PagesSet (OnPages heap.brk 0 k) 0 V V')) := by
  have hnone : PagesSet (OnPages heap.brk 0 0) 0 V V :=
    .nothing (fun n => not_onPages_of_le (Nat.le_refl 0)) (.refl V)
  unfold tryReserve
  by_cases hcount : count = 0
  · rw [if_pos hcount]
    exact ends_pure ⟨V, hs, h, .inr ⟨⟨_, rfl⟩, 0, Nat.zero_le _, nofun, hnone⟩⟩
  rw [if_neg hcount]
  by_cases hfits : ¬ heap.Fits count
  · rw [if_pos hfits]
    exact ends_pure ⟨V, hs, h, .inr ⟨⟨_, rfl⟩, 0, Nat.zero_le _, nofun, hnone⟩⟩
  rw [if_neg hfits]
  have hfits := not_not.mp hfits
  have hword : ∀ k < 0 + count, heap.brk.toNat + k * pageSize < 2 ^ 64 := by
    intro k hk
    have hle : k * pageSize ≤ count * pageSize := Nat.mul_le_mul_right _ (by omega)
    have hend := hfits.2.1
    omega
  refine Ends.bind (h.markFrom_ends hs hword fun m hm => absurd hm (not_onPages_of_le (Nat.le_refl 0))) ?_
  rintro r s₁ ⟨V₁, hs₁, h₁, (⟨rfl, hset⟩ | ⟨⟨e, rfl⟩, k, -, hk, hset⟩)⟩
  · rw [Nat.zero_add] at hset
    refine (ends_check_bind (pageFrom_eq hfits.2.1)).mpr ?_
    exact ends_modify_bind.mpr (ends_pure ⟨V₁, hs₁.emit rfl, h₁, .inl ⟨rfl, hfits, hset⟩⟩)
  · rw [Nat.zero_add] at hk
    exact ends_pure ⟨V₁, hs₁, h₁, .inr ⟨⟨_, rfl⟩, k, hk, fun _ => hfits, hset⟩⟩

end SoleFrames

/-! ### Runs -/

def Heap.left (h : Heap) : Nat := h.stop.page - h.brk.page

/-- A run of calls from the store `s₀` and the heap `h₀` on. `installed` are the pages that were mapped, and neither
unmapped nor handed out since: they are not released. -/
inductive SharedRun (root : PhysAddr) (s₀ : Store) (h₀ : Heap) : Store → Heap → (Nat → Prop) → Prop where
  | start : SharedRun root s₀ h₀ s₀ h₀ fun _ => False
  | map {s s' h installed v p flags} (run : SharedRun root s₀ h₀ s h installed)
      (step : map root v p flags s = .ok (.ok ()) s') : SharedRun root s₀ h₀ s' h fun n => installed n ∨ n = index 0 v
  | mapFails {s s' h installed v p flags e} (run : SharedRun root s₀ h₀ s h installed)
      (step : map root v p flags s = .ok (.error e) s') : SharedRun root s₀ h₀ s' h installed
  | unmap {s s' h installed v r} (run : SharedRun root s₀ h₀ s h installed)
      (step : unmap root v s = .ok r s') : SharedRun root s₀ h₀ s' h fun n => installed n ∧ n ≠ index 0 v
  | tryReserve {s s' h h' installed count v} (run : SharedRun root s₀ h₀ s h installed)
      (step : tryReserve root h count s = .ok (.ok v, h') s') :
      SharedRun root s₀ h₀ s' h' fun n => installed n ∧ ¬ OnPages h.brk 0 count n
  | tryReserveFails {s s' h h' installed count e} (run : SharedRun root s₀ h₀ s h installed)
      (step : tryReserve root h count s = .ok (.error e, h') s') : SharedRun root s₀ h₀ s' h' installed
  | resolveFault {s s' h installed v r} (run : SharedRun root s₀ h₀ s h installed)
      (step : resolveFault root v s = .ok r s') : SharedRun root s₀ h₀ s' h installed
  | release {s s' h installed v count} (run : SharedRun root s₀ h₀ s h installed)
      (fits : ∀ j < count, v.toNat + j * pageSize < 2 ^ 64) (own : ∀ n, OnPages v 0 count n → ¬ installed n)
      (step : release root v count s = .ok () s') : SharedRun root s₀ h₀ s' h installed

/-- What holds between two calls. If the pages of the window are distinct, those that can still be handed out have no
entry, unless they are installed. -/
structure Shared (h₀ h : Heap) (installed : Nat → Prop) (V : View) : Prop extends SoleFrames installed V where
  aligned : h.brk.PageAligned
  stop : h.stop = h₀.stop
  first : h₀.brk.toNat ≤ h.brk.toNat
  unused : h₀.stop.toNat ≤ h₀.brk.toNat + 2 ^ 48 → ∀ n, OnPages h.brk 0 h.left n → ¬ installed n → V.word 0 n = 0

namespace Shared

variable {h₀ h : Heap} {installed installed' : Nat → Prop} {s : Store} {V V' : View} {v : VirtAddr} {count : Nat}

lemma zeroed {root : PhysAddr} {fs : List PhysAddr} (hz : TableEmpty s.ram root) (ha : h₀.brk.PageAligned) :
    Shared h₀ h₀ installed (.of s root fs) :=
  ⟨.zeroed hz, ha, rfl, Nat.le_refl _, fun _ n _ _ => wordAt_of_zeroed hz (Nat.zero_le _) n⟩

/-- Where each page that has an entry and is not installed had one before, the heap can go on. -/
lemma keep (h' : Shared h₀ h installed V) (hsole : SoleFrames installed' V')
    (hkeep : ∀ n, ¬ installed' n → V'.word 0 n ≠ 0 → ¬ installed n ∧ V.word 0 n ≠ 0) : Shared h₀ h installed' V' := by
  refine ⟨hsole, h'.aligned, h'.stop, h'.first, fun hshort n hn hi => ?_⟩
  by_contra hw
  obtain ⟨hi', hw'⟩ := hkeep n hi hw
  exact hw' (h'.unused hshort n hn hi')

lemma pagesSet (h' : Shared h₀ h installed V) (hsole : SoleFrames installed V') {pages : Nat → Prop}
    (hset : PagesSet pages 0 V V') : Shared h₀ h installed V' := by
  refine h'.keep hsole fun n hi hw => ⟨hi, ?_⟩
  rwa [← hset.kept n fun hn => hw (hset.set n hn)]

/-! ### Calls -/

lemma map_ends (h' : Shared h₀ h installed V) (hs : Shows s V) (p : PhysAddr) (flags : Flags) :
    Ends (map V.root v p flags) s fun r s' => ∃ V', V'.root = V.root ∧ Shows s' V' ∧
      ((∃ e, r = .error e) ∧ Shared h₀ h installed V' ∨
        r = .ok () ∧ Shared h₀ h (fun n => installed n ∨ n = index 0 v) V') := by
  refine (hs.map_ends p flags).mono ?_
  rintro r s' ⟨V₁, hg, hcases⟩
  have hk := hg.keepsPages
  have hsole := h'.toSoleFrames.grows hg
  rcases hcases with ⟨e, rfl, hs'⟩ | ⟨rfl, -, hs'⟩
  · refine ⟨V₁, hk.root, hs', .inl ⟨⟨e, rfl⟩, h'.keep hsole fun n hi hw => ⟨hi, ?_⟩⟩⟩
    rwa [hk.pages] at hw
  · refine ⟨V₁.put v _, hk.root, hs', .inr ⟨rfl, h'.keep ?_ fun n hi hw => ?_⟩⟩
    · exact hsole.put _ (fun _ _ hi => (not_or.mp hi).1) fun hi => absurd (.inr rfl) hi
    · obtain ⟨hi', hn⟩ := not_or.mp hi
      rw [V₁.pages_put, if_neg hn, hk.pages] at hw
      exact ⟨hi', hw⟩

lemma unmap_ends (h' : Shared h₀ h installed V) (hs : Shows s V) : Ends (unmap V.root v) s fun _ s' =>
    ∃ V', V'.root = V.root ∧ Shows s' V' ∧ Shared h₀ h (fun n => installed n ∧ n ≠ index 0 v) V' := by
  refine hs.unmap_ends.mono ?_
  rintro _ s' (⟨-, hs', hz⟩ | ⟨-, -, -, hs'⟩)
  · have hzero := hz.resolve_left h'.plain.not_barred
    have hkeep : ∀ n, ¬ (installed n ∧ n ≠ index 0 v) → V.word 0 n ≠ 0 → ¬ installed n := by
      intro n hi hw hin
      refine hi ⟨hin, ?_⟩
      rintro rfl
      exact hw hzero
    refine ⟨V, rfl, hs', h'.keep (h'.toSoleFrames.keep h'.plain fun n hi hp => ?_) fun n hi hw => ⟨hkeep n hi hw, hw⟩⟩
    exact ⟨hkeep n hi (Entry.ne_zero_of_present hp), rfl, id⟩
  · have hkeep : ∀ n, n ≠ index 0 v → ¬ (installed n ∧ n ≠ index 0 v) → ¬ installed n := fun n hn hi hin => hi ⟨hin, hn⟩
    refine ⟨V.put v 0, rfl, hs', h'.keep (h'.putAbsent Entry.not_present_zero hkeep) fun n hi hw => ?_⟩
    rw [V.pages_put] at hw
    by_cases hn : n = index 0 v
    · rw [if_pos hn] at hw
      exact absurd rfl hw
    · rw [if_neg hn] at hw
      exact ⟨hkeep n hn hi, hw⟩

lemma resolveFault_ends (h' : Shared h₀ h installed V) (hs : Shows s V) : Ends (resolveFault V.root v) s fun _ s' =>
    ∃ V', V'.root = V.root ∧ Shows s' V' ∧ Shared h₀ h installed V' := by
  refine hs.resolveFault_ends.mono ?_
  rintro _ s' (⟨-, -, -, hs'⟩ | ⟨f, fs, hf, -, ⟨-, hdemand, -⟩, hloose, -, hs'⟩)
  · exact ⟨V, rfl, hs', h'⟩
  · have hframe := hloose.frame
    have hbase := Entry.base_make_of_aligned hframe.aligned (Nat.lt_of_lt_of_le hframe.mem.2 hs.below)
      (View.backedFlags (V.entry v))
    refine ⟨View.put { V with free := fs } v.pageBase _, rfl, hs',
      h'.keep (h'.backPage hf hloose hbase) fun n hi hw => ⟨hi, ?_⟩⟩
    rw [View.pages_put, index_pageBase] at hw
    by_cases hn : n = index 0 v
    · rintro hz
      unfold View.entry at hdemand
      rw [← hn, hz] at hdemand
      exact absurd hdemand (by decide)
    · rwa [if_neg hn] at hw

lemma release_ends (h' : Shared h₀ h installed V) (hs : Shows s V)
    (fits : ∀ j < count, v.toNat + j * pageSize < 2 ^ 64) (own : ∀ n, OnPages v 0 count n → ¬ installed n) :
    Ends (release V.root v count) s fun _ s' =>
      ∃ V', V'.root = V.root ∧ Shows s' V' ∧ Shared h₀ h installed V' := by
  rw [← Nat.zero_add count] at own
  refine (h'.releaseFrom_ends hs (fun k _ hk => fits k (by omega)) fun n hn _ => own n hn).mono ?_
  rintro _ s' ⟨V', hs', hsole, hset⟩
  exact ⟨V', hset.root, hs', h'.pagesSet hsole hset⟩

lemma left_fits (h' : Shared h₀ h installed V) : h.brk.toNat + h.left * pageSize ≤ 2 ^ 64 ∧
    (h₀.stop.toNat ≤ h₀.brk.toNat + 2 ^ 48 → h.left ≤ 2 ^ 36) := by
  have haligned := h'.aligned
  have hfirst := h'.first
  have hstop := h.stop.toNat_lt
  have hbrk := h.brk.toNat_lt
  rw [← h'.stop]
  unfold Heap.left
  unfold Addr.PageAligned Addr.page pageSize at *
  constructor <;> omega

lemma le_left_of_fits (h' : Shared h₀ h installed V) (hf : h.Fits count) : count ≤ h.left := by
  have haligned := h'.aligned
  obtain ⟨-, -, hstop⟩ := hf
  unfold Heap.left
  unfold Addr.PageAligned Addr.page pageSize at *
  omega

lemma reserved (h' : Shared h₀ h installed V) (hsole : SoleFrames installed V') (hf : h.Fits count)
    (hset : PagesSet (OnPages h.brk 0 count) pendingEntry.raw V V') :
    Shared h₀ { h with brk := pageAt h.brk count } (fun n => installed n ∧ ¬ OnPages h.brk 0 count n) V' := by
  have hend := hf.2.1
  have hleft := h'.le_left_of_fits hf
  obtain ⟨hfits, hshort⟩ := h'.left_fits
  refine ⟨?_, ?_, h'.stop, ?_, fun hwindow n hn hi => ?_⟩
  · refine hsole.keep hsole.plain fun n hi hp => ⟨fun hin => hi ⟨hin, fun hn => ?_⟩, rfl, id⟩
    rw [hset.set n hn] at hp
    exact absurd hp (by decide)
  · have haligned := h'.aligned
    unfold Addr.PageAligned at *
    dsimp only
    rw [toNat_pageAt hend, Nat.add_mul_mod_self_right, haligned]
  · dsimp only
    rw [toNat_pageAt hend]
    exact Nat.le_trans h'.first (Nat.le_add_right ..)
  · -- what is left of the window lies behind the pages handed out
    have hahead : OnPages h.brk count h.left n := by
      have hrest : count + Heap.left { h with brk := pageAt h.brk count } = h.left := by
        unfold Heap.left at *
        dsimp only
        rw [page_pageAt hend]
        omega
      rw [← hrest]
      exact (onPages_pageAt hend).mp hn
    have hout : ¬ OnPages h.brk 0 count n := fun hn' => hn'.apart hfits (hshort hwindow) hahead
    obtain ⟨k, -, hk, rfl⟩ := hahead
    rw [hset.kept _ hout]
    exact h'.unused hwindow _ ⟨k, Nat.zero_le k, hk, rfl⟩ fun hin => hi ⟨hin, hout⟩

lemma tryReserve_ends (h' : Shared h₀ h installed V) (hs : Shows s V) (count : Nat) :
    Ends (tryReserve V.root h count) s fun r s' => ∃ V', V'.root = V.root ∧ Shows s' V' ∧
      ((∃ e, r = (.error e, h)) ∧ Shared h₀ h installed V' ∨ ∃ next, r = (.ok h.brk, next) ∧
        Shared h₀ next (fun n => installed n ∧ ¬ OnPages h.brk 0 count n) V') := by
  refine (h'.toSoleFrames.tryReserve_ends hs h count).mono ?_
  rintro r s' ⟨V', hs', hsole, (⟨rfl, hf, hset⟩ | ⟨he, k, -, -, hset⟩)⟩
  · exact ⟨V', hset.root, hs', .inr ⟨_, rfl, h'.reserved hsole hf hset⟩⟩
  · exact ⟨V', hset.root, hs', .inl ⟨he, h'.pagesSet hsole hset⟩⟩

end Shared

lemma SharedRun.shared {root : PhysAddr} {s₀ s : Store} {h₀ h : Heap} {installed : Nat → Prop}
    (run : SharedRun root s₀ h₀ s h installed)
    (start : ∃ V, V.root = root ∧ Shows s₀ V ∧ Shared h₀ h₀ (fun _ => False) V) :
    ∃ V, V.root = root ∧ Shows s V ∧ Shared h₀ h installed V := by
  induction run with
  | start => exact start
  | map _ step ih =>
    obtain ⟨V, rfl, hs, h'⟩ := ih
    obtain ⟨V', hroot, hs', (⟨⟨e, he⟩, -⟩ | ⟨-, h''⟩)⟩ := (h'.map_ends hs _ _).elim step
    · cases he
    · exact ⟨V', hroot, hs', h''⟩
  | mapFails _ step ih =>
    obtain ⟨V, rfl, hs, h'⟩ := ih
    obtain ⟨V', hroot, hs', (⟨-, h''⟩ | ⟨he, -⟩)⟩ := (h'.map_ends hs _ _).elim step
    · exact ⟨V', hroot, hs', h''⟩
    · cases he
  | unmap _ step ih =>
    obtain ⟨V, rfl, hs, h'⟩ := ih
    exact (h'.unmap_ends hs).elim step
  | tryReserve _ step ih =>
    obtain ⟨V, rfl, hs, h'⟩ := ih
    obtain ⟨V', hroot, hs', (⟨⟨e, he⟩, -⟩ | ⟨next, he, h''⟩)⟩ := (h'.tryReserve_ends hs _).elim step
    · cases he
    · cases he
      exact ⟨V', hroot, hs', h''⟩
  | tryReserveFails _ step ih =>
    obtain ⟨V, rfl, hs, h'⟩ := ih
    obtain ⟨V', hroot, hs', (⟨⟨e, he⟩, h''⟩ | ⟨next, he, -⟩)⟩ := (h'.tryReserve_ends hs _).elim step
    · cases he
      exact ⟨V', hroot, hs', h''⟩
    · cases he
  | resolveFault _ step ih =>
    obtain ⟨V, rfl, hs, h'⟩ := ih
    exact (h'.resolveFault_ends hs).elim step
  | release _ fits own step ih =>
    obtain ⟨V, rfl, hs, h'⟩ := ih
    exact (h'.release_ends hs fits own).elim step

/-- Where only the entries of some pages were overwritten, with one that is not present, only what these pages
translated is lost. -/
lemma PagesSet.image? {pages : Nat → Prop} {w : UInt64} {V V' : View} (h : PagesSet pages w V V')
    (hw : ¬ (⟨w⟩ : Entry).Present) (v : VirtAddr) :
    V'.image? v = V.image? v ∨ V'.image? v = none ∧ pages (index 0 v) ∧ V.word 0 (index 0 v) ≠ 0 := by
  unfold View.image? View.entry
  by_cases hp : pages (index 0 v)
  · rw [h.set _ hp, if_neg hw]
    by_cases hz : V.word 0 (index 0 v) = 0
    · rw [hz, if_neg Entry.not_present_zero]
      exact .inl rfl
    · exact .inr ⟨rfl, hp, hz⟩
  · rw [h.kept _ hp]
    exact .inl rfl

/-- **A reservation takes only translations of its own pages away**, whether it succeeds or fails, and it puts none in
their place. If no two pages of the heap window have the same number, the pages that lose their translation were
installed by somebody else. -/
theorem reservation_overwrites_only_installed {s₀ s : Store} {root : PhysAddr} {fs : List PhysAddr} {a b : VirtAddr}
    {h₀ h : Heap} {installed : Nat → Prop} (below : s₀.frames.mapped.stop.toNat ≤ 2 ^ 52) (aligned : root.PageAligned)
    (zeroed : TableEmpty s₀.ram root) (free : FreeFrames s₀ fs) (apart : root ∉ fs) (heap : Heap.new a b = .ok h₀)
    (run : SharedRun root s₀ h₀ s h installed) (count : Nat) :
    Ends (tryReserve root h count) s fun _ s' => ∀ v, translate s' root v = translate s root v ∨
      translate s' root v = none ∧ OnPages h.brk 0 count (index 0 v) ∧
        (h₀.stop.toNat ≤ h₀.brk.toNat + 2 ^ 48 → installed (index 0 v)) := by
  have hstart : Shared h₀ h₀ (fun _ => False) (.of s₀ root fs) := .zeroed zeroed (Heap.aligned_of_new heap)
  obtain ⟨V, rfl, hs, h'⟩ := run.shared ⟨_, rfl, .zeroed below aligned zeroed free apart, hstart⟩
  refine (h'.toSoleFrames.tryReserve_ends hs h count).mono ?_
  rintro r s' ⟨V', hs', hsole, hcases⟩ v
  have hset : ∃ k ≤ count, ∃ w, (0 < k → h.Fits count) ∧ ¬ (⟨w⟩ : Entry).Present ∧
      PagesSet (OnPages h.brk 0 k) w V V' := by
    rcases hcases with ⟨-, hf, hset⟩ | ⟨-, k, hk, hf, hset⟩
    · exact ⟨count, Nat.le_refl count, pendingEntry.raw, fun _ => hf, by decide, hset⟩
    · exact ⟨k, hk, 0, hf, Entry.not_present_zero, hset⟩
  obtain ⟨k, hk, w, hf, hw, hset⟩ := hset
  have himage : translate s' V.root v = V'.image? v := by rw [← hset.root, hs'.translate_image hsole.plain]
  rw [himage, hs.translate_image h'.plain]
  rcases hset.image? hw v with hsame | ⟨hnone, ⟨j, -, hj, hjv⟩, hused⟩
  · exact .inl hsame
  · refine .inr ⟨hnone, ⟨j, Nat.zero_le j, by omega, hjv⟩, fun hshort => ?_⟩
    have hleft := h'.le_left_of_fits (hf (by omega))
    by_contra hi
    exact hused (h'.unused hshort _ ⟨j, Nat.zero_le j, by omega, hjv⟩ hi)

/-- Somebody maps the first page of the window before it is handed out. -/
theorem reservation_overwrites_only_installed_first_page : ∃ s installed,
    SharedRun ⟨0x1000⟩ sixFrames ⟨⟨0x40000000⟩, ⟨0x40400000⟩⟩ s ⟨⟨0x40000000⟩, ⟨0x40400000⟩⟩ installed ∧
      installed (index 0 ⟨0x40000000⟩) ∧
      Ends (tryReserve ⟨0x1000⟩ ⟨⟨0x40000000⟩, ⟨0x40400000⟩⟩ 1) s fun _ s' => ∀ v,
        translate s' ⟨0x1000⟩ v = translate s ⟨0x1000⟩ v ∨ translate s' ⟨0x1000⟩ v = none ∧
          OnPages ⟨0x40000000⟩ 0 1 (index 0 v) ∧
            ((⟨0x40400000⟩ : VirtAddr).toNat ≤ (⟨0x40000000⟩ : VirtAddr).toNat + 2 ^ 48 → installed (index 0 v)) := by
  have hheap : Heap.new ⟨0x40000000⟩ ⟨0x40400000⟩ = .ok ⟨⟨0x40000000⟩, ⟨0x40400000⟩⟩ := by decide +kernel
  have hmaps : (map ⟨0x1000⟩ ⟨0x40000000⟩ ⟨0x9000⟩ .writable).run' sixFrames = some (.ok ()) := by decide +kernel
  obtain ⟨s, hmap⟩ := eq_ok_of_run' hmaps
  have hrun : SharedRun _ _ ⟨⟨0x40000000⟩, ⟨0x40400000⟩⟩ s _ _ := SharedRun.start.map hmap
  exact ⟨s, _, hrun, .inr rfl, reservation_overwrites_only_installed (by decide) (by decide) tableEmpty_sixFrames
    freeFrames_sixFrames (by decide) hheap hrun 1⟩

/-- A reservation takes the translation of a mapped page in its range away. One outside of its range is lost if somebody
mapped a table to a page of the heap and the page was released: the table is free now, and the next reservation makes
another table of it. -/
theorem reservation_loses_translations : (do
      let h : Heap := ⟨⟨0x401fe000⟩, ⟨0x50000000⟩⟩
      let _ ← map ⟨0x1000⟩ ⟨0x40005000⟩ ⟨0x9000⟩ .writable
      let _ ← map ⟨0x1000⟩ ⟨0x401fe000⟩ ⟨0xa000⟩ .writable
      let s₁ ← get
      let h := (← tryReserve ⟨0x1000⟩ h 1).2
      let s₂ ← get
      let _ ← map ⟨0x1000⟩ ⟨0x401fe000⟩ ⟨0x5000⟩ .writable
      release ⟨0x1000⟩ ⟨0x401fe000⟩ 1
      let s₃ ← get
      let _ ← tryReserve ⟨0x1000⟩ h 2
      let s₄ ← get
      return ([s₁, s₂].map (translate · ⟨0x1000⟩ ⟨0x401fe000⟩), [s₃, s₄].map (translate · ⟨0x1000⟩ ⟨0x40005000⟩)) :
        StoreM (List (Option PhysAddr) × List (Option PhysAddr))).run' sixFrames =
      some ([some ⟨0xa000⟩, none], [some ⟨0x9000⟩, none]) := by decide +kernel

end Nucleus.Paging
