import Nucleus.Proofs.Paging.OwnFrames

/-!
The operations on tables and on the heap window are clean: each page whose translation they take away is invalidated
before they end, and at every moment a page was invalidated before the allocator has its frame.
-/

namespace Nucleus.Paging

open Memory Relation

/-- The store shows tables in which each page that is not `installed` has a frame of its own and `unused` pages have
no entry. -/
def Served (O : Origin) (installed unused : Nat → Prop) (s : Store) : Prop :=
  ∃ V, Shows s V ∧ OwnFrames O installed unused V

section Operations

variable {O : Origin} {installed unused : Nat → Prop} {s : Store} {V : View} {v start : VirtAddr}

lemma Shows.getEntry_clean {β : Type} (h : Shows s V) {a : Nat} (ha : V.Leaf v a) {f : Entry → Script β}
    {R : β → Store → Prop} {root : PhysAddr} {G : Store → Prop} (hf : Clean root G (f (V.entry v)) s R) :
    Clean root G (Script.getEntry a >>= f) s R := by
  have hload : (⟨s.ram.load a⟩ : Entry) = V.entry v := congrArg Entry.mk (h.load_leaf ha)
  rw [← hload] at hf
  exact ⟨hf.ends, hf.coherent, hf.always⟩

lemma OwnFrames.unmap_clean (ho : OwnFrames O installed unused V) (hs : Shows s V) (hv : v.toNat < 2 ^ 47) :
    Clean V.root O.Guard (Script.unmap V.root v) s fun r s' =>
      (r = none ∧ Shows s' V ∧ V.word 0 (index 0 v) = 0) ∨ (r = some (V.entry v) ∧ Shows s' (V.put v 0)) := by
  refine clean_get_bind.mpr ?_
  cases hl : leaf? s V.root v with
  | none =>
    refine clean_pure (ho.guard s hs.guarded) (.inl ⟨rfl, hs, ?_⟩)
    refine (hs.word_zero_of_no_leaf fun a ha => ?_).resolve_left ho.plain.not_barred
    rw [hs.leaf?_eq_some.mpr ha] at hl
    cases hl
  | some a =>
    have ha := hs.leaf?_eq_some.mp hl
    refine hs.getEntry_clean ha ?_
    show Clean V.root O.Guard (if V.word 0 (index 0 v) = 0 then _ else _ : Script _) s _
    split
    · next hu => exact clean_pure (ho.guard s hs.guarded) (.inl ⟨rfl, hs, hu⟩)
    · refine hs.put_clean ho.plain ho.guard ha hv .empty fun s' hs' => ?_
      exact clean_pure ((ho.clear hv fun _ _ => Iff.rfl).guard s' hs'.guarded) (.inr ⟨rfl, hs'⟩)

end Operations

namespace Served

variable {O : Origin} {installed unused : Nat → Prop} {s : Store} {v start : VirtAddr}

lemma guard (h : Served O installed unused s) : O.Guard s := by
  obtain ⟨V, hs, ho⟩ := h
  exact ho.guard s hs.guarded

lemma mono (h : Served O installed unused s) {unused' : Nat → Prop} (hu : ∀ n, unused' n → unused n) :
    Served O installed unused' s := by
  obtain ⟨V, hs, ho⟩ := h
  exact ⟨V, hs, ho.mono hu⟩

lemma emit (h : Served O installed unused s) {e : Event} (he : e.invalidation? = none) :
    Served O installed unused { s with events := s.events.push e } := by
  obtain ⟨V, hs, ho⟩ := h
  exact ⟨V, hs.emit he, ho⟩

/-! ### Tables -/

lemma leafOrCreate_clean (h : Served O installed unused s) :
    Clean O.view.root O.Guard (Script.leafOrCreate O.view.root v) s fun r s' =>
      ∃ V, Shows s' V ∧ OwnFrames O installed unused V ∧ ∀ a, r = .ok a → V.Leaf v a := by
  obtain ⟨V, hs, ho⟩ := h
  rw [← ho.root]
  refine (hs.leafOrCreate_clean ho.plain ho.guard).mono ?_
  rintro r s' ⟨V', hg, hs', ha⟩
  exact ⟨V', hs', ho.grows hg, ha⟩

lemma reclaim_clean (h : Served O installed unused s) :
    Clean O.view.root O.Guard (Script.reclaim O.view.root v) s fun _ => Served O installed unused := by
  obtain ⟨V, hs, ho⟩ := h
  rw [← ho.root]
  refine (hs.reclaim_clean ho.plain ho.guard).mono ?_
  rintro _ s' ⟨V', hst, hs'⟩
  exact ⟨V', hs', ho.shrinks hst⟩

/-! ### Entries of pages -/

lemma map_clean (h : Served O installed unused s) (hv : v.toNat < 2 ^ 47) (hu : ¬ unused (index 0 v)) (p : PhysAddr)
    (flags : Flags) : Clean O.view.root O.Guard (Script.map O.view.root v p flags) s fun r s' =>
      ((∃ e, r = .error e) ∧ Served O installed unused s') ∨
        (r = .ok () ∧ Served O (fun n => installed n ∨ n = index 0 v) unused s') := by
  refine Clean.emit h.guard ((h.emit (e := .mapping v p) rfl).leafOrCreate_clean.bind ?_)
  rintro (e | a) s₁ ⟨V, hs, ho, ha⟩
  · exact clean_pure (ho.guard s₁ hs.guarded) (.inl ⟨⟨e, rfl⟩, V, hs, ho⟩)
  · rw [← ho.root]
    refine hs.put_clean ho.plain ho.guard (ha a rfl) hv _ fun s' hs' => ?_
    have ho' := ho.install hv hu (Entry.make p (flags ∪ .present)).raw
    exact clean_pure (ho'.guard s' hs'.guarded) (.inr ⟨rfl, _, hs', ho'⟩)

lemma unmap_clean (h : Served O installed unused s) (hv : v.toNat < 2 ^ 47) :
    Clean O.view.root O.Guard (Script.unmap O.view.root v) s fun _ =>
      Served O (fun n => installed n ∧ n ≠ index 0 v) unused := by
  obtain ⟨V, hs, ho⟩ := h
  rw [← ho.root]
  refine (ho.unmap_clean hs hv).mono ?_
  rintro r s' (⟨-, hs', hz⟩ | ⟨-, hs'⟩)
  · exact ⟨V, hs', ho.forget hz⟩
  · exact ⟨_, hs', (ho.clear hv fun n hn => and_iff_left hn).mono fun n => .inl⟩

/-! ### Releasing -/

/-- **Releasing a page**: it is invalidated before its frame is given back. -/
lemma releaseOne_clean (h : Served O installed unused s) (hv : v.toNat < 2 ^ 47) (hi : ¬ installed (index 0 v)) :
    Clean O.view.root O.Guard (Script.releaseOne O.view.root v) s fun _ =>
      Served O installed fun n => unused n ∨ n = index 0 v := by
  obtain ⟨V, hs, ho⟩ := h
  rw [← ho.root]
  refine (ho.unmap_clean hs hv).bind ?_
  rintro r s₁ (⟨rfl, h₁, hz⟩ | ⟨rfl, h₁⟩)
  · refine clean_pure (ho.guard s₁ h₁.guarded) ⟨V, h₁, { ho with fresh := ?_ }⟩
    rintro n (hn | rfl)
    exacts [ho.fresh n hn, hz]
  · have ho' := ho.releasePage hv hi
    unfold View.releasePage at ho'
    show Clean V.root O.Guard (if (V.entry v).Present then _ else _ : Script _) s₁ _
    by_cases hp : (V.entry v).Present
    · -- the frame goes back, now that the page is invalidated
      rw [if_pos hp] at ho' ⊢
      refine (h₁.free_clean (ho.plain.put v 0) ((ho.loose _ hi hp).put v 0) ho'.guard).bind ?_
      rintro _ s₂ ⟨-, h₂⟩
      exact clean_pure (ho'.guard s₂ h₂.guarded) ⟨_, h₂, ho'⟩
    · rw [if_neg hp] at ho' ⊢
      exact clean_pure (ho'.guard s₁ h₁.guarded) ⟨_, h₁, ho'⟩

/-- **Releasing pages** on which nothing was installed. -/
lemma releaseFrom_clean {i n : Nat} (h : Served O installed unused s)
    (hv : ∀ j, i ≤ j → j < i + n → start.toNat + j * pageSize < 2 ^ 47 ∧ ¬ installed (start.page + j)) :
    Clean O.view.root O.Guard (Script.releaseFrom O.view.root start i n) s fun _ =>
      Served O installed fun m => unused m ∨ ∃ j, i ≤ j ∧ j < i + n ∧ m = start.page + j := by
  induction n generalizing i s unused with
  | zero =>
    refine clean_pure h.guard (h.mono ?_)
    rintro m (hm | ⟨j, hij, hji, -⟩)
    · exact hm
    · omega
  | succ n ih =>
    obtain ⟨hlow, hi⟩ := hv i (Nat.le_refl i) (by omega)
    have hindex := index_pageAt_of_lt hlow
    have hpage : (pageAt start i).toNat < 2 ^ 47 := by rwa [toNat_pageAt (by omega)]
    refine (clean_check_bind (pageFrom_eq (by omega))).mpr ?_
    refine (h.releaseOne_clean hpage (hindex ▸ hi)).bind fun _ s₁ h₁ => ?_
    rw [hindex] at h₁
    have hrest : ∀ s₂, Served O installed (fun m => unused m ∨ m = start.page + i) s₂ →
        Clean O.view.root O.Guard (Script.releaseFrom O.view.root start (i + 1) n) s₂ fun _ =>
          Served O installed fun m => unused m ∨ ∃ j, i ≤ j ∧ j < i + (n + 1) ∧ m = start.page + j := by
      intro s₂ h₂
      refine (ih h₂ fun j hj hjn => hv j (by omega) (by omega)).mono fun _ s' h' => h'.mono ?_
      rintro m (hm | ⟨j, hj, hjn, rfl⟩)
      · exact .inl (.inl hm)
      · rcases Nat.lt_or_eq_of_le hj with hlt | rfl
        · exact .inr ⟨j, hlt, by omega, rfl⟩
        · exact .inl (.inr rfl)
    show Clean _ _ (if n = 0 ∨ EndsTable (pageAt start i) then _ else _ : Script _) s₁ _
    split
    · exact h₁.reclaim_clean.bind fun _ s₂ h₂ => hrest s₂ h₂
    · exact hrest s₁ h₁

/-! ### Reserving -/

/-- **Marking unused pages** changes no translation. If a table cannot be made, the marked pages are released. -/
lemma markFrom_clean {window : Span} {i n : Nat}
    (h : Served O installed (fun m => m ∈ window ∧ start.page + i ≤ m) s)
    (fits : start.toNat + (i + n) * pageSize ≤ 2 ^ 47) (first : ∀ m ∈ window, start.page ≤ m)
    (hwin : ∀ j < i + n, start.page + j ∈ window ∧ ¬ installed (start.page + j)) :
    Clean O.view.root O.Guard (Script.markFrom O.view.root start i n) s fun r s' =>
      (r = .ok () ∧ Served O installed (fun m => m ∈ window ∧ start.page + (i + n) ≤ m) s') ∨
        ((∃ e, r = .error e) ∧ Served O installed (· ∈ window) s') := by
  induction n generalizing i s with
  | zero => exact clean_pure h.guard (.inl ⟨rfl, h⟩)
  | succ n ih =>
    have hlow : ∀ j < i + (n + 1), start.toNat + j * pageSize < 2 ^ 47 := by
      intro j hj
      have := Nat.mul_le_mul_right pageSize (Nat.succ_le_of_lt hj)
      unfold pageSize at *
      omega
    have hi := hlow i (by omega)
    have hindex := index_pageAt_of_lt hi
    have hpage : (pageAt start i).toNat < 2 ^ 47 := by rwa [toNat_pageAt (by omega)]
    refine (clean_check_bind (pageFrom_eq (by omega))).mpr ?_
    refine h.leafOrCreate_clean.bind ?_
    rintro (e | a) s₁ ⟨V, hs, ho, ha⟩
    · -- the pages before this one are released; those from it on were not used
      have h₁ : Served O installed _ s₁ := ⟨V, hs, ho⟩
      refine (h₁.releaseFrom_clean fun j _ hj => ⟨hlow j (by omega), (hwin j (by omega)).2⟩).bind fun _ s₂ h₂ => ?_
      refine h₂.reclaim_clean.bind fun _ s₃ h₃ => clean_pure h₃.guard (.inr ⟨⟨e, rfl⟩, h₃.mono fun m hm => ?_⟩)
      have hfirst := first m hm
      rcases Nat.lt_or_ge m (start.page + i) with hlt | hge
      · exact .inr ⟨m - start.page, Nat.zero_le _, by omega, by omega⟩
      · exact .inl ⟨hm, hge⟩
    · -- the page is marked; it had no translation that could get stale
      have hmark : index 0 (pageAt start i) ∈ window ∧ start.page + i ≤ index 0 (pageAt start i) := by
        rw [hindex]
        exact ⟨(hwin i (by omega)).1, Nat.le_refl _⟩
      have habsent : ¬ (V.entry (pageAt start i)).Present := by
        unfold View.entry
        rw [ho.fresh _ hmark]
        exact Entry.not_present_zero
      have he : i + (n + 1) = i + 1 + n := by omega
      rw [← ho.root]
      refine hs.mark_clean ho.plain ho.guard (ha a rfl) hpage habsent pendingEntry fun s₂ hs₂ => ?_
      have h₂ : Served O installed (fun m => m ∈ window ∧ start.page + (i + 1) ≤ m) s₂ := by
        refine ⟨_, hs₂, (ho.mark hmark).mono fun m hm => ⟨⟨hm.1, by omega⟩, ?_⟩⟩
        rw [hindex]
        omega
      rw [ho.root]
      rw [he] at fits hwin ⊢
      exact ih h₂ fits hwin

lemma tryReserve_clean {h : Heap} (hs : Served O installed (· ∈ h.window) s) (hw : h.Within h.window)
    (hi : ∀ n ∈ h.window, ¬ installed n) (count : Nat) :
    Clean O.view.root O.Guard (Script.tryReserve O.view.root h count) s fun r s' =>
      r.2.Within h.window ∧ Served O installed (· ∈ r.2.window) s' := by
  show Clean _ _ (if count = 0 then _ else _ : Script _) s _
  by_cases hcount : count = 0
  · rw [if_pos hcount]
    exact clean_pure hs.guard ⟨hw, hs⟩
  rw [if_neg hcount]
  show Clean _ _ (if ¬ h.Fits count then _ else _ : Script _) s _
  by_cases hfits : ¬ h.Fits count
  · rw [if_pos hfits]
    exact clean_pure hs.guard ⟨hw, hs⟩
  rw [if_neg hfits]
  have hf := not_not.mp hfits
  have hzero : 0 + count = count := Nat.zero_add count
  have hfirst : ∀ m ∈ h.window, h.brk.page ≤ m := fun m hm => (Span.mem_def.mp hm).1
  have hwin : ∀ j < 0 + count, h.brk.page + j ∈ h.window ∧ ¬ installed (h.brk.page + j) := fun j hj =>
    have hm := hw.mem_window hf (hzero ▸ hj)
    ⟨hm, hi _ hm⟩
  have hmark := markFrom_clean (i := 0) (hs.mono fun m hm => hm.1) (hzero.symm ▸ hw.low_of_fits hf) hfirst hwin
  refine hmark.bind ?_
  rintro r s₁ (⟨rfl, h₁⟩ | ⟨⟨e, rfl⟩, h₁⟩)
  · refine (clean_check_bind (pageFrom_eq hf.2.1)).mpr (Clean.emit h₁.guard ?_)
    have hnew : ∀ m ∈ Heap.window { h with brk := pageAt h.brk count },
        m ∈ h.window ∧ h.brk.page + (0 + count) ≤ m := by
      intro m hm
      obtain ⟨hge, hlt⟩ := Span.mem_def.mp hm
      rw [show (Heap.window { h with brk := pageAt h.brk count }).first = _ from page_pageAt hf.2.1] at hge
      exact ⟨Span.mem_def.mpr ⟨Nat.le_trans (Nat.le_add_right _ _) hge, hlt⟩, by omega⟩
    have h₂ := (h₁.emit (e := .reserved count h.brk) rfl).mono hnew
    exact clean_pure h₂.guard ⟨hw.after hf, h₂⟩
  · exact clean_pure h₁.guard ⟨hw, h₁⟩

lemma reserve_clean {h : Heap} (hs : Served O installed (· ∈ h.window) s) (hw : h.Within h.window)
    (hi : ∀ n ∈ h.window, ¬ installed n) (count : Nat) :
    Clean O.view.root O.Guard (Script.reserve O.view.root h count) s fun r s' =>
      r.2.Within h.window ∧ Served O installed (· ∈ r.2.window) s' := by
  refine (hs.tryReserve_clean hw hi count).bind ?_
  rintro ⟨e | v, h'⟩ s₁ ⟨hw₁, h₁⟩
  · exact Clean.emit h₁.guard (clean_pure (h₁.emit rfl).guard ⟨hw₁, h₁.emit rfl⟩)
  · exact clean_pure h₁.guard ⟨hw₁, h₁⟩

/-! ### Faults -/

/-- **A fault** puts a frame behind a page that had no translation, and invalidates it. -/
lemma resolveFault_clean (h : Served O installed unused s) (hv : v.toNat < 2 ^ 47) :
    Clean O.view.root O.Guard (Script.resolveFault O.view.root v) s fun _ => Served O installed unused := by
  obtain ⟨V, hs, ho⟩ := h
  rw [← ho.root]
  have hstay : ∀ {β : Type} (r : β), Clean V.root O.Guard (pure r : Script β) s fun _ => Served O installed unused :=
    fun r => clean_pure (ho.guard s hs.guarded) ⟨V, hs, ho⟩
  refine clean_get_bind.mpr ?_
  cases hl : leaf? s V.root v.pageBase with
  | none => exact hstay _
  | some a =>
    have ha := hs.leaf?_eq_some.mp hl
    refine hs.getEntry_clean ha ?_
    rw [V.entry_pageBase]
    show Clean _ _ (if ¬ (V.entry v).Demand ∨ (V.entry v).Present then _ else _ : Script _) s _
    by_cases hd : ¬ (V.entry v).Demand ∨ (V.entry v).Present
    · rw [if_pos hd]
      exact hstay _
    rw [if_neg hd]
    obtain ⟨hdemand, -⟩ := not_or.mp hd
    cases hfree : V.free with
    | nil =>
      refine (hs.alloc_clean ho.plain ho.guard (hs.alloc_nil hfree)).bind ?_
      rintro _ s₁ ⟨rfl, h₁⟩
      exact clean_pure (ho.guard s₁ h₁.guarded) ⟨V, h₁, ho⟩
    | cons f fs =>
      refine (hs.alloc_clean ho.plain ho.guard (hs.alloc_cons hfree)).bind ?_
      rintro _ s₁ ⟨rfl, h₁, hb⟩
      have hlow : v.pageBase.toNat < 2 ^ 47 := by
        rw [Addr.toNat_pageBase]
        unfold Addr.page pageSize
        omega
      -- an unused page has no entry, so it does not wait for a frame
      have hused : ¬ unused (index 0 v.pageBase) := by
        intro hu
        have hz := ho.fresh _ hu
        rw [index_pageBase] at hz
        refine hdemand fun hd => ?_
        unfold View.entry at hd
        rw [hz] at hd
        exact absurd hd (by decide)
      have hlt : f.toNat < 2 ^ 52 := Nat.lt_of_lt_of_le hb.frame.mem.2 hs.below
      have ho' := ho.backPage hfree hb.toLoose hlow hused
        (Entry.base_make_of_aligned hb.frame.aligned hlt (View.backedFlags (V.entry v)))
      refine h₁.put_clean (ho.take hfree).plain (ho.take hfree).guard ha hlow _ fun s₂ h₂ => ?_
      exact Clean.emit (ho'.guard s₂ h₂.guarded)
        (clean_pure (ho'.guard _ (h₂.emit rfl).guarded) ⟨_, h₂.emit rfl, ho'⟩)

end Served

end Nucleus.Paging
