import Nucleus.Proofs.Paging.Cache
import Nucleus.Proofs.Paging.Plain
import Nucleus.Proofs.Paging.Window

/-!
What leaves the translations alone. Making tables, giving them back and moving frames change no translation at any
moment, and the allocator has no frame then that is in other hands. Writing the entry of a page changes the
translation of this page alone.
-/

namespace Nucleus.Paging

open Memory

variable {β : Type}

def View.image? (V : View) (v : VirtAddr) : Option PhysAddr :=
  if (V.entry v).Present then some (View.byteOf (V.entry v) 0 v) else none

/-- The dropped mappings are those of the view, and the allocator has no frame that is in other hands there. -/
structure Guarded (V : View) (t : Store) : Prop where
  dropped : t.dropped = V.dropped
  stock : ∀ f, t.InStock f → ¬ V.Loose f

/-- All translations are those of the view, too. -/
structure Still (V : View) (t : Store) : Prop extends Guarded V t where
  translate_eq : ∀ v, translate t V.root v = V.image? v

/-- **As long as nothing that the tables say changes**, no translation gets stale. -/
lemma Coherent.of_still {V : View} {m : Script α} {s : Store} (h : m.Always (Still V) s) :
    Coherent V.root m ∅ s := by
  induction m generalizing s with
  | done | stop => rfl
  | look k ih => exact ih s h
  | take d k ih =>
    refine (ih h.2).anti ?_
    rintro n ⟨hn | ⟨f, hf, hlost⟩, -⟩
    · exact hn
    · exact absurd (hf.congr fun v _ => (h.2.first.translate_eq v).trans (h.1.translate_eq v).symm) hlost

lemma Clean.of_still {V : View} {m : Script α} {s : Store} {op : StoreM α} {Q : α → Store → Prop} (hm : m.run = op)
    (he : Ends op s Q) (h : m.Always (Still V) s) {G : Store → Prop} (hG : ∀ t, Guarded V t → G t) :
    Clean V.root G m s Q := ⟨hm ▸ he, .of_still h, h.mono fun t ht => hG t ht.toGuarded⟩

lemma Still.of_keepsPages {V V' : View} {t : Store} (h : Still V' t) (hk : KeepsPages V V')
    (hl : ∀ f, V.Loose f → V'.Loose f) : Still V t := by
  refine ⟨⟨h.dropped.trans hk.dropped, fun f hf hlo => h.stock f hf (hl f hlo)⟩, fun v => ?_⟩
  rw [← hk.root, h.translate_eq]
  unfold View.image? View.entry
  rw [hk.pages]

lemma Still.emit {V : View} {t : Store} (h : Still V t) {e : Event} (he : e.invalidation? = none) :
    Still V { t with events := t.events.push e } :=
  ⟨⟨(emit_keeps he []).dropped.trans h.dropped, h.stock⟩, fun v =>
    (translate_congr t { t with events := t.events.push e } rfl rfl V.root v).trans (h.translate_eq v)⟩

namespace Shows

variable {s t : Store} {V : View} {v : VirtAddr}

lemma translate_image (h : Shows s V) (hp : Plain V) (v : VirtAddr) : translate s V.root v = V.image? v := by
  rw [h.translate_eq, hp.translate_eq h (Nat.le_refl _)]
  rfl

lemma guarded (h : Shows s V) : Guarded V s :=
  ⟨h.dropped, fun f hf hl => hl.not_free ((h.free.confined (List.Subset.refl _)).stock f hf)⟩

lemma still (h : Shows s V) (hp : Plain V) : Still V s := ⟨h.guarded, h.translate_image hp⟩

/-- What changes frames only that are not in the tables leaves the translations alone. -/
lemma still_of_confined (h : Shows s V) (hp : Plain V) {gs : List PhysAddr} (hc : Confined gs s t)
    (ha : ∀ g ∈ gs, g.PageAligned) (ht : ∀ {l n t}, l ≤ Level.root → V.table? l n = some t → t ∉ gs)
    (fs : List PhysAddr) (hl : ∀ f ∈ gs, ¬ View.Loose { V with free := fs } f) : Still { V with free := fs } t := by
  -- the list itself can be in any state, so the view is that of a store without free frames
  let bare : Store := { t with frames := ⟨t.frames.window, [], .null, 0, true⟩ }
  have hbare : Shows bare { V with free := [] } :=
    h.ofKeeps ⟨hc.keeps.mapped, hc.keeps.ram, hc.keeps.dropped⟩
      ⟨⟨[], rfl, rfl⟩, fun _ => rfl, nofun, .nil, rfl⟩ ha ht (by simp)
  refine ⟨⟨hc.keeps.dropped.trans h.dropped, fun f hf => hl f (hc.stock f hf)⟩, fun v => ?_⟩
  exact (translate_congr bare t rfl rfl V.root v).trans (hbare.translate_image hp v)

/-! ### Frames -/

lemma alloc_still (h : Shows s V) (hp : Plain V) : Script.alloc.Always (Still V) s :=
  (Script.alloc_always h.free).mono fun _ hc =>
    h.still_of_confined hp hc h.free.aligned h.apart V.free fun _ hf hl => hl.not_free hf

lemma free_still (h : Shows s V) (hp : Plain V) {f : PhysAddr} (hf : V.Loose f) :
    (Script.free f).Always (Still { V with free := f :: V.free }) s := by
  have hapart : ∀ {l n t}, l ≤ Level.root → V.table? l n = some t → t ∉ f :: V.free := by
    rintro l n t hl ht (_ | ⟨_, hm⟩)
    · exact hf.not_table hl ht
    · exact h.apart hl ht hm
  have haligned : ∀ g ∈ f :: V.free, g.PageAligned := List.forall_mem_cons.mpr ⟨hf.frame.aligned, h.free.aligned⟩
  exact (Script.free_always h.free (h.mapped ▸ hf.frame) hf.not_free).mono fun t hc =>
    h.still_of_confined hp hc haligned hapart (f :: V.free) fun _ hg hl => hl.not_free hg

/-! ### Tables -/

/-- **Making tables** leaves the translations alone at every moment. -/
lemma createFrom_still (h : Shows s V) (hp : Plain V) {l : Nat} {t : PhysAddr} (hl : l ≤ Level.root)
    (ht : V.table? l (index (l + 1) v) = some t ∨ t ∉ V.mapped) :
    (Script.createFrom v l t).Always (Still V) s := by
  have hstill := h.still hp
  induction l generalizing s V t with
  | zero =>
    rw [Script.createFrom, Script.always_get_bind]
    cases s.frames.window.visible? t <;> exact hstill
  | succ l ih =>
    rw [Script.createFrom, Script.always_get_bind]
    rcases ht with ht | ht
    · rw [h.entryIn?_eq hl ht]
      show (if (⟨V.word (l + 1) (index (l + 1) v)⟩ : Entry).Present then _ else _ : Script _).Always _ s
      split
      · next hpr =>
        split
        · exact hstill
        · next hh => exact ih h hp (by omega) ((Depicts.child_or_unreachable hl hpr hh).imp_right And.left) hstill
      · next hpr =>
        cases hfree : V.free with
        | nil =>
          refine (h.alloc_still hp).bind (Script.run_alloc ▸ h.alloc_nil hfree) ?_
          rintro _ s' ⟨rfl, h'⟩
          exact h'.still hp
        | cons f fs =>
          refine (h.alloc_still hp).bind (Script.run_alloc ▸ h.alloc_cons hfree) ?_
          rintro _ s₁ ⟨rfl, h₁, hb⟩
          have h₂ := h₁.emit (e := .tableCreated f (l + 1)) rfl
          obtain ⟨V', hstep, htable, -, h₃⟩ :=
            (h.links_ends hl ht hpr hp.not_barred hfree h₂ ⟨hb.toLoose, hb.zero⟩).elim rfl
          have htaken : ∀ {t}, Still { V with free := fs } t → Still V t := fun hs =>
            hs.of_keepsPages ⟨rfl, rfl, rfl, rfl⟩ fun _ hf => hf.take hfree
          have hlater : ∀ {t}, Still V' t → Still V t := fun hs =>
            hs.of_keepsPages hstep.keepsPages fun _ hf => hf.links hstep
          refine ⟨htaken (h₁.still hp), htaken (h₂.still hp), ?_⟩
          rw [show (Entry.make f (.present ∪ .writable)).base = f from linkTo_base hb.frame h.below]
          exact (ih h₃ (hp.links hstep) (by omega) (.inl htable) (h₃.still (hp.links hstep))).mono fun _ => hlater
    · rw [h.entryIn?_none ht]
      exact hstill

lemma leafOrCreate_still (h : Shows s V) (hp : Plain V) : (Script.leafOrCreate V.root v).Always (Still V) s := by
  refine h.createFrom_still hp (Nat.le_refl _) ?_
  rw [← h.mapped]
  rcases h.root_table (v := v) with ⟨-, ht⟩ | ⟨hr, -⟩
  · exact .inl ht
  · exact .inr hr

/-- **Giving tables back** leaves the translations alone at every moment. -/
lemma unlinkEmpty_still (h : Shows s V) (hp : Plain V) {l n : Nat} {ks : List Link}
    (hc : Climb V v Level.root l ks) : (Script.unlinkEmpty ks n).Always (Still V) s := by
  have hstill := h.still hp
  induction ks generalizing s V l n with
  | nil => exact hstill
  | cons k ks ih =>
    obtain ⟨hl, hpr, hh, htable, ⟨p, hparent, hslot⟩, hrest⟩ := hc
    rw [Script.unlinkEmpty, Script.always_get_bind, htable, hslot]
    have hchild := Depicts.child_or_unreachable hl hpr hh
    generalize (⟨V.word (l + 1) (index (l + 1) v)⟩ : Entry).base = c at hchild
    by_cases hm : c ∈ V.mapped ∧ TableEmpty s.ram c
    · have hc := hchild.resolve_right fun hn => hn.1 hm.1
      obtain ⟨hstep, hends⟩ := h.unlink_ends hl hp.not_barred hparent hc hp.nullInUse hm.2
      obtain ⟨hdepicts, hloose⟩ := hends.elim rfl
      have h₁ : Shows _ (V.setWord (l + 1) (index (l + 1) v) 0) := ⟨hdepicts, h.below⟩
      have hp₁ := hp.setWord hl (m := index (l + 1) v) (.inl rfl)
      have hlater : ∀ {t}, Still { V.setWord (l + 1) (index (l + 1) v) 0 with free := c :: V.free } t → Still V t :=
        fun hs => hs.of_keepsPages hstep.keepsPages fun _ hf => hf.unlinks hstep
      rw [if_pos ⟨h.sees_iff.mpr hm.1, hm.2⟩]
      refine ⟨hstill, ?_⟩
      refine (Script.Always.mono (h₁.free_still hp₁ hloose) fun _ => hlater).bind
        (Script.run_free c ▸ h₁.free_ends hloose) ?_
      rintro _ s₂ ⟨rfl, h₂⟩
      have hcut := View.table?_setWord (V := V) hl (index (l + 1) v) 0
      have hrest' : Climb { V.setWord (l + 1) (index (l + 1) v) 0 with free := c :: V.free } v Level.root (l + 1) ks :=
        hrest.congr (fun j hj n => if_neg (by omega)) fun j hj n => (hcut j n).trans (if_neg (by omega))
      exact (ih h₂ (hp.unlinks hstep) hrest' (h₂.still (hp.unlinks hstep))).mono fun _ => hlater
    · rw [if_neg fun hk => hm ⟨h.sees_iff.mp hk.1, hk.2⟩]
      exact hstill

lemma reclaim_still (h : Shows s V) (hp : Plain V) : (Script.reclaim V.root v).Always (Still V) s := by
  have hlinks : (Script.unlinkEmpty (linksFrom s v Level.root V.root).reverse 0).Always (Still V) s := by
    rcases h.root_table (v := v) with ⟨-, ht⟩ | ⟨hr, -⟩
    · obtain ⟨m, -, hc, -⟩ := h.linksFrom_climb (Nat.le_refl _) ht
      exact h.unlinkEmpty_still hp hc
    · rw [Depicts.linksFrom_unreachable hr]
      exact h.still hp
  refine hlinks.bind_of_run fun n s' hm => ?_
  have hlast := hlinks.last hm
  by_cases hn : 0 < n
  · rw [if_pos hn]
    exact ⟨hlast, hlast.emit rfl⟩
  · rw [if_neg hn]
    exact hlast

/-! ### Clean operations -/

variable {G : Store → Prop}

lemma alloc_clean (h : Shows s V) (hp : Plain V) (hG : ∀ t, Guarded V t → G t) {Q : Option PhysAddr → Store → Prop}
    (he : Ends FrameList.alloc s Q) : Clean V.root G Script.alloc s Q :=
  .of_still Script.run_alloc he (h.alloc_still hp) hG

lemma free_clean (h : Shows s V) (hp : Plain V) {f : PhysAddr} (hf : V.Loose f)
    (hG : ∀ t, Guarded { V with free := f :: V.free } t → G t) : Clean V.root G (Script.free f) s fun r s' =>
      r = .ok () ∧ Shows s' { V with free := f :: V.free } :=
  .of_still (Script.run_free f) (h.free_ends hf) (h.free_still hp hf) hG

lemma leafOrCreate_clean (h : Shows s V) (hp : Plain V) (hG : ∀ t, Guarded V t → G t) :
    Clean V.root G (Script.leafOrCreate V.root v) s fun r s' =>
      ∃ V', Grows v V V' ∧ Shows s' V' ∧ ∀ a, r = .ok a → V'.Leaf v a :=
  .of_still Script.run_leafOrCreate h.leafOrCreate_ends (h.leafOrCreate_still hp) hG

lemma reclaim_clean (h : Shows s V) (hp : Plain V) (hG : ∀ t, Guarded V t → G t) :
    Clean V.root G (Script.reclaim V.root v) s fun _ s' => ∃ V', Shrinks v V V' ∧ Shows s' V' := by
  refine .of_still Script.run_reclaim ((h.reclaim_ends hp.nullInUse).mono ?_) (h.reclaim_still hp) hG
  rintro _ s' ⟨V', hs, h', -, -⟩
  exact ⟨V', hs, h'⟩

lemma lost_subset (h : Shows s V) (hp : Plain V) (hv : v.toNat < 2 ^ 47) {w : UInt64}
    (ht : Shows t (V.setWord 0 (index 0 v) w)) : Lost V.root s t ⊆ {v.page} := by
  rintro n ⟨f, hf, hlost⟩
  by_contra hne
  refine hlost (hf.congr fun u hu => ?_)
  have hlow : u.toNat < 2 ^ 47 := by
    have := hf.low
    unfold Addr.page pageSize at hu
    omega
  have hindex : index 0 u ≠ index 0 v := by
    rw [index_zero_of_lt hlow, index_zero_of_lt hv]
    exact fun he => hne (hu.symm.trans he)
  have hentry : (V.setWord 0 (index 0 v) w).entry u = V.entry u := congrArg Entry.mk (if_neg fun he => hindex he.2)
  have himage : (V.setWord 0 (index 0 v) w).image? u = V.image? u := by
    unfold View.image?
    rw [hentry]
  exact (ht.translate_image (hp.put v w) u).trans (himage.trans (h.translate_image hp u).symm)

lemma guarded_setWord {w : UInt64} (ht : Shows t (V.setWord 0 (index 0 v) w)) : Guarded V t := by
  refine ⟨ht.dropped, fun f hf hl => ht.guarded.stock f hf ⟨hl.frame, hl.not_free, fun {l n} hk => ?_⟩⟩
  have htable : (V.setWord 0 (index 0 v) w).table? l n = V.table? l n := V.table?_put v w l n
  rw [htable]
  exact hl.not_table hk

/-- **Writing the entry of a page** is clean if the page is invalidated right after it. -/
lemma put_clean (h : Shows s V) (hp : Plain V) (hG : ∀ t, Guarded V t → G t) {a : Nat} (ha : V.Leaf v a)
    (hv : v.toNat < 2 ^ 47) (e : Entry) {k : Unit → Script β} {R : β → Store → Prop}
    (hk : ∀ s', Shows s' (V.put v e.raw) → Clean V.root G (k ()) s' R) :
    Clean V.root G (Script.setEntry a e >>= fun _ => Script.invalidate v >>= k) s R := by
  have h₁ := (h.setEntry_leaf ha e).elim rfl
  obtain ⟨hends, hrest, halways⟩ := hk _ (h₁.invalidated v)
  refine ⟨hends, hrest.anti ?_, hG _ h.guarded, hG _ (guarded_setWord h₁), halways⟩
  rintro n ⟨⟨hn | hn, -⟩ | hn, hd⟩
  · exact hn
  · exact absurd ⟨v, rfl, (h.lost_subset hp hv h₁ hn).symm⟩ hd
  · exact (lost_emit _).subset hn

lemma mark_clean (h : Shows s V) (hp : Plain V) (hG : ∀ t, Guarded V t → G t) {a : Nat} (ha : V.Leaf v a)
    (hv : v.toNat < 2 ^ 47) (hn : ¬ (V.entry v).Present) (e : Entry) {k : Unit → Script β} {R : β → Store → Prop}
    (hk : ∀ s', Shows s' (V.setWord 0 (index 0 v) e.raw) → Clean V.root G (k ()) s' R) :
    Clean V.root G (Script.setEntry a e >>= k) s R := by
  have h₁ := (h.setEntry_leaf ha e).elim rfl
  obtain ⟨hends, hrest, halways⟩ := hk _ h₁
  refine ⟨hends, hrest.anti ?_, hG _ h.guarded, halways⟩
  rintro n ⟨hn' | hn', -⟩
  · exact hn'
  · obtain rfl : n = v.page := h.lost_subset hp hv h₁ hn'
    obtain ⟨f, hf, -⟩ := hn'
    have hnone : translate s V.root v = none := (h.translate_image hp v).trans (if_neg hn)
    have hsome := hf.translated v rfl
    rw [hnone] at hsome
    cases hsome

end Shows

end Nucleus.Paging
