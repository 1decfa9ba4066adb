import Nucleus.Proofs.Paging.Walk

/-!
The operations that change the tables, in terms of the view: missing tables are made by links on the way to
the address, empty ones are given back by unlinks, and the entry of a page is written in its place.
-/

namespace Nucleus.Paging

open Memory Relation

/-- How the making of the missing tables on the way to `v` ends: with the place of the entry of the page, without a free
frame, or else before any table was made. -/
structure Made (V V' : View) (v : VirtAddr) (r : Except MapError Nat) : Prop where
  leaf : ∀ a, r = .ok a → V'.Leaf v a
  spent : r = .error .outOfMemory → V'.free = []
  unchanged : ∀ e, r = .error e → e ≠ .outOfMemory → V' = V

lemma Made.refused {V : View} {v : VirtAddr} {e : MapError} (h : e ≠ .outOfMemory) : Made V V v (.error e) :=
  ⟨nofun, fun he => absurd (Except.error.inj he) h, fun _ _ _ => rfl⟩

namespace Shows

variable {s : Store} {V : View} {v : VirtAddr}

/-! ### Making tables -/

/-- Where an entry is absent, a blank frame can become the missing table. -/
lemma link_ends (h : Shows s V) {l : Nat} {t f : PhysAddr} (hl : l < Level.root)
    (ht : V.table? (l + 1) (index (l + 2) v) = some t)
    (hp : ¬ (⟨V.word (l + 1) (index (l + 1) v)⟩ : Entry).Present) (hb : Blank s V f) :
    Ends (setEntry (slotAddress t (l + 1) v) (linkTo f)) s
      fun _ s' => Shows s' (V.setWord (l + 1) (index (l + 1) v) (linkTo f).raw) := by
  refine ends_modify ?_
  unfold slotAddress
  rw [slot_eq_index hl]
  rw [index_succ] at ht
  refine h.setWord hl ht ?_ ?_
  · intro k hk
    obtain rfl : k = l := by omega
    exact h.vacant (by omega) (Depicts.table?_of_absent hl hp)
  · intro g _ hg
    rw [childOf_linkTo hb.frame h.below] at hg
    exact Option.some.inj hg ▸ hb

lemma links_ends (h : Shows s V) {l : Nat} {t f : PhysAddr} {fs : List PhysAddr} {s₁ : Store} (hl : l < Level.root)
    (ht : V.table? (l + 1) (index (l + 2) v) = some t)
    (hp : ¬ (⟨V.word (l + 1) (index (l + 1) v)⟩ : Entry).Present) (hw : ¬ V.Barred v) (hfree : V.free = f :: fs)
    (h₁ : Shows s₁ { V with free := fs }) (hb : Blank s₁ { V with free := fs } f) :
    Ends (setEntry (slotAddress t (l + 1) v) (linkTo f)) s₁ fun _ s' =>
      ∃ V', Links v V V' ∧ V'.table? l (index (l + 1) v) = some f ∧ V'.word l (index l v) = 0 ∧ Shows s' V' := by
  refine (h₁.link_ends hl ht hp hb).mono fun _ s' h' => ?_
  have hnone := Depicts.table?_of_absent hl hp
  have hchild := childOf_linkTo hb.frame h.below (l + 1)
  refine ⟨_, .mk hl hfree hchild hb.toLoose ?_ hp (h.vacant (by omega) hnone) hw, ?_, ?_, h'⟩
  · rw [ht]
    exact Option.some_ne_none t
  · refine (View.table?_setWord hl (index (l + 1) v) (linkTo f).raw l (index (l + 1) v)).trans ?_
    rw [if_pos ⟨rfl, rfl⟩, hchild]
  · refine (V.word_setWord l (index l v) (l + 1) _ _).trans ?_
    rw [if_neg fun he => Nat.succ_ne_self l he.1.symm]
    exact h.word_zero_below (Nat.le_of_lt hl) (Nat.le_refl l) hnone

/-- **Making the missing tables** on the way to an address ends. Where the entry in the given table is unused, nothing
but a lack of frames can stop it. -/
lemma createFrom_ends (h : Shows s V) {l : Nat} {t : PhysAddr} (hl : l ≤ Level.root)
    (hw : l < Level.root → ¬ V.Barred v) (ht : V.table? l (index (l + 1) v) = some t ∨ t ∉ V.mapped) :
    Ends (createFrom v l t) s fun r s' => ∃ V', Grows v V V' ∧ Shows s' V' ∧ Made V V' v r ∧
      (t ∈ V.mapped → V.word l (index l v) = 0 → ∀ e, r = .error e → e = .outOfMemory) := by
  induction l generalizing s V t with
  | zero =>
    rw [createFrom, ends_get_bind]
    rcases ht with ht | ht
    · rw [Window.visible?_of_mem (h.mem_mapped ht)]
      refine ends_pure ⟨V, .refl, h, ⟨?_, nofun, nofun⟩, fun _ _ => nofun⟩
      rintro a ⟨⟩
      exact ⟨hw (by decide), t, ht, rfl⟩
    · have hout : t ∉ s.frames.mapped := h.mapped ▸ ht
      rw [Window.visible?_of_not_mem hout]
      exact ends_pure ⟨V, .refl, h, .refused nofun, fun hm => absurd hm ht⟩
  | succ l ih =>
    rw [createFrom, ends_get_bind]
    rcases ht with ht | ht
    · rw [h.entryIn?_eq hl ht]
      show Ends (if (⟨V.word (l + 1) (index (l + 1) v)⟩ : Entry).Present then _ else _) s _
      by_cases hp : (⟨V.word (l + 1) (index (l + 1) v)⟩ : Entry).Present
      · -- the next table exists
        rw [if_pos hp]
        have hne := Entry.ne_zero_of_present hp
        by_cases hh : (⟨V.word (l + 1) (index (l + 1) v)⟩ : Entry).Huge
        · rw [if_pos hh]
          exact ends_pure ⟨V, .refl, h, .refused nofun, fun _ h0 => absurd h0 hne⟩
        · rw [if_neg hh]
          have hwalk : l < Level.root → ¬ V.Barred v := fun _ hb => by
            rcases Nat.lt_or_eq_of_le hl with hlt | heq
            · exact hw hlt hb
            · exact hh (heq ▸ hb.2)
          refine (ih h (by omega) hwalk ((Depicts.child_or_unreachable hl hp hh).imp_right And.left)).mono ?_
          rintro r s' ⟨V', hg, h', hmade, -⟩
          exact ⟨V', hg, h', hmade, fun _ h0 => absurd h0 hne⟩
      · -- the entry is unused: its table takes the next free frame, if there is one
        rw [if_neg hp]
        cases hfree : V.free with
        | nil =>
          refine Ends.bind (h.alloc_nil hfree) ?_
          rintro _ s' ⟨rfl, h'⟩
          refine ends_pure ⟨V, .refl, h', ⟨nofun, fun _ => hfree, fun e he hne => ?_⟩, fun _ _ e he => ?_⟩
          · exact absurd (Except.error.inj he).symm hne
          · exact (Except.error.inj he).symm
        | cons f fs =>
          refine Ends.bind (h.alloc_cons hfree) ?_
          rintro _ s₁ ⟨rfl, h₁, hb⟩
          refine Ends.bind (P := fun _ s' => Shows s' { V with free := fs } ∧ Blank s' { V with free := fs } f)
            (ends_modify ⟨h₁.emit rfl, hb.toLoose, hb.zero⟩) ?_
          rintro _ s₂ ⟨h₂, hb₂⟩
          have hwalk : ¬ V.Barred v := by
            rcases Nat.lt_or_eq_of_le hl with hlt | heq
            · exact hw hlt
            · exact fun hbar => hp (heq ▸ hbar.1)
          refine Ends.bind (h.links_ends hl ht hp hwalk hfree h₂ hb₂) ?_
          rintro _ s₃ ⟨V₁, hstep, htable, hvacant, h₃⟩
          rw [show (Entry.make f (.present ∪ .writable)).base = f from linkTo_base hb.frame h.below]
          refine (ih h₃ (by omega) (fun _ hbar => hwalk (hstep.barred.mp hbar)) (.inl htable)).mono ?_
          rintro r s' ⟨V', hg, h', hmade, hfresh⟩
          have hspent := hfresh (View.mem_of_table? htable) hvacant
          exact ⟨V', .head hstep hg, h', ⟨hmade.leaf, hmade.spent, fun e he hne => absurd (hspent e he) hne⟩,
            fun _ _ => hspent⟩
    · -- a table out of reach is not looked into
      rw [h.entryIn?_none ht]
      exact ends_pure ⟨V, .refl, h, .refused nofun, fun hm => absurd hm ht⟩

lemma leafOrCreate_made (h : Shows s V) : Ends (leafOrCreate V.root v) s fun r s' =>
    ∃ V', Grows v V V' ∧ Shows s' V' ∧ Made V V' v r := by
  refine (h.createFrom_ends (Nat.le_refl _) (fun hl => absurd hl (Nat.lt_irrefl _)) ?_).mono ?_
  · rw [← h.mapped]
    rcases h.root_table (v := v) with ⟨-, ht⟩ | ⟨hr, -⟩
    · exact .inl ht
    · exact .inr hr
  · rintro r s' ⟨V', hg, h', hmade, -⟩
    exact ⟨V', hg, h', hmade⟩

/-- Where making the missing tables gives an entry, this is the entry of the page. -/
theorem leafOrCreate_ends (h : Shows s V) : Ends (leafOrCreate V.root v) s fun r s' =>
    ∃ V', Grows v V V' ∧ Shows s' V' ∧ ∀ a, r = .ok a → V'.Leaf v a :=
  h.leafOrCreate_made.mono fun _ _ ⟨V', hg, h', hmade⟩ => ⟨V', hg, h', hmade.leaf⟩

end Shows

/-! ### Giving tables back -/

/-- The links of the tables on the way to `v` from level `l` up to below level `top`, from the bottom up. -/
def Climb (V : View) (v : VirtAddr) (top : Nat) : Nat → List Link → Prop
  | l, [] => l = top
  | l, k :: ks => l < top ∧ (⟨V.word (l + 1) (index (l + 1) v)⟩ : Entry).Present ∧
      ¬ (⟨V.word (l + 1) (index (l + 1) v)⟩ : Entry).Huge ∧
      k.table = (⟨V.word (l + 1) (index (l + 1) v)⟩ : Entry).base ∧
      (∃ p, V.table? (l + 1) (index (l + 2) v) = some p ∧ k.parentSlot = slotAddress p (l + 1) v) ∧
      Climb V v top (l + 1) ks

namespace Climb

variable {V V' : View} {v : VirtAddr} {top l : Nat} {k : Link} {ks : List Link}

lemma append (h : Climb V v top l ks) (hk : Climb V v (top + 1) top [k]) : Climb V v (top + 1) l (ks ++ [k]) := by
  induction ks generalizing l with
  | nil => exact (show l = top from h) ▸ hk
  | cons j js ih =>
    obtain ⟨hl, hp, hh, ht, hs, hrest⟩ := h
    exact ⟨by omega, hp, hh, ht, hs, ih hrest⟩

lemma congr (h : Climb V v top l ks) (hw : ∀ j, l < j → ∀ n, V'.word j n = V.word j n)
    (ht : ∀ j, l < j → ∀ n, V'.table? j n = V.table? j n) : Climb V' v top l ks := by
  induction ks generalizing l with
  | nil => exact h
  | cons j js ih =>
    obtain ⟨hl, hp, hh, htable, hs, hrest⟩ := h
    refine ⟨hl, ?_, ?_, ?_, ?_, ih hrest (fun i hi => hw i (by omega)) fun i hi => ht i (by omega)⟩
    · rwa [hw _ (by omega)]
    · rwa [hw _ (by omega)]
    · rwa [hw _ (by omega)]
    · rwa [ht _ (by omega)]

lemma not_empty_above (h : Climb V v top l ks) {j : Nat} (hl : l < j) (hj : j ≤ top) :
    ¬ V.Empty j (index (j + 1) v) := by
  induction ks generalizing l with
  | nil =>
    have : l = top := h
    omega
  | cons k ks ih =>
    obtain ⟨-, hp, -, -, -, hrest⟩ := h
    rcases Nat.lt_or_eq_of_le (Nat.succ_le_of_lt hl) with hlt | rfl
    · exact ih hrest hlt
    · intro he
      refine Entry.ne_zero_of_present hp ?_
      rw [← Nat.div_add_mod (index (l + 1) v) entriesPerTable, ← index_succ]
      exact he.2 _ (Nat.mod_lt _ (by decide))

end Climb

lemma Unlinks.table?_of_some {v : VirtAddr} {V V' : View} (st : Unlinks v V V') {k n : Nat} {t : PhysAddr}
    (ht : V'.table? k n = some t) : V.table? k n = some t := by
  obtain @⟨l, c, below, -, -, -, -, -⟩ := st
  have ht' : (V.setWord (l + 1) (index (l + 1) v) 0).table? k n = some t := ht
  rw [View.table?_setWord below] at ht'
  split at ht'
  · simp at ht'
  · exact ht'

lemma Shrinks.table?_of_some {v : VirtAddr} {V V' : View} (st : Shrinks v V V') {k n : Nat} {t : PhysAddr}
    (ht : V'.table? k n = some t) : V.table? k n = some t := by
  induction st with
  | refl => exact ht
  | tail _ st ih => exact ih (st.table?_of_some ht)

/-- No table on the way to `v` that could be given back lies at address zero. -/
def NullInUse (V : View) (v : VirtAddr) : Prop :=
  ∀ V', Shrinks v V V' → ∀ l < Level.root, V'.Empty l (index (l + 1) v) →
    V'.table? l (index (l + 1) v) ≠ some .null

namespace Depicts

variable {s : Store} {V : View} {v : VirtAddr}

lemma linksFrom_unreachable {l : Nat} {t : PhysAddr} (ht : t ∉ s.frames.mapped) : linksFrom s v l t = [] := by
  cases l with
  | zero => rfl
  | succ l => rw [linksFrom, entryIn?_of_not_mem ht]

lemma linksFrom_succ {l : Nat} {t : PhysAddr} {e : Entry} (he : entryIn? s t (l + 1) v = some e) :
    linksFrom s v (l + 1) t = if ¬ e.Present ∨ e.Huge then []
      else ⟨e.base, slotAddress t (l + 1) v⟩ :: linksFrom s v l e.base := by
  rw [linksFrom, he]

/-- The links found from a table on lead up to it, and nothing is linked below the lowest of them. -/
lemma linksFrom_climb (h : Depicts s V) {l : Nat} {t : PhysAddr} (hl : l ≤ Level.root)
    (ht : V.table? l (index (l + 1) v) = some t) :
    ∃ m ≤ l, Climb V v l m (linksFrom s v l t).reverse ∧
      (¬ V.Barred v → ∀ k < m, V.table? k (index (k + 1) v) = none) := by
  induction l generalizing t with
  | zero => exact ⟨0, Nat.le_refl 0, rfl, fun _ k hk => absurd hk (Nat.not_lt_zero k)⟩
  | succ l ih =>
    rw [linksFrom_succ (h.entryIn?_eq hl ht)]
    by_cases hp : ¬ (⟨V.word (l + 1) (index (l + 1) v)⟩ : Entry).Present ∨
        (⟨V.word (l + 1) (index (l + 1) v)⟩ : Entry).Huge
    · rw [if_pos hp]
      refine ⟨l + 1, Nat.le_refl _, rfl, fun hw k hk => ?_⟩
      exact h.table?_none_below (by omega) (by omega) (table?_none_of_stop hl hw hp)
    · rw [if_neg hp, List.reverse_cons]
      obtain ⟨hpr, hhuge⟩ := not_or.mp hp
      have hk : Climb V v (l + 1) l [⟨(⟨V.word (l + 1) (index (l + 1) v)⟩ : Entry).base, slotAddress t (l + 1) v⟩] :=
        ⟨Nat.lt_succ_self l, not_not.mp hpr, hhuge, rfl, ⟨t, ht, rfl⟩, rfl⟩
      rcases child_or_unreachable hl (not_not.mp hpr) hhuge with hc | ⟨hm, hn⟩
      · obtain ⟨m, hm, hclimb, hnone⟩ := ih (by omega) hc
        exact ⟨m, by omega, hclimb.append hk, hnone⟩
      · -- a table out of reach is linked, but nothing below it is looked up
        rw [linksFrom_unreachable (h.mapped ▸ hm)]
        refine ⟨l, by omega, hk, fun _ k hk => ?_⟩
        exact h.table?_none_below (by omega) (by omega) hn

/-- Where its parent points to an empty table, clearing this entry makes it a frame that can be given back. -/
lemma unlink_ends (h : Depicts s V) {l : Nat} {c p : PhysAddr} (hl : l < Level.root) (hw : ¬ V.Barred v)
    (hparent : V.table? (l + 1) (index (l + 2) v) = some p) (hc : V.table? l (index (l + 1) v) = some c)
    (hnull : NullInUse V v) (hempty : TableEmpty s.ram c) :
    Unlinks v V { V.setWord (l + 1) (index (l + 1) v) 0 with free := c :: V.free } ∧
      Ends (setEntry (slotAddress p (l + 1) v) .empty) s fun _ s' =>
        Depicts s' (V.setWord (l + 1) (index (l + 1) v) 0) ∧ (V.setWord (l + 1) (index (l + 1) v) 0).Loose c := by
  have hzero : ∀ i < entriesPerTable, V.word l (entriesPerTable * index (l + 1) v + i) = 0 := by
    intro i hi
    rw [← h.words (by omega) hc i hi]
    exact hempty i hi
  have hf : IsFrame V.mapped c := by
    refine ⟨h.aligned hc, fun he => hnull V .refl l hl ⟨?_, hzero⟩ (he ▸ hc), View.mem_of_table? hc⟩
    rw [hc]
    exact Option.some_ne_none c
  refine ⟨.mk hl hc hf (h.apart (by omega) hc) hzero hw, ends_modify ⟨?_, hf, h.apart (by omega) hc, ?_⟩⟩
  · unfold slotAddress
    rw [slot_eq_index hl]
    rw [index_succ] at hparent
    refine h.setWord hl hparent ?_ ?_
    · intro j hj
      obtain rfl : j = l := by omega
      exact hzero
    · intro f _ hf
      simp [Entry.empty] at hf
  · -- the tables are distinct, so no other entry links this one
    intro j m hj ht
    rw [View.table?_setWord hl] at ht
    split at ht
    · simp at ht
    · next hne =>
      obtain ⟨rfl, rfl⟩ := h.distinct hj (by omega) ht hc
      exact hne ⟨rfl, rfl⟩

/-- Giving back empty tables climbs from the lowest of them until a table is in use. -/
lemma unlinkEmpty_ends (h : Depicts s V) {l n : Nat} {ks : List Link} (hc : Climb V v Level.root l ks)
    (hw : ¬ V.Barred v) (hnull : NullInUse V v) :
    Ends (unlinkEmpty ks n) s fun m s' => ∃ V', Shrinks v V V' ∧ Depicts s' V' ∧
      (∀ k, l ≤ k → k < Level.root → ¬ V'.Empty k (index (k + 1) v)) ∧
      m + V.free.length = n + V'.free.length := by
  induction ks generalizing s V l n with
  | nil =>
    have hl : l = Level.root := hc
    exact ends_pure ⟨V, .refl, h, fun k hk hlt => by omega, rfl⟩
  | cons k ks ih =>
    have hstop : ¬ V.Empty l (index (l + 1) v) → ∀ j, l ≤ j → j < Level.root → ¬ V.Empty j (index (j + 1) v) := by
      intro hn j hj hlt
      rcases Nat.lt_or_eq_of_le hj with hlj | rfl
      · exact hc.not_empty_above hlj (Nat.le_of_lt hlt)
      · exact hn
    obtain ⟨hl, hp, hh, htable, ⟨p, hparent, hslot⟩, hrest⟩ := hc
    rw [unlinkEmpty, ends_get_bind, htable, hslot]
    have hchild := child_or_unreachable hl hp hh
    generalize (⟨V.word (l + 1) (index (l + 1) v)⟩ : Entry).base = c at hchild
    by_cases hm : c ∈ V.mapped ∧ TableEmpty s.ram c
    · -- the table is empty: it is given back, and the climb goes on
      have hc := hchild.resolve_right fun hn => hn.1 hm.1
      have hcut := View.table?_setWord (V := V) hl (index (l + 1) v) 0
      obtain ⟨hstep, hends⟩ := h.unlink_ends hl hw hparent hc hnull hm.2
      rw [if_pos ⟨h.sees_iff.mpr hm.1, hm.2⟩]
      refine Ends.bind hends ?_
      rintro _ s₁ ⟨h₁, hloose⟩
      refine Ends.bind (h₁.free_ends hloose) ?_
      rintro _ s₂ ⟨rfl, h₂⟩
      have hrest' : Climb { V.setWord (l + 1) (index (l + 1) v) 0 with free := c :: V.free } v Level.root (l + 1) ks :=
        hrest.congr (fun j hj n => if_neg (by omega)) fun j hj n => (hcut j n).trans (if_neg (by omega))
      refine (ih h₂ hrest' (fun hb => hw (hstep.barred.mp hb)) fun V' hs => hnull V' (.head hstep hs)).mono ?_
      rintro m s' ⟨V', hs, h', hne, hcount⟩
      refine ⟨V', .head hstep hs, h', ?_, ?_⟩
      · intro j hj hlt
        rcases Nat.lt_or_eq_of_le hj with hlj | rfl
        · exact hne j hlj hlt
        · -- the table given back is not linked again further up
          intro he
          obtain ⟨t, ht⟩ := Option.ne_none_iff_exists'.mp he.1
          have hcut' := (hcut l (index (l + 1) v)).symm.trans (hs.table?_of_some ht)
          simp at hcut'
      · simp only [List.length_cons, View.free_setWord] at hcount
        omega
    · -- the table is in use, and so are those above it, which link the way to it
      rw [if_neg fun hk => hm ⟨h.sees_iff.mp hk.1, hk.2⟩]
      refine ends_pure ⟨V, .refl, h, hstop fun he => ?_, rfl⟩
      obtain ⟨t, ht⟩ := Option.ne_none_iff_exists'.mp he.1
      rcases hchild with hc | ⟨-, hc⟩
      · refine hm ⟨View.mem_of_table? hc, fun i hi => ?_⟩
        exact (h.words (by omega) hc i hi).trans (he.2 i hi)
      · simp [hc] at ht

/-- **Giving tables back** leaves no empty table on the way to an address. -/
theorem reclaim_ends (h : Depicts s V) (hnull : NullInUse V v) : Ends (reclaim V.root v) s fun n s' =>
    ∃ V', Shrinks v V V' ∧ Depicts s' V' ∧
      (¬ V.Barred v → ∀ k < Level.root, ¬ V'.Empty k (index (k + 1) v)) ∧
      n + V.free.length = V'.free.length := by
  have hlinks : Ends (unlinkEmpty (linksFrom s v Level.root V.root).reverse 0) s fun n s' =>
      ∃ V', Shrinks v V V' ∧ Depicts s' V' ∧
        (¬ V.Barred v → ∀ k < Level.root, ¬ V'.Empty k (index (k + 1) v)) ∧
        n + V.free.length = V'.free.length := by
    rcases h.root_table (v := v) with ⟨-, ht⟩ | ⟨hr, hn⟩
    · -- a large page in the root entry hides whatever is below
      by_cases hw : V.Barred v
      · have he : entryIn? s V.root (2 + 1) v = some ⟨V.word Level.root (index Level.root v)⟩ :=
          h.entryIn?_eq (Nat.le_refl Level.root) ht
        rw [show linksFrom s v Level.root V.root = _ from linksFrom_succ he, if_pos (.inr hw.2)]
        exact ends_pure ⟨V, .refl, h, fun hn => absurd hw hn, Nat.zero_add _⟩
      · obtain ⟨m, -, hc, hnone⟩ := h.linksFrom_climb (Nat.le_refl _) ht
        refine (h.unlinkEmpty_ends hc hw hnull).mono ?_
        rintro n s' ⟨V', hs, h', hne, hcount⟩
        refine ⟨V', hs, h', fun _ k hk he => ?_, by omega⟩
        rcases Nat.lt_or_ge k m with hkm | hkm
        · -- there is no table below the lowest link
          obtain ⟨t, ht⟩ := Option.ne_none_iff_exists'.mp he.1
          have := hs.table?_of_some ht
          rw [hnone hw k hkm] at this
          cases this
        · exact hne k hkm hk he
    · rw [linksFrom_unreachable hr]
      refine ends_pure ⟨V, .refl, h, fun _ k hk he => he.1 ?_, Nat.zero_add _⟩
      exact h.table?_none_below (Nat.le_refl _) (Nat.le_of_lt hk) hn
  unfold reclaim
  rw [ends_get_bind]
  refine Ends.bind hlinks ?_
  rintro n s₁ ⟨V', hs, h', hne, hcount⟩
  by_cases hpos : 0 < n
  · rw [if_pos hpos]
    exact ends_modify_bind.mpr (ends_pure ⟨V', hs, h'.emit rfl, hne, hcount⟩)
  · rw [if_neg hpos]
    exact ends_pure ⟨V', hs, h', hne, hcount⟩

end Depicts

lemma Shows.reclaim_ends {s : Store} {V : View} {v : VirtAddr} (h : Shows s V) (hnull : NullInUse V v) :
    Ends (reclaim V.root v) s fun n s' => ∃ V', Shrinks v V V' ∧ Shows s' V' ∧
      (¬ V.Barred v → ∀ k < Level.root, ¬ V'.Empty k (index (k + 1) v)) ∧
      n + V.free.length = V'.free.length :=
  (h.toDepicts.reclaim_ends hnull).mono fun _ _ ⟨V', hs, h', hrest⟩ =>
    ⟨V', hs, ⟨h', hs.keepsPages.mapped ▸ h.below⟩, hrest⟩

/-! ### Writing the entry of a page -/

/-- The view after the entry of the page of `v` was written and its cached mapping dropped. -/
def View.put (V : View) (v : VirtAddr) (w : UInt64) : View :=
  { V.setWord 0 (index 0 v) w with dropped := V.dropped ++ [v] }

@[simp] lemma View.pages_put (V : View) (v : VirtAddr) (w : UInt64) (n : Nat) :
    (V.put v w).word 0 n = if n = index 0 v then w else V.word 0 n := by
  refine (V.word_setWord 0 n 0 (index 0 v) w).trans ?_
  simp only [true_and]

@[simp] lemma View.word_put_succ (V : View) (v : VirtAddr) (w : UInt64) (l n : Nat) :
    (V.put v w).word (l + 1) n = V.word (l + 1) n :=
  (V.word_setWord (l + 1) n 0 (index 0 v) w).trans (if_neg fun h => Nat.succ_ne_zero l h.1)

@[simp] lemma View.table?_put (V : View) (v : VirtAddr) (w : UInt64) (l n : Nat) :
    (V.put v w).table? l n = V.table? l n := by
  refine (View.table?_setWord (Nat.zero_le _) (index 0 v) w l n).trans (if_neg ?_)
  exact fun h => Nat.succ_ne_zero l h.1

/-! ### Frames in no use -/

namespace View.Loose

variable {V V' : View} {f g : PhysAddr} {fs : List PhysAddr}

lemma put (h : V.Loose f) (v : VirtAddr) (w : UInt64) : (V.put v w).Loose f := by
  refine ⟨h.frame, h.not_free, fun hl => ?_⟩
  rw [V.table?_put]
  exact h.not_table hl

lemma setWord_zero (h : V.Loose f) (v : VirtAddr) (w : UInt64) : (V.setWord 0 (index 0 v) w).Loose f :=
  ⟨h.frame, h.not_free, (h.put v w).not_table⟩

lemma take (h : V.Loose g) (hf : V.free = f :: fs) : View.Loose { V with free := fs } g := by
  refine ⟨h.frame, fun hm => h.not_free ?_, h.not_table⟩
  rw [hf]
  exact List.mem_cons_of_mem f hm

lemma links {v : VirtAddr} (h : V.Loose f) (st : Links v V V') : V'.Loose f := by
  obtain @⟨l, c, cs, below, free, child, -, -, -, -, -⟩ := st
  have hne : f ≠ c := fun he => h.not_free (he ▸ free ▸ List.mem_cons_self ..)
  refine ⟨h.frame, fun hm => h.not_free ?_, fun {k n} hk ht => ?_⟩
  · rw [free]
    exact List.mem_cons_of_mem _ hm
  · have ht' : (V.setWord (l + 1) (index (l + 1) v) (linkTo c).raw).table? k n = some f := ht
    rw [View.table?_setWord_succ below, child] at ht'
    split at ht'
    · exact hne (Option.some.inj ht').symm
    · exact h.not_table hk ht'

lemma unlinks {v : VirtAddr} (h : V.Loose f) (st : Unlinks v V V') : V'.Loose f := by
  have htable : ∀ {k n}, V'.table? k n = some f → V.table? k n = some f := st.table?_of_some
  obtain @⟨l, c, below, child, -, -, -, -⟩ := st
  refine ⟨h.frame, fun hm => ?_, fun hk ht => h.not_table hk (htable ht)⟩
  rcases List.mem_cons.mp hm with rfl | hm
  · exact h.not_table (Nat.le_of_lt below) child
  · exact h.not_free hm

end View.Loose

namespace Shows

variable {s : Store} {V : View} {v : VirtAddr}

/-- **Mapping a page** makes the missing tables and then writes its entry, or else fails without writing it. -/
theorem map_ends (h : Shows s V) (p : PhysAddr) (flags : Flags) : Ends (map V.root v p flags) s fun r s' =>
    ∃ V', Grows v V V' ∧ ((∃ e, r = .error e ∧ Shows s' V') ∨
      (r = .ok () ∧ (∃ a, V'.Leaf v a) ∧ Shows s' (V'.put v (Entry.make p (flags ∪ .present)).raw))) := by
  unfold map
  refine Ends.bind (P := fun _ s' => Shows s' V) (ends_modify (h.emit rfl)) ?_
  rintro _ s₁ h₁
  refine Ends.bind h₁.leafOrCreate_ends ?_
  rintro (e | a) s₂ ⟨V', hg, h₂, ha⟩
  · exact ends_pure ⟨V', hg, .inl ⟨e, rfl, h₂⟩⟩
  · have hleaf := ha a rfl
    refine Ends.bind (h₂.setEntry_leaf hleaf _) ?_
    rintro _ s₃ h₃
    refine ends_modify_bind.mpr (ends_pure ⟨V', hg, .inr ⟨rfl, ⟨a, hleaf⟩, h₃.invalidated v⟩⟩)

/-- Without a place for the entry of a page, the page has no entry, or the large page bit hides it. -/
lemma word_zero_of_no_leaf (h : Shows s V) (hn : ∀ a, ¬ V.Leaf v a) :
    V.Barred v ∨ V.word 0 (index 0 v) = 0 := by
  by_cases hw : V.Barred v
  · exact .inl hw
  · refine .inr (h.word_zero_below (l := 0) (Nat.zero_le _) (Nat.le_refl 0) ?_)
    refine Option.eq_none_iff_forall_not_mem.mpr fun t ht => ?_
    exact hn _ ⟨hw, t, ht, rfl⟩

/-- **Unmapping a page** clears its entry, if it has one. -/
theorem unmap_ends (h : Shows s V) : Ends (unmap V.root v) s fun r s' =>
    (r = none ∧ Shows s' V ∧ (V.Barred v ∨ V.word 0 (index 0 v) = 0)) ∨
      (r = some (V.entry v) ∧ V.word 0 (index 0 v) ≠ 0 ∧ (∃ a, V.Leaf v a) ∧ Shows s' (V.put v 0)) := by
  unfold unmap
  rw [ends_get_bind]
  cases hl : leaf? s V.root v with
  | none =>
    refine ends_pure (.inl ⟨rfl, h, h.word_zero_of_no_leaf fun a ha => ?_⟩)
    rw [h.leaf?_eq_some.mpr ha] at hl
    cases hl
  | some a =>
    have ha := h.leaf?_eq_some.mp hl
    refine (h.getEntry_bind ha).mpr ?_
    by_cases hu : V.word 0 (index 0 v) = 0
    · show Ends (if V.word 0 (index 0 v) = 0 then _ else _) s _
      rw [if_pos hu]
      exact ends_pure (.inl ⟨rfl, h, .inr hu⟩)
    · show Ends (if V.word 0 (index 0 v) = 0 then _ else _) s _
      rw [if_neg hu]
      refine Ends.bind (h.setEntry_leaf ha .empty) ?_
      rintro _ s₁ h₁
      exact ends_modify_bind.mpr (ends_pure (.inr ⟨rfl, hu, ⟨a, ha⟩, h₁.invalidated v⟩))

end Shows

/-! ### Heap pages -/

namespace View

/-- The view after the page of `v` was released, and with it the frame behind it. -/
def releasePage (V : View) (v : VirtAddr) : View :=
  { V.put v 0 with free := if (V.entry v).Present then (V.entry v).base :: V.free else V.free }

/-- The flags of a heap page once it has a frame. -/
def backedFlags (e : Entry) : Flags := e.flags.remove .demand ∪ .present

def Waiting (V : View) (v : VirtAddr) : Prop :=
  (∃ a, V.Leaf v a) ∧ (V.entry v).Demand ∧ ¬ (V.entry v).Present

end View

namespace Shows

variable {s : Store} {V : View} {v : VirtAddr}

/-- **Releasing a page** clears its entry and frees the frame behind it. -/
theorem releaseOne_ends (h : Shows s V)
    (hb : (V.entry v).Present → V.Loose (V.entry v).base) :
    Ends (releaseOne V.root v) s fun _ s' => (Shows s' V ∧ (V.Barred v ∨ V.word 0 (index 0 v) = 0)) ∨
      (V.word 0 (index 0 v) ≠ 0 ∧ (∃ a, V.Leaf v a) ∧ Shows s' (V.releasePage v)) := by
  unfold releaseOne View.releasePage
  refine Ends.bind h.unmap_ends ?_
  rintro r s₁ (⟨rfl, h₁, hz⟩ | ⟨rfl, hnz, ha, h₁⟩)
  · exact ends_pure (.inl ⟨h₁, hz⟩)
  · show Ends (if _ then _ else _) s₁ _
    by_cases hp : (V.entry v).Present
    · rw [if_pos hp]
      refine Ends.bind (h₁.free_ends ((hb hp).put v 0)) ?_
      rintro _ s₂ ⟨-, h₂⟩
      refine ends_pure (.inr ⟨hnz, ha, ?_⟩)
      rw [if_pos hp]
      exact h₂
    · rw [if_neg hp]
      refine ends_pure (.inr ⟨hnz, ha, ?_⟩)
      rw [if_neg hp]
      exact h₁

lemma setEntry_leaf_blank (h : Shows s V) {a : Nat} (ha : V.Leaf v a) {f : PhysAddr} (hb : Blank s V f) (e : Entry) :
    Ends (setEntry a e) s fun _ s' => Shows s' (V.setWord 0 (index 0 v) e.raw) ∧
      ∀ i < entriesPerTable, s'.ram.slot f i = 0 := by
  refine (h.setEntry_leaf ha e).and (ends_modify fun i hi => ?_)
  obtain ⟨-, t, ht, rfl⟩ := ha
  refine (Ram.slot_store (h.aligned ht) hb.frame.aligned (slot_lt (Nat.zero_le _) v) hi e.raw).trans ?_
  rw [if_neg fun he => hb.not_table (Nat.zero_le _) (he.1 ▸ ht), hb.zero i hi]

/-- **The first access to a waiting page** puts the next free frame behind it, zeroed; other faults change nothing. -/
theorem resolveFault_ends (h : Shows s V) : Ends (resolveFault V.root v) s fun r s' =>
    (∃ e, r = .error e ∧ ¬ (V.Waiting v ∧ V.free ≠ []) ∧ Shows s' V) ∨
      ∃ f fs, V.free = f :: fs ∧ r = .ok f ∧ V.Waiting v ∧ View.Loose { V with free := fs } f ∧
        (∀ i < entriesPerTable, s'.ram.slot f i = 0) ∧
        Shows s' ({ V with free := fs }.put v.pageBase (Entry.make f (View.backedFlags (V.entry v))).raw) := by
  unfold resolveFault
  rw [ends_get_bind]
  cases hl : leaf? s V.root v.pageBase with
  | none =>
    refine ends_pure (.inl ⟨.noEntry, rfl, ?_, h⟩)
    rintro ⟨⟨⟨a, ha⟩, -⟩, -⟩
    rw [h.leaf?_eq_some.mpr (View.leaf_pageBase.mpr ha)] at hl
    cases hl
  | some a =>
    have ha := h.leaf?_eq_some.mp hl
    have hleaf : ∃ a, V.Leaf v a := ⟨a, View.leaf_pageBase.mp ha⟩
    refine (h.getEntry_bind ha).mpr ?_
    rw [V.entry_pageBase]
    show Ends (if _ then _ else _) s _
    by_cases hd : ¬ (V.entry v).Demand ∨ (V.entry v).Present
    · -- the page does not wait
      rw [if_pos hd]
      refine ends_pure (.inl ⟨.notPending _, rfl, ?_, h⟩)
      rintro ⟨⟨-, hdemand, hp⟩, -⟩
      exact hd.elim (fun hn => hn hdemand) hp
    · -- the page waits, so only a frame can be missing
      rw [if_neg hd]
      obtain ⟨hdemand, hp⟩ := not_or.mp hd
      cases hfree : V.free with
      | nil =>
        refine Ends.bind (h.alloc_nil hfree) ?_
        rintro _ s₁ ⟨rfl, h₁⟩
        exact ends_pure (.inl ⟨.outOfMemory, rfl, fun hw => hw.2 rfl, h₁⟩)
      | cons f fs =>
        refine Ends.bind (h.alloc_cons hfree) ?_
        rintro _ s₁ ⟨rfl, h₁, hb⟩
        refine Ends.bind (h₁.setEntry_leaf_blank (v := v.pageBase) (a := a) ha hb _) ?_
        rintro _ s₂ ⟨h₂, hz⟩
        refine ends_modify_bind.mpr (ends_modify_bind.mpr (ends_pure (.inr ?_)))
        refine ⟨f, fs, rfl, rfl, ⟨hleaf, not_not.mp hdemand, hp⟩, hb.toLoose, hz, ?_⟩
        exact (h₂.invalidated v.pageBase).emit rfl

end Shows

end Nucleus.Paging
