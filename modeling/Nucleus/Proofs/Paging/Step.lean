import Mathlib.Logic.Relation
import Nucleus.Proofs.Paging.View

/-!
Elementary changes of a hierarchy and what they make of its view: an entry is written, a free frame is taken
or given back, an empty table is linked or unlinked. The operations on page tables are runs of such steps, so
what every step keeps, they keep.
-/

namespace Nucleus.Paging

open Memory Relation

/-! ### Writing an entry -/

/-- The page at `f` is a frame that is neither free nor a table. -/
structure View.Loose (V : View) (f : PhysAddr) : Prop where
  frame : IsFrame V.mapped f
  not_free : f ∉ V.free
  not_table : ∀ {l n}, l ≤ Level.root → V.table? l n ≠ some f

/-- The page at `f` is a frame that is neither free nor a table and holds zeros. -/
structure Blank (s : Store) (V : View) (f : PhysAddr) : Prop extends V.Loose f where
  zero : ∀ i < entriesPerTable, s.ram.slot f i = 0

namespace Depicts

variable {s : Store} {V : View}

/-- **Writing an entry changes the view at this entry alone**, provided that no entry of a table below gets
out of sight and that a table that comes into sight is blank. -/
theorem setWord (h : Depicts s V) {l n : Nat} {t : PhysAddr} {w : UInt64} (hl : l ≤ Level.root)
    (ht : V.table? l (n / entriesPerTable) = some t)
    (hold : ∀ k, k + 1 = l → ∀ i < entriesPerTable, V.word k (entriesPerTable * n + i) = 0)
    (hnew : ∀ f, 0 < l → childOf V.mapped l w = some f → Blank s V f) :
    Depicts { s with ram := s.ram.store (t.toNat + 8 * (n % entriesPerTable)) w } (V.setWord l n w) := by
  have hslot : ∀ u : PhysAddr, u.PageAligned → ∀ i < entriesPerTable,
      (s.ram.store (t.toNat + 8 * (n % entriesPerTable)) w).slot u i =
        if t = u ∧ n % entriesPerTable = i then w else s.ram.slot u i :=
    fun u hu i hi => Ram.slot_store (h.aligned ht) hu (Nat.mod_lt _ (by decide)) hi w
  refine ⟨h.mapped, h.dropped, ?_, h.root, ?_, ?_, ?_, ?_⟩
  · refine h.free.congr rfl fun f hf => ?_
    rw [hslot f (h.free.aligned f hf) 0 (by decide), if_neg fun he : t = f ∧ _ => h.apart hl ht (he.1 ▸ hf)]
  · intro k m u hk hu i hi
    rw [View.table?_setWord hl] at hu
    split at hu
    · -- the table that comes into sight is blank
      next hkm =>
      obtain ⟨rfl, rfl⟩ := hkm
      have hb := hnew u (by omega) hu
      rw [hslot u hb.frame.aligned i hi, if_neg fun he => hb.not_table hl (he.1 ▸ ht), hb.zero i hi,
        View.word_setWord, if_neg (by omega), hold k rfl i hi]
    · rw [hslot u (h.aligned hu) i hi, View.word_setWord]
      by_cases hlm : k = l ∧ entriesPerTable * m + i = n
      · obtain ⟨rfl, rfl⟩ := hlm
        have hdiv : (entriesPerTable * m + i) / entriesPerTable = m := by unfold entriesPerTable at *; omega
        have hmod : (entriesPerTable * m + i) % entriesPerTable = i := by unfold entriesPerTable at *; omega
        rw [hdiv, hu] at ht
        rw [if_pos ⟨(Option.some.inj ht).symm, hmod⟩, if_pos ⟨rfl, rfl⟩]
      · rw [if_neg hlm, if_neg, h.words hk hu i hi]
        rintro ⟨rfl, rfl⟩
        obtain ⟨rfl, rfl⟩ := h.distinct hk hl hu ht
        exact hlm ⟨rfl, Nat.div_add_mod ..⟩
  · intro k m hk hm
    rw [View.table?_setWord hl] at hm
    rw [View.word_setWord]
    split at hm
    · next hkm =>
      obtain ⟨rfl, rfl⟩ := hkm
      rw [if_neg (by omega), ← Nat.div_add_mod m entriesPerTable]
      exact hold k rfl _ (Nat.mod_lt _ (by decide))
    · rw [if_neg, h.grounded hk hm]
      rintro ⟨rfl, rfl⟩
      rw [hm] at ht
      cases ht
  · intro j a k b u hj hk ha hb
    rw [View.table?_setWord hl] at ha hb
    split at ha <;> split at hb
    · next hja hkb => exact ⟨by omega, hja.2.trans hkb.2.symm⟩
    · next hja _ => exact absurd hb ((hnew u (by omega) ha).not_table hk)
    · next _ hkb => exact absurd ha ((hnew u (by omega) hb).not_table hj)
    · exact h.distinct hj hk ha hb
  · intro k m u hk hu
    rw [View.table?_setWord hl] at hu
    split at hu
    · next hkm => exact (hnew u (by omega) hu).not_free
    · exact h.apart hk hu

/-! ### Events -/

lemma emit (h : Depicts s V) {e : Event} (he : e.invalidation? = none) :
    Depicts { s with events := s.events.push e } V :=
  ⟨h.mapped, (emit_keeps he []).dropped.trans h.dropped, h.free.congr rfl fun _ _ => rfl, h.root, h.words,
    h.grounded, h.distinct, h.apart⟩

/-! ### Frames -/

/-- What changes free frames only leaves the tables as they are. -/
lemma ofKeeps (h : Depicts s V) {s' : Store} {fs gs : List PhysAddr} (hk : Keeps gs s s') (hf : FreeFrames s' fs)
    (hgs : ∀ g ∈ gs, g.PageAligned) (hgt : ∀ {l n t}, l ≤ Level.root → V.table? l n = some t → t ∉ gs)
    (hft : ∀ {l n t}, l ≤ Level.root → V.table? l n = some t → t ∉ fs) : Depicts s' { V with free := fs } := by
  refine ⟨hk.mapped.trans h.mapped, hk.dropped.trans h.dropped, hf, h.root, ?_, h.grounded, h.distinct, hft⟩
  intro l n t hl ht i hi
  rw [hk.ram.slot hgs (h.aligned ht) (hgt hl ht) hi]
  exact h.words hl ht i hi

/-- A frame that is neither free nor a table can be given back. -/
lemma free_ends (h : Depicts s V) {f : PhysAddr} (hf : V.Loose f) :
    Ends (FrameList.free f) s fun r s' => r = .ok () ∧ Depicts s' { V with free := f :: V.free } := by
  refine (Memory.free_ends h.free (h.mapped ▸ hf.frame) hf.not_free).mono ?_
  rintro r s' ⟨hr, hf', hk⟩
  have hapart : ∀ {l n t}, l ≤ Level.root → V.table? l n = some t → t ∉ f :: V.free := by
    rintro l n t hl htt (_ | ⟨_, hm⟩)
    · exact hf.not_table hl htt
    · exact h.apart hl htt hm
  refine ⟨hr, h.ofKeeps hk hf' ?_ hapart hapart⟩
  rintro g (_ | ⟨_, hg⟩)
  exacts [hf.frame.aligned, h.free.aligned g hg]

end Depicts

namespace Shows

variable {s : Store} {V : View}

/-- Where the old entry hides nothing and the new one shows blank tables only, the entry can be written. -/
lemma setWord (h : Shows s V) {l n : Nat} {t : PhysAddr} {w : UInt64} (hl : l ≤ Level.root)
    (ht : V.table? l (n / entriesPerTable) = some t)
    (hold : ∀ k, k + 1 = l → ∀ i < entriesPerTable, V.word k (entriesPerTable * n + i) = 0)
    (hnew : ∀ f, 0 < l → childOf V.mapped l w = some f → Blank s V f) :
    Shows { s with ram := s.ram.store (t.toNat + 8 * (n % entriesPerTable)) w } (V.setWord l n w) :=
  ⟨h.toDepicts.setWord hl ht hold hnew, h.below⟩

lemma emit (h : Shows s V) {e : Event} (he : e.invalidation? = none) :
    Shows { s with events := s.events.push e } V :=
  ⟨h.toDepicts.emit he, h.below⟩

lemma invalidated (h : Shows s V) (v : VirtAddr) :
    Shows { s with events := s.events.push (.invalidated v) } { V with dropped := V.dropped ++ [v] } :=
  ⟨⟨h.mapped, by rw [Store.dropped_push, h.dropped]; rfl, h.free.congr rfl fun _ _ => rfl, h.root, h.words,
    h.grounded, h.distinct, h.apart⟩, h.below⟩

lemma ofKeeps (h : Shows s V) {s' : Store} {fs gs : List PhysAddr} (hk : Keeps gs s s') (hf : FreeFrames s' fs)
    (hgs : ∀ g ∈ gs, g.PageAligned) (hgt : ∀ {l n t}, l ≤ Level.root → V.table? l n = some t → t ∉ gs)
    (hft : ∀ {l n t}, l ≤ Level.root → V.table? l n = some t → t ∉ fs) : Shows s' { V with free := fs } :=
  ⟨h.toDepicts.ofKeeps hk hf hgs hgt hft, h.below⟩

lemma alloc_nil (h : Shows s V) (hf : V.free = []) :
    Ends FrameList.alloc s fun a s' => a = none ∧ Shows s' V := by
  have hfree := h.free
  rw [hf] at hfree
  refine (alloc_ends_nil hfree).mono ?_
  rintro a s' ⟨ha, hf', hk⟩
  have := h.ofKeeps hk hf' (by simp) (by simp) (by simp)
  rw [← hf] at this
  exact ⟨ha, this⟩

lemma alloc_cons (h : Shows s V) {f : PhysAddr} {fs : List PhysAddr} (hf : V.free = f :: fs) :
    Ends FrameList.alloc s fun a s' =>
      a = some f ∧ Shows s' { V with free := fs } ∧ Blank s' { V with free := fs } f := by
  have hfree := h.free
  have hapart : ∀ {l n t}, l ≤ Level.root → V.table? l n = some t → t ∉ f :: fs := hf ▸ h.apart
  rw [hf] at hfree
  refine (alloc_ends_cons hfree).mono ?_
  rintro a s' ⟨ha, hf', hk, hz⟩
  refine ⟨ha, h.ofKeeps hk hf' hfree.aligned hapart ?_, ⟨?_, ?_, ?_⟩, hz⟩
  · exact fun hl ht hm => hapart hl ht (List.mem_cons_of_mem _ hm)
  · exact h.mapped ▸ hfree.frames f (List.mem_cons_self ..)
  · exact (List.nodup_cons.mp hfree.nodup).1
  · exact fun hl ht => hapart hl ht (List.mem_cons_self ..)

lemma free_ends (h : Shows s V) {f : PhysAddr} (hf : V.Loose f) :
    Ends (FrameList.free f) s fun r s' => r = .ok () ∧ Shows s' { V with free := f :: V.free } :=
  (h.toDepicts.free_ends hf).mono fun _ _ ⟨hr, h'⟩ => ⟨hr, h', h.below⟩

end Shows

/-! ### Linking and unlinking tables -/

def linkTo (f : PhysAddr) : Entry := .make f (.present ∪ .writable)

@[simp] lemma linkTo_present (f : PhysAddr) : (linkTo f).Present := by
  unfold Entry.Present linkTo
  rw [Entry.flags_make]
  decide

@[simp] lemma linkTo_not_huge (f : PhysAddr) : ¬ (linkTo f).Huge := by
  unfold Entry.Huge linkTo
  rw [Entry.flags_make]
  decide

lemma linkTo_base {mapped : PhysRange} {f : PhysAddr} (hf : IsFrame mapped f)
    (hb : mapped.stop.toNat ≤ 2 ^ 52) : (linkTo f).base = f :=
  Entry.base_make_of_aligned hf.aligned (Nat.lt_of_lt_of_le hf.mem.2 hb) _

lemma childOf_linkTo {mapped : PhysRange} {f : PhysAddr} (hf : IsFrame mapped f)
    (hb : mapped.stop.toNat ≤ 2 ^ 52) (l : Nat) : childOf mapped l (linkTo f).raw = some f :=
  childOf_eq_some.mpr ⟨linkTo_present f, .inr (linkTo_not_huge f), (linkTo_base hf hb).symm ▸ hf.mem,
    linkTo_base hf hb⟩

namespace View

/-- The large page bit is set in the root entry of `v`, where only the walk of the processor overlooks it. -/
def Barred (V : View) (v : VirtAddr) : Prop :=
  (⟨V.word Level.root (index Level.root v)⟩ : Entry).Present ∧
    (⟨V.word Level.root (index Level.root v)⟩ : Entry).Huge

end View

lemma View.barred_congr {V : View} {v w : VirtAddr} (h : index Level.root v = index Level.root w) :
    V.Barred v ↔ V.Barred w := by
  unfold View.Barred
  rw [h]

/-- The first free frame becomes the missing table of level `l` on the way to `v`. -/
inductive Links (v : VirtAddr) (V : View) : View → Prop where
  | mk {l : Nat} {f : PhysAddr} {fs : List PhysAddr} (below : l < Level.root) (free : V.free = f :: fs)
      (child : childOf V.mapped (l + 1) (linkTo f).raw = some f) (fresh : View.Loose { V with free := fs } f)
      (parent : V.table? (l + 1) (index (l + 2) v) ≠ none)
      (absent : ¬ (⟨V.word (l + 1) (index (l + 1) v)⟩ : Entry).Present)
      (vacant : ∀ i < entriesPerTable, V.word l (entriesPerTable * index (l + 1) v + i) = 0)
      (walkable : ¬ V.Barred v) :
      Links v V { V.setWord (l + 1) (index (l + 1) v) (linkTo f).raw with free := fs }

/-- The empty table of level `l` on the way to `v` becomes a free frame. -/
inductive Unlinks (v : VirtAddr) (V : View) : View → Prop where
  | mk {l : Nat} {c : PhysAddr} (below : l < Level.root) (child : V.table? l (index (l + 1) v) = some c)
      (frame : IsFrame V.mapped c) (not_free : c ∉ V.free)
      (empty : ∀ i < entriesPerTable, V.word l (entriesPerTable * index (l + 1) v + i) = 0)
      (walkable : ¬ V.Barred v) :
      Unlinks v V { V.setWord (l + 1) (index (l + 1) v) 0 with free := c :: V.free }

/-- Tables are made on the way to `v`. -/
abbrev Grows (v : VirtAddr) : View → View → Prop := ReflTransGen (Links v)

/-- Tables on the way to `v` are given back. -/
abbrev Shrinks (v : VirtAddr) : View → View → Prop := ReflTransGen (Unlinks v)

/-- What making tables and giving them back leaves as it is, the entries of all pages in the first place. -/
structure KeepsPages (V V' : View) : Prop where
  mapped : V'.mapped = V.mapped
  root : V'.root = V.root
  dropped : V'.dropped = V.dropped
  pages : V'.word 0 = V.word 0

lemma KeepsPages.refl (V : View) : KeepsPages V V := ⟨rfl, rfl, rfl, rfl⟩

lemma KeepsPages.trans {V V' V'' : View} (h : KeepsPages V V') (h' : KeepsPages V' V'') : KeepsPages V V'' :=
  ⟨h'.mapped.trans h.mapped, h'.root.trans h.root, h'.dropped.trans h.dropped, h'.pages.trans h.pages⟩

section Steps

variable {v w : VirtAddr} {V V' : View}

lemma Links.word_of_present (st : Links v V V') {k n : Nat} (hp : (⟨V.word k n⟩ : Entry).Present) :
    V'.word k n = V.word k n := by
  obtain ⟨-, -, -, -, -, absent, -, -⟩ := st
  refine if_neg ?_
  rintro ⟨rfl, rfl⟩
  exact absent hp

lemma Links.walkable (st : Links v V V') : ¬ V.Barred v := by
  obtain ⟨-, -, -, -, -, -, -, walkable⟩ := st
  exact walkable

lemma Unlinks.walkable (st : Unlinks v V V') : ¬ V.Barred v := by
  obtain ⟨-, -, -, -, -, walkable⟩ := st
  exact walkable

lemma Links.barred (st : Links v V V') : V'.Barred w ↔ V.Barred w := by
  constructor
  · intro hb
    obtain ⟨-, -, -, -, -, -, -, -⟩ := st
    unfold View.Barred at hb ⊢
    dsimp only at hb
    rw [View.word_setWord] at hb
    split at hb
    · exact absurd hb.2 (linkTo_not_huge _)
    · exact hb
  · intro hb
    unfold View.Barred at hb ⊢
    rw [st.word_of_present hb.1]
    exact hb

lemma Unlinks.barred (st : Unlinks v V V') : V'.Barred w ↔ V.Barred w := by
  obtain ⟨-, -, -, -, -, walkable⟩ := st
  unfold View.Barred at *
  dsimp only
  rw [View.word_setWord]
  split
  · next he =>
    obtain ⟨hl, hn⟩ := he
    rw [← hl] at hn
    rw [hn]
    exact ⟨fun hc => absurd hc.1 Entry.not_present_zero, fun hc => absurd hc walkable⟩
  · rfl

lemma Links.keepsPages (st : Links v V V') : KeepsPages V V' := by
  obtain @⟨l, f, fs, -, -, -, -, -, -, -, -⟩ := st
  exact ⟨rfl, rfl, rfl, V.pages_setWord_succ l (index (l + 1) v) (linkTo f).raw⟩

lemma Unlinks.keepsPages (st : Unlinks v V V') : KeepsPages V V' := by
  obtain @⟨l, c, -, -, -, -, -, -⟩ := st
  exact ⟨rfl, rfl, rfl, V.pages_setWord_succ l (index (l + 1) v) 0⟩

lemma Grows.keepsPages (st : Grows v V V') : KeepsPages V V' := by
  induction st with
  | refl => exact .refl V
  | tail _ st ih => exact ih.trans st.keepsPages

lemma Shrinks.keepsPages (st : Shrinks v V V') : KeepsPages V V' := by
  induction st with
  | refl => exact .refl V
  | tail _ st ih => exact ih.trans st.keepsPages

/-- A table that gets empty when an entry is cleared holds this entry. -/
lemma View.of_empty_setWord_zero {l n : Nat} (hl : l ≤ Level.root) {k m : Nat} (he : (V.setWord l n 0).Empty k m) :
    (k = l ∧ m = n / entriesPerTable) ∨ V.Empty k m := by
  by_cases hkl : k = l ∧ m = n / entriesPerTable
  · exact .inl hkl
  · refine .inr ⟨fun hn => he.1 ?_, fun i hi => ?_⟩
    · rw [View.table?_setWord hl]
      split
      · exact childOf_zero ..
      · exact hn
    · have hz := he.2 i hi
      rw [View.word_setWord, if_neg] at hz
      · exact hz
      · rintro ⟨rfl, rfl⟩
        exact hkl ⟨rfl, by unfold entriesPerTable at *; omega⟩

lemma View.of_empty_setWord {l n : Nat} {w : UInt64} (hl : l ≤ Level.root) (hw : w ≠ 0) {k m : Nat}
    (he : (V.setWord l n w).Empty k m) : (k + 1 = l ∧ m = n) ∨ V.Empty k m := by
  by_cases hkl : k + 1 = l ∧ m = n
  · exact .inl hkl
  · obtain ⟨ht, hz⟩ := he
    rw [View.table?_setWord hl, if_neg hkl] at ht
    refine .inr ⟨ht, fun i hi => ?_⟩
    have hzi := hz i hi
    rw [View.word_setWord] at hzi
    split at hzi
    · exact absurd hzi hw
    · exact hzi

lemma Links.of_empty (st : Links v V V') {k n : Nat} (he : V'.Empty k n) : n = index (k + 1) v ∨ V.Empty k n := by
  obtain @⟨l, f, fs, below, -, -, -, -, -, -, -⟩ := st
  have he' : (V.setWord (l + 1) (index (l + 1) v) (linkTo f).raw).Empty k n := he
  rcases View.of_empty_setWord below (Entry.ne_zero_of_present (linkTo_present f)) he' with ⟨hl, rfl⟩ | he
  · obtain rfl : k = l := by omega
    exact .inl rfl
  · exact .inr he

lemma Unlinks.of_empty (st : Unlinks v V V') {k n : Nat} (he : V'.Empty k n) :
    n = index (k + 1) v ∨ V.Empty k n := by
  obtain @⟨l, c, below, -, -, -, -, -⟩ := st
  have he' : (V.setWord (l + 1) (index (l + 1) v) 0).Empty k n := he
  rcases View.of_empty_setWord_zero below he' with ⟨rfl, rfl⟩ | he
  · exact .inl (index_succ (l + 1) v).symm
  · exact .inr he

lemma Shrinks.barred (st : Shrinks v V V') : V'.Barred w ↔ V.Barred w := by
  induction st with
  | refl => rfl
  | tail _ st ih => exact st.barred.trans ih

end Steps

end Nucleus.Paging
