import Nucleus.Proofs.Paging.Step

/-!
The walks through the tables in terms of the view. Looking up an entry, translating and creating missing
tables read the same entries, those that are responsible for the address at each level; creating is a run of
links on the way, giving tables back is a run of unlinks.
-/

namespace Nucleus.Paging

open Memory Relation

namespace View

/-- The entry of the page of `v` lies at `a`. -/
def Leaf (V : View) (v : VirtAddr) (a : Nat) : Prop :=
  ¬ V.Barred v ∧ ∃ t, V.table? 0 (index 1 v) = some t ∧ a = slotAddress t 0 v

/-- The byte for `v` in the page that an entry of level `l` maps. -/
def byteOf (e : Entry) (l : Nat) (v : VirtAddr) : PhysAddr :=
  let offset : UInt64 := UInt64.ofNat (Level.span l) - 1
  ⟨(e.base.word &&& ~~~offset) + (v.word &&& offset)⟩

def translate (V : View) (v : VirtAddr) : Nat → Option PhysAddr
  | 0 =>
    let e : Entry := ⟨V.word 0 (index 0 v)⟩
    if ¬ e.Present then none else some (byteOf e 0 v)
  | l + 1 =>
    let e : Entry := ⟨V.word (l + 1) (index (l + 1) v)⟩
    if ¬ e.Present then none
    else if e.Huge ∧ l + 1 < Level.root then some (byteOf e (l + 1) v)
    else translate V v l

lemma translate_of_absent {V : View} {v : VirtAddr} {l : Nat}
    (h : ¬ (⟨V.word l (index l v)⟩ : Entry).Present) : V.translate v l = none := by
  cases l <;> rw [translate] <;> exact if_pos h

/-- Entries without a table are zero. -/
def Grounded (V : View) : Prop :=
  ∀ l ≤ Level.root, ∀ n, V.table? l (n / entriesPerTable) = none → V.word l n = 0

/-- Below a missing table there is nothing. -/
lemma Grounded.table?_none_below {V : View} {v : VirtAddr} (h : V.Grounded) {k l : Nat} (hl : l ≤ Level.root)
    (hk : k ≤ l) (hn : V.table? l (index (l + 1) v) = none) : V.table? k (index (k + 1) v) = none := by
  induction l with
  | zero =>
    obtain rfl : k = 0 := by omega
    exact hn
  | succ l ih =>
    rcases Nat.lt_or_eq_of_le hk with hlt | rfl
    · refine ih (by omega) (by omega) ?_
      rw [index_succ] at hn
      rw [table?_of_lt (by omega), h (l + 1) hl _ hn, childOf_zero]
    · exact hn

end View

lemma View.leaf_congr {V : View} {v w : VirtAddr} (h : index 0 v = index 0 w) {a : Nat} : V.Leaf v a ↔ V.Leaf w a := by
  unfold View.Leaf slotAddress
  rw [View.barred_congr (index_of_page h _), index_of_page h 1, slot_eq_index (Nat.zero_le _),
    slot_eq_index (Nat.zero_le _), h]

lemma View.leaf_pageBase {V : View} {v : VirtAddr} {a : Nat} : V.Leaf v.pageBase a ↔ V.Leaf v a :=
  View.leaf_congr (index_pageBase 0 v)

lemma View.translate_congr {V V' : View} {v : VirtAddr} {l : Nat}
    (h : ∀ k ≤ l, V'.word k (index k v) = V.word k (index k v)) : V'.translate v l = V.translate v l := by
  induction l with
  | zero => rw [View.translate, View.translate, h 0 (Nat.le_refl 0)]
  | succ l ih =>
    rw [View.translate, View.translate, h (l + 1) (Nat.le_refl _), ih fun k hk => h k (Nat.le_succ_of_le hk)]

lemma toNat_byteOf (e : Entry) (v : VirtAddr) {l : Nat} (h : l ≤ Level.root) :
    (View.byteOf e l v).toNat = e.base.toNat / Level.span l * Level.span l + v.toNat % Level.span l := by
  have hbase : e.base.toNat < 2 ^ 52 := by
    rw [Entry.toNat_base]
    omega
  have hle := Nat.div_mul_le_self e.base.toNat (Level.span l)
  have hoffset := Nat.mod_lt v.toNat (span_pos l)
  have hspan := span_lt h
  show ((e.base.word &&& ~~~(UInt64.ofNat (Level.span l) - 1)) + (v.word &&& (UInt64.ofNat (Level.span l) - 1))).toNat = _
  rw [UInt64.toNat_add, toNat_and_not_offset h, toNat_and_offset h]
  exact Nat.mod_eq_of_lt (by unfold Addr.toNat at *; omega)

lemma byteOf_page (e : Entry) (v : VirtAddr) : View.byteOf e 0 v = .ofNat (e.base.toNat + v.toNat % pageSize) := by
  have hbase : e.base.toNat / pageSize * pageSize = e.base.toNat :=
    Nat.div_mul_cancel (Nat.dvd_of_mod_eq_zero e.base_aligned)
  have hbyte : (View.byteOf e 0 v).toNat = e.base.toNat / pageSize * pageSize + v.toNat % pageSize :=
    toNat_byteOf e v (Nat.zero_le _)
  rw [hbase] at hbyte
  rw [← hbyte]
  exact Addr.ext_toNat (Addr.toNat_ofNat (View.byteOf e 0 v).word.toNat_lt).symm

namespace Depicts

variable {s : Store} {V : View} {v : VirtAddr}

/-! ### Entries on the way -/

lemma mem_mapped (h : Depicts s V) {l n : Nat} {t : PhysAddr} (ht : V.table? l n = some t) : t ∈ s.frames.mapped :=
  h.mapped ▸ View.mem_of_table? ht

lemma entryIn?_eq (h : Depicts s V) {l : Nat} {t : PhysAddr} (hl : l ≤ Level.root)
    (ht : V.table? l (index (l + 1) v) = some t) : entryIn? s t l v = some ⟨V.word l (index l v)⟩ := by
  have hm := h.mem_mapped ht
  rw [index_succ] at ht
  have hw := h.slot_eq_word hl ht
  rw [entryIn?_of_mem hm, slotAddress, slot_eq_index hl, ← hw]
  rfl

lemma entryIn?_none (h : Depicts s V) {l : Nat} {t : PhysAddr} (ht : t ∉ V.mapped) : entryIn? s t l v = none :=
  entryIn?_of_not_mem (h.mapped ▸ ht)

lemma sees_iff (h : Depicts s V) {t : PhysAddr} : (s.frames.window.visible? t).isSome ↔ t ∈ V.mapped := by
  rw [Window.isSome_visible?, ← h.mapped]
  rfl

lemma toGrounded (h : Depicts s V) : V.Grounded := fun _ hl _ hn => h.grounded hl hn

lemma table?_none_below (h : Depicts s V) {k l : Nat} (hl : l ≤ Level.root) (hk : k ≤ l)
    (hn : V.table? l (index (l + 1) v) = none) : V.table? k (index (k + 1) v) = none :=
  h.toGrounded.table?_none_below hl hk hn

lemma word_zero_below (h : Depicts s V) {k l : Nat} (hl : l ≤ Level.root) (hk : k ≤ l)
    (hn : V.table? l (index (l + 1) v) = none) : V.word k (index k v) = 0 := by
  refine h.grounded (by omega) ?_
  rw [← index_succ]
  exact h.table?_none_below hl hk hn

/-- The tables on the way to a page with an entry are in use. -/
lemma not_empty_on_way (h : Depicts s V) (hv : V.word 0 (index 0 v) ≠ 0) {k : Nat} (hk : k ≤ Level.root) :
    ¬ V.Empty k (index (k + 1) v) := by
  intro he
  have hz : V.word k (index k v) = 0 := by
    rw [← Nat.div_add_mod (index k v) entriesPerTable, ← index_succ]
    exact he.2 _ (Nat.mod_lt _ (by decide))
  cases k with
  | zero => exact hv hz
  | succ k =>
    refine hv (h.word_zero_below (l := k) (by omega) (Nat.zero_le _) ?_)
    rw [View.table?_of_lt hk, hz, childOf_zero]

lemma root_table (h : Depicts s V) :
    (V.root ∈ s.frames.mapped ∧ V.table? Level.root (index (Level.root + 1) v) = some V.root) ∨
      (V.root ∉ s.frames.mapped ∧ V.table? Level.root (index (Level.root + 1) v) = none) := by
  rw [index_above_root, View.table?_root, h.mapped]
  by_cases hr : V.root ∈ V.mapped
  · exact .inl ⟨hr, if_pos ⟨rfl, hr⟩⟩
  · exact .inr ⟨hr, if_neg fun hc => hr hc.2⟩

lemma table?_none_of_stop {l : Nat} (hl : l < Level.root) (hw : ¬ V.Barred v)
    (hp : ¬ (⟨V.word (l + 1) (index (l + 1) v)⟩ : Entry).Present ∨
      (⟨V.word (l + 1) (index (l + 1) v)⟩ : Entry).Huge) : V.table? l (index (l + 1) v) = none := by
  rw [View.table?_of_lt hl]
  refine if_neg ?_
  rintro ⟨hpr, hroot | hhuge, -⟩
  · refine hw ?_
    unfold View.Barred
    rw [← hroot]
    exact ⟨hpr, hp.resolve_left (not_not.mpr hpr)⟩
  · exact hhuge (hp.resolve_left (not_not.mpr hpr))

/-- The table that a present entry points to is linked, or else not reachable. -/
lemma child_or_unreachable {l : Nat} (hl : l < Level.root)
    (hp : (⟨V.word (l + 1) (index (l + 1) v)⟩ : Entry).Present)
    (hh : ¬ (⟨V.word (l + 1) (index (l + 1) v)⟩ : Entry).Huge) :
    V.table? l (index (l + 1) v) = some (⟨V.word (l + 1) (index (l + 1) v)⟩ : Entry).base ∨
      (⟨V.word (l + 1) (index (l + 1) v)⟩ : Entry).base ∉ V.mapped ∧ V.table? l (index (l + 1) v) = none := by
  rw [View.table?_of_lt hl]
  by_cases hm : (⟨V.word (l + 1) (index (l + 1) v)⟩ : Entry).base ∈ V.mapped
  · exact .inl (childOf_eq_some.mpr ⟨hp, .inr hh, hm, rfl⟩)
  · exact .inr ⟨hm, if_neg fun hc => hm hc.2.2⟩

lemma table?_of_absent {l n : Nat} (hl : l < Level.root) (hp : ¬ (⟨V.word (l + 1) n⟩ : Entry).Present) :
    V.table? l n = none := by
  rw [View.table?_of_lt hl]
  exact if_neg fun hc => hp hc.1

lemma vacant (h : Depicts s V) {l n : Nat} (hl : l ≤ Level.root) (hn : V.table? l n = none) :
    ∀ i < entriesPerTable, V.word l (entriesPerTable * n + i) = 0 := by
  intro i hi
  refine h.grounded hl ?_
  rw [show (entriesPerTable * n + i) / entriesPerTable = n by unfold entriesPerTable at *; omega]
  exact hn

/-! ### Looking up -/

lemma leafFrom_eq (h : Depicts s V) {l : Nat} {t : PhysAddr} (hl : l ≤ Level.root) (hw : ¬ V.Barred v)
    (ht : V.table? l (index (l + 1) v) = some t) :
    leafFrom s v l t = (V.table? 0 (index 1 v)).map fun t => slotAddress t 0 v := by
  induction l generalizing t with
  | zero =>
    rw [ht]
    exact leafFrom_zero_of_mem (h.mem_mapped ht)
  | succ l ih =>
    rw [leafFrom, h.entryIn?_eq hl ht]
    show (if _ then _ else _) = _
    by_cases hp : ¬ (⟨V.word (l + 1) (index (l + 1) v)⟩ : Entry).Present ∨
        (⟨V.word (l + 1) (index (l + 1) v)⟩ : Entry).Huge
    · have hn := table?_none_of_stop hl hw hp
      rw [if_pos hp, h.table?_none_below (by omega) (Nat.zero_le _) hn]
      rfl
    · rw [if_neg hp]
      obtain ⟨hpr, hhuge⟩ := not_or.mp hp
      rcases child_or_unreachable hl (not_not.mp hpr) hhuge with hc | ⟨hm, hn⟩
      · exact ih (by omega) hc
      · rw [leafFrom_of_not_mem (h.mapped ▸ hm), h.table?_none_below (by omega) (Nat.zero_le _) hn]
        rfl

theorem leaf?_eq_some (h : Depicts s V) {a : Nat} : leaf? s V.root v = some a ↔ V.Leaf v a := by
  unfold leaf?
  rcases h.root_table (v := v) with ⟨hr, ht⟩ | ⟨hr, hn⟩
  · by_cases hw : V.Barred v
    · have he : entryIn? s V.root (2 + 1) v = some ⟨V.word Level.root (index Level.root v)⟩ :=
        h.entryIn?_eq (Nat.le_refl Level.root) ht
      rw [show Level.root = 2 + 1 from rfl, leafFrom, he]
      show (if _ then _ else _) = some a ↔ _
      rw [if_pos (.inr hw.2)]
      constructor
      · rintro ⟨⟩
      · exact fun hl => absurd hw hl.1
    · rw [h.leafFrom_eq (Nat.le_refl _) hw ht, Option.map_eq_some_iff]
      constructor
      · rintro ⟨t, ht, rfl⟩
        exact ⟨hw, t, ht, rfl⟩
      · rintro ⟨-, t, ht, rfl⟩
        exact ⟨t, ht, rfl⟩
  · rw [leafFrom_of_not_mem hr]
    constructor
    · rintro ⟨⟩
    · rintro ⟨-, t, ht, -⟩
      rw [h.table?_none_below (Nat.le_refl _) (Nat.zero_le _) hn] at ht
      cases ht

lemma load_leaf (h : Depicts s V) {a : Nat} (ha : V.Leaf v a) : s.ram.load a = V.word 0 (index 0 v) := by
  obtain ⟨-, t, ht, rfl⟩ := ha
  have hentry := h.entryIn?_eq (Nat.zero_le _) ht
  rw [entryIn?_of_mem (h.mem_mapped ht)] at hentry
  injection Option.some.inj hentry

lemma getEntry_bind (h : Depicts s V) {a : Nat} (ha : V.Leaf v a) {α : Type} {f : Entry → StoreM α}
    {Q : α → Store → Prop} : Ends (getEntry a >>= f) s Q ↔ Ends (f (V.entry v)) s Q :=
  ends_bind_of_ok (congrArg (fun w => EStateM.Result.ok (Entry.mk w) s) (h.load_leaf ha))

/-! ### Translating -/

lemma translateFrom_unreachable {l : Nat} {t : PhysAddr} (ht : t ∉ s.frames.mapped) :
    translateFrom s v l t = none := by
  rw [translateFrom, entryIn?_of_not_mem ht]

lemma view_translate_none (h : Depicts s V) {l : Nat} (hl : l ≤ Level.root)
    (hn : V.table? l (index (l + 1) v) = none) : V.translate v l = none := by
  have hw := h.word_zero_below hl (Nat.le_refl l) hn
  exact View.translate_of_absent (hw ▸ Entry.not_present_zero)

lemma translateFrom_eq (h : Depicts s V) {l : Nat} {t : PhysAddr} (hl : l ≤ Level.root)
    (ht : V.table? l (index (l + 1) v) = some t) : translateFrom s v l t = V.translate v l := by
  induction l generalizing t with
  | zero =>
    rw [translateFrom, View.translate, h.entryIn?_eq hl ht]
    rfl
  | succ l ih =>
    rw [translateFrom, View.translate, h.entryIn?_eq hl ht]
    have hchild : V.table? l (index (l + 1) v) = childOf V.mapped (l + 1) (V.word (l + 1) (index (l + 1) v)) :=
      View.table?_of_lt hl _
    generalize hw : V.word (l + 1) (index (l + 1) v) = w at hchild ⊢
    show (if ¬ (⟨w⟩ : Entry).Present then none else _) = _
    by_cases hp : (⟨w⟩ : Entry).Present
    · rw [if_neg (not_not.mpr hp), if_neg (not_not.mpr hp)]
      show (if (⟨w⟩ : Entry).Huge ∧ l + 1 < Level.root then some (View.byteOf ⟨w⟩ (l + 1) v)
        else translateFrom s v l (⟨w⟩ : Entry).base) = _
      by_cases hhuge : (⟨w⟩ : Entry).Huge ∧ l + 1 < Level.root
      · -- a large page ends the walk
        rw [if_pos hhuge, if_pos hhuge]
      · rw [if_neg hhuge, if_neg hhuge]
        by_cases hm : (⟨w⟩ : Entry).base ∈ V.mapped
        · refine ih (by omega) ?_
          rw [hchild]
          refine childOf_eq_some.mpr ⟨hp, ?_, hm, rfl⟩
          by_cases hr : l + 1 = Level.root
          · exact .inl hr
          · exact .inr fun hh => hhuge ⟨hh, by omega⟩
        · -- the next table is out of reach
          rw [translateFrom_unreachable (h.mapped ▸ hm), h.view_translate_none (by omega)]
          rw [hchild]
          exact if_neg fun hc => hm hc.2.2
    · rw [if_pos hp, if_pos hp]

lemma translate_of_leaf (h : Depicts s V) {a : Nat} (ha : V.Leaf v a) {l : Nat} (hl : l ≤ Level.root) :
    V.translate v l = if (V.entry v).Present then some (View.byteOf (V.entry v) 0 v) else none := by
  induction l with
  | zero =>
    rw [View.translate]
    show (if ¬ (V.entry v).Present then none else some (View.byteOf (V.entry v) 0 v)) = _
    rw [ite_not]
  | succ l ih =>
    obtain ⟨hw, t, ht, -⟩ := ha
    have hlink : V.table? l (index (l + 1) v) ≠ none := fun hn => by
      rw [h.table?_none_below (by omega) (Nat.zero_le _) hn] at ht
      cases ht
    rw [View.translate, ← ih (by omega)]
    by_cases hp : ¬ (⟨V.word (l + 1) (index (l + 1) v)⟩ : Entry).Present ∨
        (⟨V.word (l + 1) (index (l + 1) v)⟩ : Entry).Huge
    · exact absurd (table?_none_of_stop hl hw hp) hlink
    · obtain ⟨hpresent, hhuge⟩ := not_or.mp hp
      rw [if_neg hpresent, if_neg fun hh => hhuge hh.1]

/-- **Translation depends on the entries alone.** -/
theorem translate_eq (h : Depicts s V) (v : VirtAddr) : Paging.translate s V.root v = V.translate v Level.root := by
  unfold Paging.translate
  rcases h.root_table (v := v) with ⟨-, ht⟩ | ⟨hr, hn⟩
  · exact h.translateFrom_eq (Nat.le_refl _) ht
  · rw [translateFrom_unreachable hr, h.view_translate_none (Nat.le_refl _) hn]

end Depicts

lemma Shows.setEntry_leaf {s : Store} {V : View} {v : VirtAddr} (h : Shows s V) {a : Nat} (ha : V.Leaf v a)
    (e : Entry) :
    Ends (setEntry a e) s fun _ s' => Shows s' (V.setWord 0 (index 0 v) e.raw) := by
  obtain ⟨-, t, ht, rfl⟩ := ha
  refine ends_modify ?_
  unfold slotAddress
  rw [slot_eq_index (Nat.zero_le _)]
  rw [index_succ] at ht
  refine h.setWord (Nat.zero_le _) ht (fun k hk => absurd hk (Nat.succ_ne_zero k)) ?_
  exact fun f hf => absurd hf (Nat.lt_irrefl 0)

end Nucleus.Paging
