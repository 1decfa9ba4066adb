import Nucleus.Proofs.Paging.Release

/-!
Tables that hold no entry of a page. Operations on the way to an address make and give back tables one at a time. All
tables that one of them makes, or gives back, form a branch: they are linked one below the other, the lowest is empty,
the others hold the next link alone, and the topmost hangs on an entry of a table that stays. Nothing else tells the
hierarchy with the branch from the one without, and no translation does.
-/

namespace Nucleus.Paging

open Memory Relation

variable {v w : VirtAddr} {V V' V₁ V₂ : View} {l low : Nat} {c : PhysAddr} {ts : List PhysAddr}

/-! ### One table -/

/-- The view `V'` has one table more than `V`: the empty table `c` of level `l` on the way to `v`. -/
structure Twig (v : VirtAddr) (l : Nat) (c : PhysAddr) (V V' : View) : Prop where
  below : l < Level.root
  mapped : V'.mapped = V.mapped
  root : V'.root = V.root
  free : V.free = c :: V'.free
  child : V'.table? l (index (l + 1) v) = some c
  parent : V.table? (l + 1) (index (l + 2) v) ≠ none
  absent : ¬ (⟨V.word (l + 1) (index (l + 1) v)⟩ : Entry).Present
  bare : ∀ n, n / entriesPerTable = index (l + 1) v → V'.word l n = 0
  words : ∀ k n, ¬ (k = l + 1 ∧ n = index (l + 1) v) → V'.word k n = V.word k n

lemma word_of_table {P : UInt64 → Prop} {n m : Nat} (h : ∀ i < entriesPerTable, P (V.word l (entriesPerTable * m + i)))
    (hn : n / entriesPerTable = m) : P (V.word l n) := by
  have hi := h (n % entriesPerTable) (Nat.mod_lt _ (by decide))
  rwa [← hn, Nat.div_add_mod] at hi

lemma Links.twig (st : Links v V V') : ∃ l c, Twig v l c V V' := by
  obtain @⟨l, f, fs, below, free, child, -, parent, absent, vacant, -⟩ := st
  have htable := View.table?_setWord (V := V) below (index (l + 1) v) (linkTo f).raw
  refine ⟨l, f, below, rfl, rfl, free, ?_, parent, absent, fun n hn => ?_, fun k n hne => if_neg hne⟩
  · refine (htable l (index (l + 1) v)).trans ?_
    rw [if_pos ⟨rfl, rfl⟩, child]
  · refine (V.word_setWord l n (l + 1) _ _).trans ?_
    rw [if_neg fun h => Nat.succ_ne_self l h.1.symm]
    exact word_of_table (P := (· = 0)) vacant hn

lemma Unlinks.twig (hg : V.Grounded) (st : Unlinks v V V') : ∃ l c, Twig v l c V' V := by
  obtain @⟨l, c, below, child, -, -, empty, -⟩ := st
  have htable := View.table?_setWord (V := V) below (index (l + 1) v) 0
  have hlinked : V.table? (l + 1) (index (l + 2) v) ≠ none := by
    intro hn
    rw [hg.table?_none_below below (Nat.le_succ l) hn] at child
    cases child
  refine ⟨l, c, below, rfl, rfl, rfl, child, ?_, ?_, fun n hn => ?_, fun k n hne => (if_neg hne).symm⟩
  · have hkeep := (htable (l + 1) (index (l + 2) v)).trans (if_neg (by omega))
    exact fun hn => hlinked (hkeep.symm.trans hn)
  · have hcut := (V.word_setWord (l + 1) (index (l + 1) v) (l + 1) (index (l + 1) v) 0).trans (if_pos ⟨rfl, rfl⟩)
    exact fun hp => Entry.not_present_zero (hcut ▸ hp)
  · exact word_of_table (P := (· = 0)) empty hn

namespace Twig

lemma table?_of_ne (h : Twig v l c V V') {k n : Nat} (hne : ¬ (k = l ∧ n = index (l + 1) v)) :
    V'.table? k n = V.table? k n := by
  unfold View.table?
  rw [h.mapped, h.root]
  split
  · rfl
  · rw [h.words (k + 1) n (by omega)]

lemma table?_none (h : Twig v l c V V') : V.table? l (index (l + 1) v) = none :=
  Depicts.table?_of_absent h.below h.absent

lemma grounded (h : Twig v l c V V') (hg : V.Grounded) : V'.Grounded := by
  intro k hk n hn
  have hne : ¬ (k = l ∧ n / entriesPerTable = index (l + 1) v) := by
    rintro ⟨rfl, hi⟩
    rw [hi, h.child] at hn
    cases hn
  rw [h.table?_of_ne hne] at hn
  rw [h.words, hg k hk n hn]
  rintro ⟨rfl, rfl⟩
  rw [← index_succ] at hn
  exact h.parent hn

lemma grounded_of_more (h : Twig v l c V V') (hg : V'.Grounded) : V.Grounded := by
  intro k hk n hn
  by_cases hi : k = l ∧ n / entriesPerTable = index (l + 1) v
  · obtain ⟨rfl, hi⟩ := hi
    rw [← h.words k n (by omega)]
    exact h.bare n hi
  · have hne : ¬ (k = l + 1 ∧ n = index (l + 1) v) := by
      rintro ⟨rfl, rfl⟩
      rw [← index_succ] at hn
      exact h.parent hn
    rw [← h.words k n hne]
    exact hg k hk n ((h.table?_of_ne hi).trans hn)

/-- **A table that is empty changes no translation**: without it the walk ends one level higher. -/
lemma translate_eq (h : Twig v l c V V') (w : VirtAddr) : V'.translate w Level.root = V.translate w Level.root := by
  by_cases hw : index (l + 1) w = index (l + 1) v
  · have hup : ∀ k, l < k → V'.translate w k = V.translate w k := by
      intro k hk
      induction k with
      | zero => omega
      | succ k ih =>
        rcases Nat.lt_or_eq_of_le (Nat.le_of_lt_succ hk) with hlt | rfl
        · rw [View.translate, View.translate, h.words (k + 1) _ (by omega), ih hlt]
        · have hchild := h.child
          rw [View.table?_of_lt h.below, ← hw] at hchild
          obtain ⟨hpresent, hlarge, -, -⟩ := childOf_eq_some.mp hchild
          have hzero : V'.word l (index l w) = 0 := h.bare _ (by rw [← index_succ, hw])
          have hlow : V'.translate w l = none := View.translate_of_absent (hzero ▸ Entry.not_present_zero)
          have habsent : V.translate w (l + 1) = none := View.translate_of_absent (hw ▸ h.absent)
          have hsmall : ¬ ((⟨V'.word (l + 1) (index (l + 1) w)⟩ : Entry).Huge ∧ l + 1 < Level.root) := by
            rintro ⟨hhuge, hlt⟩
            rcases hlarge with hroot | hn
            · omega
            · exact hn hhuge
          rw [habsent, View.translate, if_neg (not_not.mpr hpresent), if_neg hsmall, hlow]
    exact hup Level.root h.below
  · refine View.translate_congr fun k _ => h.words k _ ?_
    rintro ⟨rfl, hk⟩
    exact hw hk

end Twig

/-! ### Branches -/

/-- The view `V'` has the tables `ts` more than `V`: they lie on the way to `v` from level `low` up, and but for the
links between them they are empty. -/
structure Branch (v : VirtAddr) (low : Nat) (ts : List PhysAddr) (V V' : View) : Prop where
  fits : low + ts.length ≤ Level.root
  root : V'.root = V.root
  free : V.free = ts.reverse ++ V'.free
  linked : ∀ k c, ts[k]? = some c → V'.table? (low + k) (index (low + k + 1) v) = some c
  unlinked : ∀ l, low ≤ l → l < low + ts.length → V.table? l (index (l + 1) v) = none
  absent : ts ≠ [] → ¬ (⟨V.word (low + ts.length) (index (low + ts.length) v)⟩ : Entry).Present
  bare : ∀ k < ts.length, ∀ n, n / entriesPerTable = index (low + k + 1) v → (0 < k → n ≠ index (low + k) v) →
    V'.word (low + k) n = 0
  others : ∀ l n, ¬ (low ≤ l ∧ l < low + ts.length ∧ n = index (l + 1) v) → V'.table? l n = V.table? l n
  words : ∀ l n, ¬ (low < l ∧ l ≤ low + ts.length ∧ n = index l v) → V'.word l n = V.word l n
  translations : ∀ w, V'.translate w Level.root = V.translate w Level.root

namespace Branch

lemma nil (hlow : low ≤ Level.root) : Branch v low [] V V := by
  refine ⟨hlow, rfl, rfl, ?_, ?_, ?_, ?_, fun _ _ _ => rfl, fun _ _ _ => rfl, fun _ => rfl⟩
  · intro k c hc
    cases hc
  · intro k hk hlt
    exact absurd hlt (Nat.not_lt.mpr hk)
  · intro hne
    exact absurd rfl hne
  · intro k hk
    exact absurd hk (Nat.not_lt_zero k)

lemma rebase (h : Branch v low [] V V') (hl : l ≤ Level.root) : Branch v l [] V V' := by
  refine { Branch.nil (v := v) (V := V) hl with
    root := h.root, free := h.free, linked := nofun, translations := h.translations
    bare := ?_, others := ?_, words := ?_ }
  · intro k hk
    exact absurd hk (Nat.not_lt_zero k)
  · intro k n _
    exact h.others k n fun hin => absurd hin.2.1 (Nat.not_lt.mpr hin.1)
  · intro k n _
    exact h.words k n fun hin => absurd hin.2.1 (Nat.not_le.mpr hin.1)

/-- A table below the lowest one makes the branch longer. -/
lemma cons (h : Branch v (l + 1) ts V V₁) (ht : Twig v l c V₁ V₂) : Branch v l (c :: ts) V V₂ := by
  have hlevel : ∀ k, l + 1 + k = l + (k + 1) := fun k => by omega
  have hlength : l + (c :: ts).length = l + 1 + ts.length := by
    rw [List.length_cons, hlevel]
  have hword : V.word (l + 1) (index (l + 1) v) = V₁.word (l + 1) (index (l + 1) v) :=
    (h.words (l + 1) _ fun hin => absurd hin.1 (Nat.lt_irrefl _)).symm
  refine ⟨?_, ht.root.trans h.root, ?_, ?_, ?_, ?_, ?_, ?_, ?_, fun w => (ht.translate_eq w).trans (h.translations w)⟩
  · rw [hlength]
    exact h.fits
  · rw [h.free, ht.free, List.reverse_cons, List.append_assoc, List.singleton_append]
  · -- the new table comes first, the tables of the branch move up by one
    intro k d hd
    cases k with
    | zero =>
      cases hd
      exact ht.child
    | succ k =>
      rw [List.getElem?_cons_succ] at hd
      rw [ht.table?_of_ne (by omega), ← hlevel]
      exact h.linked k d hd
  · intro k hk hlt
    rw [hlength] at hlt
    rcases Nat.lt_or_eq_of_le hk with hk | rfl
    · exact h.unlinked k hk hlt
    · rw [← h.others l _ fun hin => absurd hin.1 (by omega)]
      exact ht.table?_none
  · intro _
    rw [hlength]
    cases ts with
    | nil =>
      rw [List.length_nil, Nat.add_zero, hword]
      exact ht.absent
    | cons d ts => exact h.absent (List.cons_ne_nil d ts)
  · intro k hk n hn hne
    cases k with
    | zero => exact ht.bare n hn
    | succ k =>
      have hkn := hne (Nat.succ_pos k)
      rw [← hlevel] at hn hkn ⊢
      have hlink : ¬ (l + 1 + k = l + 1 ∧ n = index (l + 1) v) := by
        rintro ⟨hk0, rfl⟩
        exact hkn (by rw [hk0])
      rw [ht.words _ n hlink]
      exact h.bare k (Nat.lt_of_succ_lt_succ hk) n hn fun _ => hkn
  · -- away from the branch neither the new table nor the old ones changed anything
    intro k n hne
    rw [hlength] at hne
    have htwig : ¬ (k = l ∧ n = index (l + 1) v) := by
      rintro ⟨rfl, rfl⟩
      exact hne ⟨Nat.le_refl k, by omega, rfl⟩
    rw [ht.table?_of_ne htwig]
    exact h.others k n fun hin => hne ⟨by omega, hin.2⟩
  · intro k n hne
    rw [hlength] at hne
    have htwig : ¬ (k = l + 1 ∧ n = index (l + 1) v) := by
      rintro ⟨rfl, rfl⟩
      exact hne ⟨Nat.lt_succ_self l, by omega, rfl⟩
    rw [ht.words k n htwig]
    exact h.words k n fun hin => hne ⟨by omega, hin.2⟩

/-- A further table on the way can only hang on the lowest table of a branch, since this one links nothing. -/
lemma low_eq (h : Branch v low ts V V₁) (hne : ts ≠ []) (hg : V₁.Grounded) (ht : Twig v l c V₁ V₂) : low = l + 1 := by
  obtain ⟨d, ds, rfl⟩ := List.exists_cons_of_ne_nil hne
  have hlinked : V₁.table? low (index (low + 1) v) = some d := h.linked 0 d rfl
  have hlowest : V₁.word low (index low v) = 0 := by
    refine h.bare 0 (Nat.succ_pos _) _ ?_ fun h0 => absurd h0 (Nat.lt_irrefl 0)
    rw [Nat.add_zero, index_succ]
  have hfits := h.fits
  rw [List.length_cons] at hfits
  apply Nat.le_antisymm
  · by_contra hlt
    obtain ⟨m, rfl⟩ : ∃ m, low = m + 1 := ⟨low - 1, by omega⟩
    have hnone : V₁.table? m (index (m + 1) v) = none := by
      rw [View.table?_of_lt (by omega), hlowest, childOf_zero]
    exact ht.parent (hg.table?_none_below (by omega) (by omega) hnone)
  · by_contra hlt
    rw [hg.table?_none_below (Nat.le_of_lt ht.below) (by omega) ht.table?_none] at hlinked
    cases hlinked

end Branch

/-- **Tables that are made one after the other** on the way to an address form a branch. -/
lemma exists_branch (h : ReflTransGen (fun V V' => ∃ l c, Twig v l c V V') V V') (hg : V.Grounded) :
    ∃ low ts, Branch v low ts V V' := by
  have hboth : V'.Grounded ∧ ∃ low ts, Branch v low ts V V' := by
    induction h with
    | refl => exact ⟨hg, Level.root, [], .nil (Nat.le_refl _)⟩
    | tail _ st ih =>
      obtain ⟨l, c, ht⟩ := st
      obtain ⟨hg₁, low, ts, hb⟩ := ih
      refine ⟨ht.grounded hg₁, l, c :: ts, ?_⟩
      by_cases hts : ts = []
      · subst hts
        exact (hb.rebase ht.below).cons ht
      · exact (hb.low_eq hts hg₁ ht ▸ hb).cons ht
  exact hboth.2

lemma Grows.branch (h : Grows v V V') (hg : V.Grounded) : ∃ low ts, Branch v low ts V V' :=
  exists_branch (ReflTransGen.mono (r := Links v) (fun _ _ st => st.twig) _ _ h) hg

/-- **Tables that are given back one after the other** formed a branch. -/
lemma Shrinks.branch (h : Shrinks v V V') (hg : V.Grounded) : ∃ low ts, Branch v low ts V' V := by
  have hboth : V'.Grounded ∧ ReflTransGen (fun V V' => ∃ l c, Twig v l c V V') V' V := by
    induction h with
    | refl => exact ⟨hg, .refl⟩
    | tail _ st ih =>
      obtain ⟨l, c, ht⟩ := st.twig ih.1
      exact ⟨ht.grounded_of_more ih.1, .head ⟨l, c, ht⟩ ih.2⟩
  exact exists_branch hboth.2 hboth.1

/-! ### Branches in memory -/

/-- The hierarchy of the store `t` is that of the store `s` with the branch of the tables `ts`, which lie on the way to
`v` from level `low` up. -/
structure WithBranch (s t : Store) (root : PhysAddr) (v : VirtAddr) (low : Nat) (ts : List PhysAddr) : Prop where
  fits : low + ts.length ≤ Level.root
  linked : ∀ k c, ts[k]? = some c → tableAt t root (low + k) (index (low + k + 1) v) = some c
  /-- The lowest table is empty, the others hold the link to the one before. -/
  bare : ∀ k c, ts[k]? = some c → ∀ i < entriesPerTable, (0 < k → i ≠ slot (low + k) v) → t.ram.slot c i = 0
  tables : ∀ l ≤ Level.root, ∀ n, tableAt s root l n =
    if low ≤ l ∧ l < low + ts.length ∧ n = index (l + 1) v then none else tableAt t root l n
  /-- The tables apart from the branch differ in the slot that it hangs on. -/
  contents : ∀ l ≤ Level.root, ∀ n u, tableAt s root l n = some u → ∀ i < entriesPerTable,
    ¬ (ts ≠ [] ∧ l = low + ts.length ∧ n = index (l + 1) v ∧ i = slot l v) → s.ram.slot u i = t.ram.slot u i
  absent : ts ≠ [] → ¬ (⟨wordAt s root (low + ts.length) (index (low + ts.length) v)⟩ : Entry).Present
  pages : ∀ n, wordAt s root 0 n = wordAt t root 0 n
  large : ∀ l < Level.root, ∀ n, (⟨wordAt t root l n⟩ : Entry).Huge → wordAt s root l n = wordAt t root l n
  translations : ∀ w, translate s root w = translate t root w

lemma number_eq_index {l n i : Nat} (hl : l ≤ Level.root) (hi : i < entriesPerTable) :
    entriesPerTable * n + i = index l v ↔ n = index (l + 1) v ∧ i = slot l v := by
  rw [slot_eq_index hl, index_succ]
  unfold entriesPerTable at *
  omega

lemma number_div {n i : Nat} (hi : i < entriesPerTable) : (entriesPerTable * n + i) / entriesPerTable = n := by
  unfold entriesPerTable at *
  omega

namespace Branch

lemma hangs (h : Branch v low ts V V') (hne : ts ≠ []) :
    (⟨V'.word (low + ts.length) (index (low + ts.length) v)⟩ : Entry).Present := by
  have hpos : 0 < ts.length := List.length_pos_iff.mpr hne
  obtain ⟨m, hm⟩ : ∃ m, ts.length = m + 1 := ⟨ts.length - 1, by omega⟩
  have hfits := h.fits
  have hlinked := h.linked m ts[m] (List.getElem?_eq_getElem (by omega))
  rw [View.table?_of_lt (by omega)] at hlinked
  rw [hm]
  exact (childOf_eq_some.mp hlinked).1

lemma not_huge (h : Branch v low ts V V') {l : Nat} (hl : l < Level.root) (hlow : low < l)
    (htop : l ≤ low + ts.length) : ¬ (⟨V'.word l (index l v)⟩ : Entry).Huge := by
  obtain ⟨k, rfl⟩ : ∃ k, l = low + k + 1 := ⟨l - low - 1, by omega⟩
  have hlinked := h.linked k ts[k] (List.getElem?_eq_getElem (by omega))
  rw [View.table?_of_lt (by omega)] at hlinked
  obtain ⟨-, hroot | hsmall, -, -⟩ := childOf_eq_some.mp hlinked
  · omega
  · exact hsmall

end Branch

/-- **A branch of views is a branch in memory.** -/
lemma Depicts.withBranch {s t : Store} (hs : Depicts s V) (ht : Depicts t V') (hb : Branch v low ts V V') :
    WithBranch s t V.root v low ts := by
  have hword : ∀ l ≤ Level.root, ∀ n, wordAt t V.root l n = V'.word l n :=
    fun l hl n => hb.root ▸ (ht.table?_and_word hl n).2
  have htable : ∀ l ≤ Level.root, ∀ n, tableAt t V.root l n = V'.table? l n :=
    fun l hl n => hb.root ▸ (ht.table?_and_word hl n).1
  have hfits := hb.fits
  constructor
  · exact hb.fits
  · intro k c hc
    have hk := (List.getElem?_eq_some_iff.mp hc).1
    rw [htable _ (by omega)]
    exact hb.linked k c hc
  · intro k c hc i hi hne
    have hk := (List.getElem?_eq_some_iff.mp hc).1
    have hl : low + k ≤ Level.root := by omega
    rw [ht.words hl (hb.linked k c hc) i hi]
    refine hb.bare k hk _ (number_div hi) fun h0 he => ?_
    exact hne h0 ((number_eq_index hl hi).mp he).2
  · -- the tables of `s` are those of `t` that the branch did not add
    intro l hl n
    rw [(hs.table?_and_word hl n).1, htable l hl]
    split
    · next hin =>
      rw [hin.2.2]
      exact hb.unlinked l hin.1 hin.2.1
    · next hin => exact (hb.others l n hin).symm
  · intro l hl n u hu i hi hne
    have hV : V.table? l n = some u := (hs.table?_and_word hl n).1 ▸ hu
    have hout : ¬ (low ≤ l ∧ l < low + ts.length ∧ n = index (l + 1) v) := by
      rintro ⟨hlow, htop, rfl⟩
      rw [hb.unlinked l hlow htop] at hV
      cases hV
    rw [hs.words hl hV i hi, ht.words hl ((hb.others l n hout).trans hV) i hi, hb.words]
    rintro ⟨hlow, htop, he⟩
    obtain ⟨hn, hi⟩ := (number_eq_index hl hi).mp he
    -- only the topmost link is written into a table that `s` has already
    have htop : l = low + ts.length := by
      by_contra hlt
      exact hout ⟨Nat.le_of_lt hlow, by omega, hn⟩
    refine hne ⟨?_, htop, hn, hi⟩
    rintro rfl
    rw [List.length_nil] at htop
    omega
  · intro hne
    rw [(hs.table?_and_word hb.fits _).2]
    exact hb.absent hne
  · intro n
    rw [(hs.table?_and_word (Nat.zero_le _) n).2, hword 0 (Nat.zero_le _)]
    exact (hb.words 0 n fun hin => absurd hin.1 (Nat.not_lt_zero low)).symm
  · intro l hl n hhuge
    rw [hword l (Nat.le_of_lt hl)] at hhuge ⊢
    rw [(hs.table?_and_word (Nat.le_of_lt hl) n).2]
    refine (hb.words l n ?_).symm
    rintro ⟨hlow, htop, rfl⟩
    exact hb.not_huge hl hlow htop hhuge
  · intro w
    rw [hs.translate_eq, ← hb.root, ht.translate_eq]
    exact (hb.translations w).symm

end Nucleus.Paging
