import Nucleus.Proofs.Paging.Change

/-!
Extensions of a hierarchy. While pages are marked as waiting, and while they are released again, the hierarchy
extends an earlier one: it has further tables, made of frames that were free, and further entries of pages,
those that are marked. Tables that hold nothing lie on the way to a few addresses. Once no page is marked and
no table is idle, the hierarchy is the earlier one.
-/

namespace Nucleus.Paging

open Memory Relation

/-- No table below the root is empty, and no intermediate entry has bits without a table or a large page. -/
structure View.Tidy (V : View) : Prop where
  clean : ∀ l < Level.root, ∀ n, ¬ (⟨V.word (l + 1) n⟩ : Entry).Present → V.word (l + 1) n = 0
  used : ∀ l < Level.root, ∀ n, ¬ V.Empty l n

/-- The view `V` has the tables and entries of `V₀` and further ones: the pages of `marked` addresses may wait,
and empty tables may lie on the way to `idle` addresses. -/
structure Extends (V₀ V : View) (marked idle : VirtAddr → Prop) : Prop where
  mapped : V.mapped = V₀.mapped
  root : V.root = V₀.root
  kept : ∀ l < Level.root, ∀ n, V₀.word (l + 1) n ≠ 0 → V.word (l + 1) n = V₀.word (l + 1) n
  made : ∀ l < Level.root, ∀ n, V₀.word (l + 1) n = 0 →
    V.word (l + 1) n = 0 ∨ ∃ f, V.word (l + 1) n = (linkTo f).raw ∧ V.table? l n = some f
  frames : ∀ f, f ∈ V₀.free ↔
    f ∈ V.free ∨ ∃ l n, l < Level.root ∧ V₀.word (l + 1) n = 0 ∧ V.table? l n = some f
  pages : ∀ n, V.word 0 n = V₀.word 0 n ∨ (V₀.word 0 n = 0 ∧ V.word 0 n = pendingEntry.raw ∧
    ∃ v, marked v ∧ ¬ V₀.Barred v ∧ n = index 0 v)
  empties : ∀ l < Level.root, ∀ n, V.Empty l n → ∃ v, idle v ∧ ¬ V₀.Barred v ∧ n = index (l + 1) v

namespace Extends

variable {V₀ V V' : View} {marked idle marked' idle' : VirtAddr → Prop} {u v : VirtAddr}

lemma refl (ht : V₀.Tidy) : Extends V₀ V₀ (fun _ => False) (fun _ => False) where
  mapped := rfl
  root := rfl
  kept _ _ _ _ := rfl
  made _ _ _ h0 := .inl h0
  frames f := by
    refine ⟨.inl, ?_⟩
    rintro (hf | ⟨l, n, hl, h0, hf⟩)
    · exact hf
    · simp [View.table?_of_lt hl, h0] at hf
  pages _ := .inl rfl
  empties l hl n he := absurd he (ht.used l hl n)

lemma mono (h : Extends V₀ V marked idle) (hm : ∀ v, marked v → marked' v) (hi : ∀ v, idle v → idle' v) :
    Extends V₀ V marked' idle' :=
  { h with
    pages := fun n => (h.pages n).imp_right fun ⟨h0, hp, v, hv, hr⟩ => ⟨h0, hp, v, hm v hv, hr⟩
    empties := fun l hl n he => let ⟨v, hv, hr⟩ := h.empties l hl n he; ⟨v, hi v hv, hr⟩ }

lemma barred (h : Extends V₀ V marked idle) : V.Barred v ↔ V₀.Barred v := by
  unfold View.Barred
  by_cases h0 : V₀.word Level.root (index Level.root v) = 0
  · rcases h.made 2 (by decide) _ h0 with hz | ⟨f, hf, -⟩
    · rw [show V.word Level.root _ = 0 from hz, h0]
    · rw [show V.word Level.root _ = _ from hf, h0]
      exact ⟨fun hb => absurd hb.2 (linkTo_not_huge f), fun hb => absurd hb.1 Entry.not_present_zero⟩
  · rw [show V.word Level.root _ = V₀.word Level.root _ from h.kept 2 (by decide) _ h0]

lemma used (h : Extends V₀ V marked idle) (ht : V₀.Tidy) {l n : Nat} (hl : l < Level.root)
    (h0 : V₀.word (l + 1) n ≠ 0) : ¬ V.Empty l n := by
  intro he
  refine ht.used l hl n ⟨?_, fun i hi => ?_⟩
  · rw [View.table?_of_lt hl, ← h.mapped, ← h.kept l hl n h0, ← View.table?_of_lt hl]
    exact he.1
  · have hz := he.2 i hi
    cases l with
    | zero =>
      rcases h.pages (entriesPerTable * n + i) with hp | ⟨hp, -⟩
      · exact hp.symm.trans hz
      · exact hp
    | succ l =>
      by_contra hne
      exact hne ((h.kept l (by omega) _ hne).symm.trans hz)

/-! ### Tables made and given back -/

lemma kept_setWord (h : Extends V₀ V marked idle) {l m : Nat} (h0 : V₀.word (l + 1) m = 0) (w : UInt64) :
    ∀ k < Level.root, ∀ n, V₀.word (k + 1) n ≠ 0 →
      (V.setWord (l + 1) m w).word (k + 1) n = V₀.word (k + 1) n := by
  intro k hk n hn
  rw [V.word_setWord_succ, if_neg, h.kept k hk n hn]
  rintro ⟨rfl, rfl⟩
  exact hn h0

lemma made_setWord (h : Extends V₀ V marked idle) {l m : Nat} (hl : l < Level.root) {w : UInt64}
    (hw : w = 0 ∨ ∃ f, w = (linkTo f).raw ∧ childOf V.mapped (l + 1) w = some f) :
    ∀ k < Level.root, ∀ n, V₀.word (k + 1) n = 0 → (V.setWord (l + 1) m w).word (k + 1) n = 0 ∨
      ∃ f, (V.setWord (l + 1) m w).word (k + 1) n = (linkTo f).raw ∧ (V.setWord (l + 1) m w).table? k n = some f := by
  intro k hk n hn
  rw [V.word_setWord_succ, View.table?_setWord_succ hl]
  split
  · exact hw
  · exact h.made k hk n hn

/-- Empty tables that appear on the way to an address are idle. -/
lemma empties_or (h : Extends V₀ V marked idle) (hw : ¬ V₀.Barred v)
    (he : ∀ k n, V'.Empty k n → n = index (k + 1) v ∨ V.Empty k n) :
    ∀ l < Level.root, ∀ n, V'.Empty l n → ∃ w, (w = v ∨ idle w) ∧ ¬ V₀.Barred w ∧ n = index (l + 1) w := by
  intro l hl n hn
  rcases he l n hn with rfl | hn
  · exact ⟨v, .inl rfl, hw, rfl⟩
  · obtain ⟨w, hi, hr⟩ := h.empties l hl n hn
    exact ⟨w, .inr hi, hr⟩

lemma links (h : Extends V₀ V marked idle) (ht : V₀.Tidy) (st : Links v V V') :
    Extends V₀ V' marked fun w => w = v ∨ idle w := by
  have hempty := fun k n => st.of_empty (k := k) (n := n)
  have hwalk := st.walkable
  have hk := st.keepsPages
  obtain @⟨l, f, fs, below, free, child, fresh, -, absent, -, -⟩ := st
  have htable := View.table?_setWord_succ (V := V) below (index (l + 1) v) (linkTo f).raw
  have h0 : V₀.word (l + 1) (index (l + 1) v) = 0 := by
    by_contra hne
    rw [h.kept l below _ hne] at absent
    exact hne (ht.clean l below _ absent)
  refine ⟨h.mapped, h.root, h.kept_setWord h0 _, h.made_setWord below (.inr ⟨f, rfl, child⟩), ?_, ?_, ?_⟩
  · intro g
    rw [h.frames, free, List.mem_cons]
    constructor
    · rintro ((rfl | hg) | ⟨k, n, hk, hn, hg⟩)
      · -- the frame that became the table
        exact .inr ⟨l, _, below, h0, (htable l _).trans ((if_pos ⟨rfl, rfl⟩).trans child)⟩
      · exact .inl hg
      · refine .inr ⟨k, n, hk, hn, (htable k n).trans ((if_neg ?_).trans hg)⟩
        rintro ⟨rfl, rfl⟩
        rw [Depicts.table?_of_absent below absent] at hg
        cases hg
    · rintro (hg | ⟨k, n, hk, hn, hg⟩)
      · exact .inl (.inr hg)
      · have hg' := (htable k n).symm.trans hg
        split at hg'
        · exact .inl (.inl (Option.some.inj (child.symm.trans hg')).symm)
        · exact .inr ⟨k, n, hk, hn, hg'⟩
  · intro n
    rw [hk.pages]
    exact h.pages n
  · exact h.empties_or (fun hb => hwalk (h.barred.mpr hb)) hempty

lemma grows (h : Extends V₀ V marked idle) (ht : V₀.Tidy) (st : Grows v V V') :
    Extends V₀ V' marked fun w => w = v ∨ idle w := by
  induction st with
  | refl => exact h.mono (fun _ => id) fun _ => .inr
  | tail _ st ih => exact (ih.links ht st).mono (fun _ => id) fun _ hw => hw.elim .inl id

lemma unlinks (h : Extends V₀ V marked idle) (ht : V₀.Tidy) (st : Unlinks v V V') :
    Extends V₀ V' marked fun w => w = v ∨ idle w := by
  have hempty := fun k n => st.of_empty (k := k) (n := n)
  have hwalk := st.walkable
  have hk := st.keepsPages
  obtain @⟨l, c, below, child, -, -, empty, -⟩ := st
  have htable := View.table?_setWord_succ (V := V) below (index (l + 1) v) 0
  have h0 : V₀.word (l + 1) (index (l + 1) v) = 0 := by
    by_contra hne
    exact h.used ht below hne ⟨by rw [child]; exact Option.some_ne_none c, empty⟩
  refine ⟨h.mapped, h.root, h.kept_setWord h0 _, h.made_setWord below (.inl rfl), ?_, ?_, ?_⟩
  · intro g
    rw [h.frames, List.mem_cons]
    constructor
    · rintro (hg | ⟨k, n, hk, hn, hg⟩)
      · exact .inl (.inr hg)
      · by_cases he : k = l ∧ n = index (l + 1) v
        · obtain ⟨rfl, rfl⟩ := he
          exact .inl (.inl (Option.some.inj (hg.symm.trans child)))
        · exact .inr ⟨k, n, hk, hn, (htable k n).trans ((if_neg he).trans hg)⟩
    · rintro ((rfl | hg) | ⟨k, n, hk, hn, hg⟩)
      · -- the table that became a frame
        exact .inr ⟨l, _, below, h0, child⟩
      · exact .inl hg
      · have hg' := (htable k n).symm.trans hg
        split at hg'
        · simp at hg'
        · exact .inr ⟨k, n, hk, hn, hg'⟩
  · intro n
    rw [hk.pages]
    exact h.pages n
  · exact h.empties_or (fun hb => hwalk (h.barred.mpr hb)) hempty

lemma shrinks (h : Extends V₀ V marked idle) (ht : V₀.Tidy) (st : Shrinks v V V') :
    Extends V₀ V' marked fun w => w = v ∨ idle w := by
  induction st with
  | refl => exact h.mono (fun _ => id) fun _ => .inr
  | tail _ st ih => exact (ih.unlinks ht st).mono (fun _ => id) fun _ hw => hw.elim .inl id

/-- Empty tables are made of frames that were free, so none of them lies at address zero. -/
lemma nullInUse (h : Extends V₀ V marked idle) (ht : V₀.Tidy) (hf : ∀ f ∈ V₀.free, f ≠ .null) : NullInUse V v := by
  intro V' st l hl he hn
  have h' := h.shrinks ht st
  by_cases h0 : V₀.word (l + 1) (index (l + 1) v) = 0
  · exact hf _ ((h'.frames .null).mpr (.inr ⟨l, _, hl, h0, hn⟩)) rfl
  · exact h'.used ht hl h0 he

/-- Without empty tables on the way to an address, none of the idle ones is there. -/
lemma settle (h : Extends V₀ V marked fun w => w = v ∨ idle w)
    (hne : ¬ V.Barred v → ∀ l < Level.root, ¬ V.Empty l (index (l + 1) v)) : Extends V₀ V marked idle := by
  refine { h with empties := fun l hl n he => ?_ }
  obtain ⟨w, hw, hb, rfl⟩ := h.empties l hl n he
  refine ⟨w, hw.resolve_left ?_, hb, rfl⟩
  rintro rfl
  exact hne (fun hbar => hb (h.barred.mp hbar)) l hl he

/-- Idle tables may as well lie on the way to other addresses, if the way there is the same. -/
lemma reroute (h : Extends V₀ V marked idle)
    (hi : ∀ w, idle w → ∃ u, idle' u ∧ ∀ l, index (l + 1) w = index (l + 1) u) : Extends V₀ V marked idle' := by
  refine { h with empties := fun l hl n he => ?_ }
  obtain ⟨w, hw, hb, rfl⟩ := h.empties l hl n he
  obtain ⟨u, hu, hway⟩ := hi w hw
  refine ⟨u, hu, ?_, hway l⟩
  rwa [← View.barred_congr (hway 2)]

/-! ### Pages marked and released -/

lemma mark {s : Store} (h : Extends V₀ V marked fun w => w = v)
    (hs : Shows s (V.setWord 0 (index 0 v) pendingEntry.raw)) (hw : ¬ V.Barred v) (h0 : V₀.word 0 (index 0 v) = 0) :
    Extends V₀ (V.setWord 0 (index 0 v) pendingEntry.raw) (fun w => w = v ∨ marked w) fun _ => False := by
  have hpending : pendingEntry.raw ≠ 0 := by decide
  have htable := V.table?_put v pendingEntry.raw
  have hword := V.word_put_succ v pendingEntry.raw
  refine ⟨h.mapped, h.root, ?_, ?_, ?_, ?_, ?_⟩
  · exact fun l hl n hn => (hword l n).trans (h.kept l hl n hn)
  · intro l hl n hn
    rcases h.made l hl n hn with hz | ⟨f, hf, hft⟩
    · exact .inl ((hword l n).trans hz)
    · exact .inr ⟨f, (hword l n).trans hf, (htable l n).trans hft⟩
  · intro f
    rw [h.frames]
    refine or_congr_right (exists_congr fun l => exists_congr fun n => ?_)
    rw [← htable l n]
    rfl
  · intro n
    by_cases hn : n = index 0 v
    · refine .inr ⟨hn ▸ h0, (V.pages_put v _ n).trans (if_pos hn), v, .inl rfl, fun hb => hw (h.barred.mpr hb), hn⟩
    · rw [show (V.setWord 0 (index 0 v) pendingEntry.raw).word 0 n = V.word 0 n from
        (V.pages_put v _ n).trans (if_neg hn)]
      refine (h.pages n).imp_right fun ⟨hz, hp, w, hm, hr⟩ => ⟨hz, hp, w, .inr hm, hr⟩
  · intro l hl n he
    rcases View.of_empty_setWord (Nat.zero_le _) hpending he with ⟨hz, -⟩ | he'
    · exact absurd hz (Nat.succ_ne_zero l)
    · obtain ⟨w, rfl, -, rfl⟩ := h.empties l hl n he'
      refine absurd he (hs.not_empty_on_way ?_ (Nat.le_of_lt hl))
      rw [View.word_setWord, if_pos ⟨rfl, rfl⟩]
      exact hpending

lemma clear (h : Extends V₀ V marked idle) (hw : ¬ V.Barred v) (h0 : V₀.word 0 (index 0 v) = 0) :
    Extends V₀ (V.put v 0) (fun w => marked w ∧ index 0 w ≠ index 0 v) fun w => w = v ∨ idle w := by
  refine ⟨h.mapped, h.root, ?_, ?_, ?_, ?_, ?_⟩
  · exact fun l hl n hn => (V.word_put_succ v 0 l n).trans (h.kept l hl n hn)
  · intro l hl n hn
    rw [V.word_put_succ, V.table?_put]
    exact h.made l hl n hn
  · intro f
    simp only [V.table?_put]
    exact h.frames f
  · intro n
    rw [V.pages_put]
    by_cases hn : n = index 0 v
    · exact .inl (by rw [if_pos hn, hn, h0])
    · rw [if_neg hn]
      refine (h.pages n).imp_right fun ⟨hz, hp, w, hm, hb, hr⟩ => ⟨hz, hp, w, ⟨hm, ?_⟩, hb, hr⟩
      exact fun he => hn (hr.trans he)
  · intro l hl n he
    have he' : (V.setWord 0 (index 0 v) 0).Empty l n := he
    rcases View.of_empty_setWord_zero (Nat.zero_le _) he' with ⟨rfl, rfl⟩ | he
    · exact ⟨v, .inl rfl, fun hb => hw (h.barred.mpr hb), (index_succ 0 v).symm⟩
    · obtain ⟨w, hi, hr⟩ := h.empties l hl n he
      exact ⟨w, .inr hi, hr⟩

lemma unmark (h : Extends V₀ V marked idle) (hz : V.Barred v ∨ V.word 0 (index 0 v) = 0) :
    Extends V₀ V (fun w => marked w ∧ index 0 w ≠ index 0 v) idle := by
  refine { h with pages := fun n => (h.pages n).imp_right ?_ }
  rintro ⟨h0, hpn, w, hm, hb, hn⟩
  refine ⟨h0, hpn, w, ⟨hm, fun he => ?_⟩, hb, hn⟩
  rcases hz with hbar | hz
  · exact hb (h.barred.mp ((View.barred_congr (index_of_page he _)).mpr hbar))
  · rw [hn, he, hz] at hpn
    exact absurd hpn (by decide)

/-! ### Back to the earlier hierarchy -/

/-- Without marked pages and idle tables nothing is left of the extension. -/
lemma word_eq (h : Extends V₀ V (fun _ => False) fun _ => False) {s : Store} (hs : Shows s V₀) {l : Nat}
    (hl : l ≤ Level.root) : V.word l = V₀.word l := by
  induction l with
  | zero =>
    funext n
    rcases h.pages n with hp | ⟨-, -, w, hm, -⟩
    · exact hp
    · exact hm.elim
  | succ l ih =>
    funext n
    by_cases h0 : V₀.word (l + 1) n = 0
    · rcases h.made l hl n h0 with hz | ⟨f, -, hf⟩
      · rw [hz, h0]
      · have hn : V₀.table? l n = none := by rw [View.table?_of_lt hl, h0, childOf_zero]
        have he : V.Empty l n := by
          refine ⟨by rw [hf]; exact Option.some_ne_none f, fun i hi => ?_⟩
          rw [ih (by omega)]
          exact hs.vacant (by omega) hn i hi
        obtain ⟨w, hi, -⟩ := h.empties l hl n he
        exact hi.elim
    · exact h.kept l hl n h0

lemma table?_eq (h : Extends V₀ V (fun _ => False) fun _ => False) {s : Store} (hs : Shows s V₀) {l : Nat}
    (hl : l ≤ Level.root) (n : Nat) : V.table? l n = V₀.table? l n := by
  rcases Nat.lt_or_eq_of_le hl with hlt | rfl
  · rw [View.table?_of_lt hlt, View.table?_of_lt hlt, h.mapped, h.word_eq hs hlt]
  · rw [View.table?_root, View.table?_root, h.mapped, h.root]

lemma mem_free (h : Extends V₀ V (fun _ => False) fun _ => False) {s : Store} (hs : Shows s V₀) (f : PhysAddr) :
    f ∈ V.free ↔ f ∈ V₀.free := by
  rw [h.frames f]
  refine ⟨.inl, ?_⟩
  rintro (hf | ⟨l, n, hl, h0, hf⟩)
  · exact hf
  · simp [h.table?_eq hs (Nat.le_of_lt hl), View.table?_of_lt hl, h0] at hf

lemma tidy (h : Extends V₀ V (fun _ => False) fun _ => False) {s : Store} (hs : Shows s V₀) (ht : V₀.Tidy) :
    V.Tidy := by
  refine ⟨fun l hl n => ?_, fun l hl n he => ?_⟩
  · rw [h.word_eq hs hl]
    exact ht.clean l hl n
  · obtain ⟨w, hw, -⟩ := h.empties l hl n he
    exact hw

end Extends

end Nucleus.Paging
