import Nucleus.Proofs.Paging.Extension

/-!
Frames behind the pages of an extension. While pages are marked as waiting, faults put frames behind some of
them. Such a hierarchy is told from the extension in which all of them still wait by a map from page numbers to
frames. Faults and releases change this map; tables are made and given back in both hierarchies alike.
-/

namespace Nucleus.Paging

open Memory Relation Function

def backedEntry (f : PhysAddr) : Entry := .make f (View.backedFlags pendingEntry)

lemma backedEntry_present (f : PhysAddr) : (backedEntry f).Present := Entry.present_make_union ..

/-- The view `W` is like `V`, except that the pages in `behind` have the frames given there. In `V` they wait,
and `V₀` does not use them. -/
structure Backing (V₀ V W : View) (behind : Nat → Option PhysAddr) : Prop where
  mapped : W.mapped = V.mapped
  root : W.root = V.root
  above : ∀ l n, W.word (l + 1) n = V.word (l + 1) n
  bare : ∀ n, behind n = none → W.word 0 n = V.word 0 n
  waits : ∀ n f, behind n = some f → V₀.word 0 n = 0 ∧ V.word 0 n = pendingEntry.raw
  backed : ∀ n f, behind n = some f → W.word 0 n = (backedEntry f).raw
  loose : ∀ n f, behind n = some f → W.Loose f
  apart : ∀ m n f, behind m = some f → behind n = some f → m = n
  frames : ∀ f, f ∈ V.free ↔ f ∈ W.free ∨ ∃ n, behind n = some f

namespace Backing

variable {V₀ V W W' : View} {behind : Nat → Option PhysAddr} {marked idle : VirtAddr → Prop} {v : VirtAddr}

lemma refl (V₀ V : View) : Backing V₀ V V fun _ => none where
  mapped := rfl
  root := rfl
  above _ _ := rfl
  bare _ _ := rfl
  waits _ _ := nofun
  backed _ _ := nofun
  loose _ _ := nofun
  apart _ _ _ := nofun
  frames f := by simp

/-! ### What frames do not change -/

lemma table?_eq (h : Backing V₀ V W behind) (l n : Nat) : W.table? l n = V.table? l n := by
  unfold View.table?
  rw [h.mapped, h.root, h.above]

lemma word_eq_zero (h : Backing V₀ V W behind) (l n : Nat) : W.word l n = 0 ↔ V.word l n = 0 := by
  cases l with
  | succ l => rw [h.above]
  | zero =>
    cases hn : behind n with
    | none => rw [h.bare n hn]
    | some f =>
      rw [h.backed n f hn, (h.waits n f hn).2]
      exact ⟨fun h0 => absurd h0 (Entry.ne_zero_of_present (backedEntry_present f)), fun h0 => absurd h0 (by decide)⟩

lemma empty_iff (h : Backing V₀ V W behind) {l n : Nat} : W.Empty l n ↔ V.Empty l n := by
  unfold View.Empty
  simp only [h.table?_eq, h.word_eq_zero]

lemma barred (h : Backing V₀ V W behind) : W.Barred v ↔ V.Barred v := by
  unfold View.Barred Level.root
  rw [h.above]

lemma entry_cases (h : Backing V₀ V W behind) (he : Extends V₀ V marked idle) (h0 : V₀.word 0 (index 0 v) = 0) :
    (∃ f, behind (index 0 v) = some f ∧ W.entry v = backedEntry f) ∨
      (behind (index 0 v) = none ∧ (W.entry v = .empty ∨ W.entry v = pendingEntry)) := by
  unfold View.entry
  cases hn : behind (index 0 v) with
  | some f => exact .inl ⟨f, rfl, congrArg Entry.mk (h.backed _ f hn)⟩
  | none =>
    refine .inr ⟨rfl, ?_⟩
    rw [h.bare _ hn]
    rcases he.pages (index 0 v) with hz | ⟨-, hz, -⟩
    · exact .inl (congrArg Entry.mk (hz.trans h0))
    · exact .inr (congrArg Entry.mk hz)

/-! ### Tables given back -/

lemma unlinks (h : Backing V₀ V W behind) (st : Unlinks v W W') :
    ∃ V', Unlinks v V V' ∧ Backing V₀ V' W' behind := by
  have hst := st
  obtain @⟨l, c, below, child, frame, not_free, empty, walkable⟩ := st
  -- frames behind pages are no tables, so the one that is given back is none of them
  have hc : ∀ n, behind n ≠ some c := fun n hn => (h.loose n c hn).not_table (Nat.le_of_lt below) child
  have hword : ∀ k n, (W.setWord (l + 1) (index (l + 1) v) 0).word (k + 1) n =
      (V.setWord (l + 1) (index (l + 1) v) 0).word (k + 1) n := by
    intro k n
    rw [View.word_setWord_succ, View.word_setWord_succ, h.above]
  refine ⟨_, .mk below ((h.table?_eq l _).symm.trans child) (h.mapped ▸ frame) ?_ ?_ ?_, ?_⟩
  · rw [h.frames]
    exact not_or.mpr ⟨not_free, fun ⟨n, hn⟩ => hc n hn⟩
  · exact fun i hi => (h.word_eq_zero l _).mp (empty i hi)
  · exact fun hb => walkable (h.barred.mpr hb)
  · refine ⟨h.mapped, h.root, hword, ?_, ?_, ?_, ?_, h.apart, ?_⟩
    · exact fun n hn => by simpa using h.bare n hn
    · exact fun n f hn => by simpa using h.waits n f hn
    · exact fun n f hn => by simpa using h.backed n f hn
    · exact fun n f hn => (h.loose n f hn).unlinks hst
    · intro f
      rw [List.mem_cons, List.mem_cons, h.frames, or_assoc]

lemma shrinks (h : Backing V₀ V W behind) (st : Shrinks v W W') :
    ∃ V', Shrinks v V V' ∧ Backing V₀ V' W' behind := by
  induction st with
  | refl => exact ⟨V, .refl, h⟩
  | tail _ st ih =>
    obtain ⟨V₁, st₁, h₁⟩ := ih
    obtain ⟨V₂, st₂, h₂⟩ := h₁.unlinks st
    exact ⟨V₂, st₁.tail st₂, h₂⟩

lemma nullInUse (h : Backing V₀ V W behind) (hn : NullInUse V v) : NullInUse W v := by
  intro W' st l hl he
  obtain ⟨V', st', h'⟩ := h.shrinks st
  rw [h'.table?_eq]
  exact hn V' st' l hl (h'.empty_iff.mp he)

/-! ### Frames that come and go -/

lemma update_eq_iff {x y : Option PhysAddr} {m n : Nat} :
    update behind m x n = y ↔ (n = m ∧ x = y) ∨ (n ≠ m ∧ behind n = y) := by
  rw [update_apply]
  split
  · next he => simp only [he, true_and, ne_eq, not_true_eq_false, false_and, or_false]
  · next hne => simp only [hne, false_and, false_or, ne_eq, not_false_eq_true, true_and]

/-- A waiting page gets the first free frame. -/
lemma back (h : Backing V₀ V W behind) {f : PhysAddr} {fs : List PhysAddr} (hf : W.free = f :: fs)
    (hloose : View.Loose { W with free := fs } f) (h0 : V₀.word 0 (index 0 v) = 0)
    (hn : behind (index 0 v) = none) (hp : V.word 0 (index 0 v) = pendingEntry.raw) :
    Backing V₀ V ({ W with free := fs }.put v.pageBase (backedEntry f).raw) (update behind (index 0 v) (some f)) := by
  have hpage : ∀ n, ({ W with free := fs }.put v.pageBase (backedEntry f).raw).word 0 n =
      if n = index 0 v then (backedEntry f).raw else W.word 0 n := by
    intro n
    rw [View.pages_put, index_pageBase]
  -- a frame behind a page is not free, so the new one is behind no other page
  have hnew : ∀ n, behind n ≠ some f := by
    refine fun n hb => (h.loose n f hb).not_free ?_
    rw [hf]
    exact List.mem_cons_self ..
  refine ⟨h.mapped, h.root, fun l n => (View.word_put_succ ..).trans (h.above l n), ?_, ?_, ?_, ?_, ?_, ?_⟩
  · intro n hu
    obtain ⟨-, hu⟩ | ⟨hne, hb⟩ := update_eq_iff.mp hu
    · cases hu
    · rw [hpage, if_neg hne, h.bare n hb]
  · intro n g hu
    obtain ⟨rfl, -⟩ | ⟨-, hb⟩ := update_eq_iff.mp hu
    exacts [⟨h0, hp⟩, h.waits n g hb]
  · intro n g hu
    rw [hpage]
    obtain ⟨rfl, hg⟩ | ⟨hne, hb⟩ := update_eq_iff.mp hu
    · rw [if_pos rfl, Option.some.inj hg]
    · rw [if_neg hne, h.backed n g hb]
  · intro n g hu
    apply View.Loose.put
    obtain ⟨-, hg⟩ | ⟨-, hb⟩ := update_eq_iff.mp hu
    · exact Option.some.inj hg ▸ hloose
    · exact (h.loose n g hb).take hf
  · intro m n g hm hn
    obtain ⟨rfl, hg⟩ | ⟨-, hb⟩ := update_eq_iff.mp hm <;> obtain ⟨rfl, hg'⟩ | ⟨-, hb'⟩ := update_eq_iff.mp hn
    · rfl
    · exact absurd (hb'.trans hg.symm) (hnew n)
    · exact absurd (hb.trans hg'.symm) (hnew m)
    · exact h.apart m n g hb hb'
  · intro g
    rw [h.frames, hf, List.mem_cons]
    constructor
    · rintro ((rfl | hg) | ⟨n, hb⟩)
      · exact .inr ⟨index 0 v, update_self ..⟩
      · exact .inl hg
      · refine .inr ⟨n, update_eq_iff.mpr (.inr ⟨?_, hb⟩)⟩
        rintro rfl
        rw [hn] at hb
        cases hb
    · rintro (hg | ⟨n, hu⟩)
      · exact .inl (.inr hg)
      · obtain ⟨-, hg⟩ | ⟨-, hb⟩ := update_eq_iff.mp hu
        exacts [.inl (.inl (Option.some.inj hg).symm), .inr ⟨n, hb⟩]

/-- The entry of a page is cleared, and the frame behind it is free again. -/
lemma clear (h : Backing V₀ V W behind) {free : List PhysAddr}
    (hfree : ∀ f, f ∈ free ↔ f ∈ W.free ∨ behind (index 0 v) = some f) :
    Backing V₀ (V.put v 0) { W.put v 0 with free := free } (update behind (index 0 v) none) := by
  have hold : ∀ {n f}, update behind (index 0 v) none n = some f → n ≠ index 0 v ∧ behind n = some f := by
    intro n f hu
    exact (update_eq_iff.mp hu).resolve_left fun hc => nomatch hc.2
  refine ⟨h.mapped, h.root, fun l n => ?_, ?_, ?_, ?_, ?_, ?_, fun f => ?_⟩
  · exact (W.word_put_succ v 0 l n).trans ((h.above l n).trans (V.word_put_succ v 0 l n).symm)
  · intro n hu
    refine (W.pages_put v 0 n).trans ?_
    rw [View.pages_put]
    obtain ⟨rfl, -⟩ | ⟨hne, hb⟩ := update_eq_iff.mp hu
    · rw [if_pos rfl, if_pos rfl]
    · rw [if_neg hne, if_neg hne, h.bare n hb]
  · intro n f hu
    obtain ⟨hne, hb⟩ := hold hu
    rw [View.pages_put, if_neg hne]
    exact h.waits n f hb
  · intro n f hu
    obtain ⟨hne, hb⟩ := hold hu
    exact (W.pages_put v 0 n).trans ((if_neg hne).trans (h.backed n f hb))
  · intro n f hu
    obtain ⟨hne, hb⟩ := hold hu
    have hf := h.loose n f hb
    refine ⟨hf.frame, fun hm => ?_, (hf.put v 0).not_table⟩
    rcases (hfree f).mp hm with hm | hm
    exacts [hf.not_free hm, hne (h.apart n _ f hb hm)]
  · exact fun m n f hm hn => h.apart m n f (hold hm).2 (hold hn).2
  · refine (h.frames f).trans ?_
    rw [show f ∈ ({ W.put v 0 with free := free } : View).free ↔ _ from hfree f, or_assoc]
    refine or_congr_right ⟨fun ⟨n, hb⟩ => ?_, ?_⟩
    · by_cases hn : n = index 0 v
      · exact .inl (hn ▸ hb)
      · exact .inr ⟨n, update_eq_iff.mpr (.inr ⟨hn, hb⟩)⟩
    · rintro (hb | ⟨n, hu⟩)
      exacts [⟨_, hb⟩, ⟨n, (hold hu).2⟩]

end Backing

/-! ### Stores with pages handed out -/

/-- The store `s` shows an extension of `V₀` in which some of the pages that wait have frames. -/
def Extended (s : Store) (V₀ : View) (marked idle : VirtAddr → Prop) : Prop :=
  ∃ V W behind, Shows s W ∧ Backing V₀ V W behind ∧ Extends V₀ V marked idle

lemma Extends.extended {s : Store} {V₀ V : View} {marked idle : VirtAddr → Prop} (h : Extends V₀ V marked idle)
    (hs : Shows s V) : Extended s V₀ marked idle := ⟨V, V, fun _ => none, hs, .refl V₀ V, h⟩

namespace Extended

variable {s : Store} {V₀ : View} {marked idle marked' idle' : VirtAddr → Prop} {v : VirtAddr}

lemma mono (h : Extended s V₀ marked idle) (hm : ∀ v, marked v → marked' v) (hi : ∀ v, idle v → idle' v) :
    Extended s V₀ marked' idle' := by
  obtain ⟨V, W, behind, hs, hb, he⟩ := h
  exact ⟨V, W, behind, hs, hb, he.mono hm hi⟩

lemma reroute (h : Extended s V₀ marked idle)
    (hi : ∀ w, idle w → ∃ u, idle' u ∧ ∀ l, index (l + 1) w = index (l + 1) u) : Extended s V₀ marked idle' := by
  obtain ⟨V, W, behind, hs, hb, he⟩ := h
  exact ⟨V, W, behind, hs, hb, he.reroute hi⟩

lemma resolveFault_ends (h : Extended s V₀ marked idle) (h0 : V₀.word 0 (index 0 v) = 0) :
    Ends (resolveFault V₀.root v) s fun _ s' => Extended s' V₀ marked idle := by
  obtain ⟨V, W, behind, hs, hb, he⟩ := h
  rw [← he.root, ← hb.root]
  refine hs.resolveFault_ends.mono ?_
  rintro _ s' (⟨-, -, -, hs'⟩ | ⟨f, fs, hf, -, ⟨-, hdemand, habsent⟩, hloose, -, hs'⟩)
  · exact ⟨V, W, behind, hs', hb, he⟩
  · rcases hb.entry_cases he h0 with ⟨g, -, hg⟩ | ⟨hn, hz | hp⟩
    · exact absurd (hg ▸ backedEntry_present g) habsent
    · rw [hz] at hdemand
      exact absurd hdemand (by decide)
    · rw [hp] at hs'
      refine ⟨V, _, _, hs', hb.back hf hloose h0 hn ?_, he⟩
      rw [← hb.bare _ hn]
      exact congrArg Entry.raw hp

/-- Releasing a page that was marked, or never used, takes the mark away and frees the frame behind it. -/
lemma releaseOne_ends (h : Extended s V₀ marked idle) (h0 : V₀.word 0 (index 0 v) = 0) :
    Ends (releaseOne V₀.root v) s fun _ s' =>
      Extended s' V₀ (fun w => marked w ∧ index 0 w ≠ index 0 v) fun w => w = v ∨ idle w := by
  obtain ⟨V, W, behind, hs, hb, he⟩ := h
  -- the frame in the entry, if there is one, is the one that backs the page
  have hframe : ∀ f, ((W.entry v).Present ∧ (W.entry v).base = f) ↔ behind (index 0 v) = some f := by
    intro f
    rcases hb.entry_cases he h0 with ⟨g, hg, hent⟩ | ⟨hn, hz | hp⟩
    · have hframe := (hb.loose _ g hg).frame
      have hbase : (backedEntry g).base = g :=
        Entry.base_make_of_aligned hframe.aligned (Nat.lt_of_lt_of_le hframe.mem.2 hs.below) _
      rw [hent, hg, hbase, Option.some_inj]
      exact ⟨And.right, fun hgf => ⟨backedEntry_present g, hgf⟩⟩
    · rw [hn, hz]
      exact ⟨fun hp => absurd hp.1 (by decide), nofun⟩
    · rw [hn, hp]
      exact ⟨fun hp => absurd hp.1 (by decide), nofun⟩
  rw [← he.root, ← hb.root]
  refine (hs.releaseOne_ends fun hp => hb.loose _ _ ((hframe _).mp ⟨hp, rfl⟩)).mono ?_
  rintro _ s' (⟨hs', hz⟩ | ⟨-, ⟨a, ha⟩, hs'⟩)
  · refine ⟨V, W, behind, hs', hb, (he.unmark ?_).mono (fun _ => id) fun _ => .inr⟩
    exact hz.imp hb.barred.mp (hb.word_eq_zero 0 _).mp
  · have hclear := he.clear (fun hbar => ha.1 (hb.barred.mpr hbar)) h0
    refine ⟨V.put v 0, W.releasePage v, _, hs', hb.clear fun f => ?_, hclear⟩
    rw [← hframe f]
    split
    · next hp => simp only [List.mem_cons, hp, true_and, eq_comm, or_comm]
    · next hp => simp only [hp, false_and, or_false]

lemma reclaim_ends (h : Extended s V₀ marked fun w => w = v ∨ idle w) (ht : V₀.Tidy)
    (hf : ∀ f ∈ V₀.free, f ≠ .null) : Ends (reclaim V₀.root v) s fun _ s' => Extended s' V₀ marked idle := by
  obtain ⟨V, W, behind, hs, hb, he⟩ := h
  rw [← he.root, ← hb.root]
  refine (hs.reclaim_ends (hb.nullInUse (he.nullInUse ht hf))).mono ?_
  rintro _ s' ⟨W', st, hs', hne, -⟩
  obtain ⟨V', st', hb'⟩ := hb.shrinks st
  have he' := (he.shrinks ht st').mono (fun _ => id) fun w hw => hw.elim .inl id
  refine ⟨V', W', behind, hs', hb', he'.settle fun hw l hl hem => ?_⟩
  exact hne (fun hbar => hw (st'.barred.mpr (hb.barred.mp hbar))) l hl (hb'.empty_iff.mpr hem)

/-- Where no page is marked any more, no frame is behind one. -/
lemma bare (h : Extended s V₀ (fun _ => False) idle) :
    ∃ V, Shows s V ∧ Extends V₀ V (fun _ => False) idle := by
  obtain ⟨V, W, behind, hs, hb, he⟩ := h
  have hnone : ∀ n, behind n = none := by
    intro n
    refine Option.eq_none_iff_forall_not_mem.mpr fun f hf => ?_
    obtain ⟨h0, hp⟩ := hb.waits n f hf
    rcases he.pages n with hz | ⟨-, -, w, hw, -⟩
    · rw [hz, h0] at hp
      exact absurd hp (by decide)
    · exact hw
  have hword : ∀ l n, W.word l n = V.word l n := by
    intro l n
    cases l with
    | zero => exact hb.bare n (hnone n)
    | succ l => exact hb.above l n
  have hfree : ∀ f, f ∈ V.free ↔ f ∈ W.free := by
    intro f
    rw [hb.frames]
    simp only [hnone, reduceCtorEq, exists_false, or_false]
  refine ⟨W, hs, hb.mapped.trans he.mapped, hb.root.trans he.root, ?_, ?_, ?_, ?_, ?_⟩
  · exact fun l hl n hn => (hword _ n).trans (he.kept l hl n hn)
  · intro l hl n hn
    rw [hword, hb.table?_eq]
    exact he.made l hl n hn
  · intro f
    rw [← hfree]
    simp only [hb.table?_eq]
    exact he.frames f
  · intro n
    rw [hword]
    exact he.pages n
  · exact fun l hl n hem => he.empties l hl n (hb.empty_iff.mp hem)

end Extended

end Nucleus.Paging
