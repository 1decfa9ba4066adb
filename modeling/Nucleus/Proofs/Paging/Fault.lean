import Nucleus.Proofs.Paging.Change
import Nucleus.Proofs.Paging.Observed

/-!
Faults as the store shows them: where the page waits for its first access and a frame is left, the frame is zeroed
and put behind the page, and nothing else changes; otherwise nothing changes at all.
-/

namespace Nucleus.Paging

open Memory

/-- The page of `v` has an entry that waits for the first access. -/
def PageWaits (s : Store) (root : PhysAddr) (v : VirtAddr) : Prop :=
  ∃ e, entry? s root v = some e ∧ e.Demand ∧ ¬ e.Present

/-- In `s'` the zeroed frame `f` is behind the page of `v` and not free any more. That is all that changed in the
tables since `s`. -/
structure Backed (s s' : Store) (root : PhysAddr) (v : VirtAddr) (f : PhysAddr) : Prop where
  count : s.frames.count = s'.frames.count + 1
  zero : ∀ x, f.toNat ≤ x → x < f.toNat + pageSize → s'.ram.byte x = 0
  entry : ∃ e, entry? s root v = some e ∧ entry? s' root v = some (.make f (e.flags.remove .demand ∪ .present))
  entries : ∀ l ≤ Level.root, ∀ n, ¬ (l = 0 ∧ n = index 0 v) → wordAt s' root l n = wordAt s root l n
  page : ∀ w, index 0 w = index 0 v → translate s' root w = some (.ofNat (f.toNat + w.toNat % pageSize))
  elsewhere : ∀ w, index 0 w ≠ index 0 v → translate s' root w = translate s root w

/-- The view `V'` has the word `u` as the entry of the page of `v`, and is like `V` in all other entries. -/
structure Rewrites (V V' : View) (v : VirtAddr) (u : UInt64) : Prop where
  mapped : V'.mapped = V.mapped
  root : V'.root = V.root
  page : ∀ n, V'.word 0 n = if n = index 0 v then u else V.word 0 n
  above : ∀ l n, V'.word (l + 1) n = V.word (l + 1) n

section Backing

variable {s s' : Store} {V V' : View} {v w : VirtAddr} {f : PhysAddr}

lemma Shows.pageWaits_iff (h : Shows s V) : PageWaits s V.root v ↔ V.Waiting v := by
  unfold PageWaits View.Waiting
  constructor
  · rintro ⟨e, he, hd, hp⟩
    obtain ⟨ha, rfl⟩ := h.entry?_eq_some.mp he
    exact ⟨ha, hd, hp⟩
  · rintro ⟨ha, hd, hp⟩
    exact ⟨V.entry v, h.entry?_eq_some.mpr ⟨ha, rfl⟩, hd, hp⟩

lemma Rewrites.put (v : VirtAddr) (u : UInt64) {free : List PhysAddr} {dropped : List VirtAddr} :
    Rewrites V { V.put v.pageBase u with free := free, dropped := dropped } v u := by
  refine ⟨rfl, rfl, fun n => ?_, fun l n => V.word_put_succ v.pageBase u l n⟩
  rw [← index_pageBase 0 v]
  exact V.pages_put v.pageBase u n

lemma View.Leaf.rewrite {a : Nat} (ha : V.Leaf w a) {u : UInt64} (hk : Rewrites V V' v u) : V'.Leaf w a := by
  obtain ⟨hw, t, ht, hat⟩ := ha
  refine ⟨?_, t, ?_, hat⟩
  · unfold View.Barred Level.root at *
    rwa [hk.above]
  · rw [View.table?_of_lt (by decide)] at ht ⊢
    rwa [hk.mapped, hk.above]

lemma Shows.backed (h : Shows s V) (h' : Shows s' V')
    (hk : Rewrites V V' v (Entry.make f (View.backedFlags (V.entry v))).raw) {a : Nat} (ha : V.Leaf v a)
    (hfree : V.free = f :: V'.free) (hf : IsFrame V.mapped f)
    (hz : ∀ i < entriesPerTable, s'.ram.slot f i = 0) : Backed s s' V.root v f := by
  have hentry : ∀ w, index 0 w = index 0 v → V'.entry w = .make f (View.backedFlags (V.entry v)) :=
    fun w hw => congrArg Entry.mk ((hk.page _).trans (if_pos hw))
  refine ⟨?_, fun x hx hx' => Ram.byte_of_zeroed hf.aligned hz hx hx', ?_, ?_, fun w hw => ?_, fun w hw => ?_⟩
  · rw [h.free.count, h'.free.count, hfree, List.length_cons]
  · refine ⟨V.entry v, h.entry?_eq_some.mpr ⟨⟨a, ha⟩, rfl⟩, ?_⟩
    rw [← hk.root]
    exact h'.entry?_eq_some.mpr ⟨⟨a, ha.rewrite hk⟩, hentry v rfl⟩
  · intro l hl n hn
    rw [(h.table?_and_word hl n).2, ← hk.root, (h'.table?_and_word hl n).2]
    cases l with
    | zero => exact (hk.page n).trans (if_neg fun he => hn ⟨rfl, he⟩)
    | succ l => exact hk.above l n
  · have hbase : (Entry.make f (View.backedFlags (V.entry v))).base = f :=
      Entry.base_make_of_aligned hf.aligned (Nat.lt_of_lt_of_le hf.mem.2 h.below) _
    have hpresent : (Entry.make f (View.backedFlags (V.entry v))).Present := Entry.present_make_union ..
    have hleaf := (View.leaf_congr hw.symm).mp (ha.rewrite hk)
    rw [← hk.root, h'.translate_eq, h'.translate_of_leaf hleaf (Nat.le_refl _), hentry w hw,
      if_pos hpresent, byteOf_page, hbase]
  · rw [h.translate_eq, ← hk.root, h'.translate_eq]
    refine View.translate_congr fun l _ => ?_
    cases l with
    | zero => exact (hk.page _).trans (if_neg hw)
    | succ l => exact hk.above l _

/-- What was reported does not matter to what the tables show. -/
lemma Shows.withEvents (h : Shows s V) (es : Array Event) :
    Shows { s with events := es } { V with dropped := Store.dropped { s with events := es } } :=
  ⟨⟨h.mapped, rfl, h.free.congr rfl fun _ _ => rfl, h.root, h.words, h.grounded, h.distinct, h.apart⟩, h.below⟩

end Backing

/-- **Faults on waiting pages bring frames** as long as there are any, and other faults change nothing. This holds of
the store that is left behind, and does not depend on what was reported before. -/
theorem Orderly.resolveFault_ends {s : Store} {root : PhysAddr} {fs : List PhysAddr} (h : Orderly s root fs)
    (v : VirtAddr) : Ends (resolveFault root v) s fun r s' =>
      (PageWaits s root v ∧ ∃ f fs', fs = f :: fs' ∧ r = .ok f ∧ s'.dropped = s.dropped ++ [v.pageBase] ∧
        ∀ es, Orderly { s' with events := es } root fs' ∧ Backed s { s' with events := es } root v f) ∨
      (¬ (PageWaits s root v ∧ fs ≠ []) ∧ (∃ e, r = .error e) ∧ s'.dropped = s.dropped ∧
        ∀ es, Orderly { s' with events := es } root fs ∧ SameTables s { s' with events := es } root) := by
  have hs := h.shows
  generalize hV : View.of s root fs = V at hs
  obtain rfl : V.root = root := by rw [← hV]; rfl
  obtain rfl : V.free = fs := by rw [← hV]; rfl
  rw [hs.pageWaits_iff]
  refine hs.resolveFault_ends.mono ?_
  rintro r s' (⟨e, rfl, hn, hs'⟩ | ⟨f, fs', hf, rfl, hw, hloose, hz, hs'⟩)
  · refine .inr ⟨hn, ⟨e, rfl⟩, hs'.dropped.trans hs.dropped.symm, fun es => ?_⟩
    have hes := hs'.withEvents es
    exact ⟨hes.orderly, hs.sameTables hes rfl rfl (fun _ _ => rfl) rfl⟩
  · refine .inl ⟨hw, f, fs', hf, rfl, ?_, fun es => ?_⟩
    · rw [hs'.dropped, hs.dropped]
      rfl
    · obtain ⟨⟨a, ha⟩, -⟩ := hw
      have hes := hs'.withEvents es
      exact ⟨hes.orderly, hs.backed hes (.put v _) ha hf hloose.frame hz⟩

lemma Backed.not_waits {s s' : Store} {root : PhysAddr} {v w : VirtAddr} {f : PhysAddr} {fs : List PhysAddr}
    (h : Backed s s' root v f) (ho : Orderly s' root fs) (hw : index 0 w = index 0 v) : ¬ PageWaits s' root w := by
  have hs := ho.shows
  rintro ⟨e, he, -, hp⟩
  obtain ⟨e', -, he'⟩ := h.entry
  obtain ⟨-, hev⟩ := (hs.entry?_eq_some (v := v)).mp he'
  obtain ⟨-, hew⟩ := (hs.entry?_eq_some (v := w)).mp he
  have hsame : e = .make f (e'.flags.remove .demand ∪ .present) := by
    rw [← hew, ← hev]
    unfold View.entry
    rw [hw]
  rw [hsame] at hp
  exact hp (Entry.present_make_union ..)

end Nucleus.Paging
