import Nucleus.Proofs.Paging.Pruning

/-!
Ways that are not in use yet. Where the root entry for an address is zero, no table below the root lies on the way to
it. The tables made there take one free frame for each level, and nothing else can stop it while there are so many.
Once no page entry is left below, giving tables back takes away all of them: the frames are on top of the free list
again, in the order they had, and the hierarchy is the one before.
-/

namespace Nucleus.Paging

open Memory Relation

variable {s : Store} {V V' W W' : View} {v w : VirtAddr} {fs gs : List PhysAddr} {a : Nat}

/-! ### Entries of pages -/

namespace View

def enter (V : View) (v : VirtAddr) (e : Entry) : View := V.setWord 0 (index 0 v) e.raw

@[simp] lemma pages_enter (V : View) (v : VirtAddr) (e : Entry) (n : Nat) :
    (V.enter v e).word 0 n = if n = index 0 v then e.raw else V.word 0 n := V.pages_put v e.raw n

@[simp] lemma word_enter_succ (V : View) (v : VirtAddr) (e : Entry) (l n : Nat) :
    (V.enter v e).word (l + 1) n = V.word (l + 1) n := V.word_put_succ v e.raw l n

lemma entry_enter (V : View) (e : Entry) (h : index 0 w = index 0 v) : (V.enter v e).entry w = e :=
  congrArg Entry.mk ((V.pages_enter v e _).trans (if_pos h))

lemma barred_of_above (ha : ∀ l n, W.word (l + 1) n = V.word (l + 1) n) : W.Barred v ↔ V.Barred v := by
  unfold Barred Level.root
  rw [ha]

/-- Where entries lie depends on the tables above them. -/
lemma Leaf.of_above (h : V.Leaf w a) (hm : W.mapped = V.mapped) (ha : ∀ l n, W.word (l + 1) n = V.word (l + 1) n) :
    W.Leaf w a := by
  obtain ⟨hw, t, ht, hat⟩ := h
  refine ⟨fun hb => hw ((barred_of_above ha).mp hb), t, ?_, hat⟩
  rw [table?_of_lt (by decide)] at ht ⊢
  rwa [hm, ha]

lemma Leaf.withDropped (h : V.Leaf w a) (ds : List VirtAddr) : Leaf { V with dropped := ds } w a :=
  h.of_above rfl fun _ _ => rfl

lemma Loose.withDropped {f : PhysAddr} (h : V.Loose f) (ds : List VirtAddr) : Loose { V with dropped := ds } f :=
  ⟨h.frame, h.not_free, h.not_table⟩

lemma Leaf.enter (h : V.Leaf w a) (v : VirtAddr) (e : Entry) : (V.enter v e).Leaf w a :=
  h.of_above rfl (V.word_enter_succ v e)

/-- Writing is allowed by all tables on the way to `v`. -/
def WritableWay (V : View) (v : VirtAddr) : Prop :=
  ∀ l < Level.root, (⟨V.word (l + 1) (index (l + 1) v)⟩ : Entry).Writable

lemma WritableWay.of_above (h : V.WritableWay v) (ha : ∀ l n, W.word (l + 1) n = V.word (l + 1) n) :
    W.WritableWay v := by
  intro l hl
  rw [ha]
  exact h l hl

end View

/-! ### Tables that are there -/

namespace Depicts

lemma next_of_leaf (h : Depicts s V) (ha : V.Leaf v a) {l : Nat} (hl : l < Level.root) :
    (⟨V.word (l + 1) (index (l + 1) v)⟩ : Entry).Present ∧ ¬ (⟨V.word (l + 1) (index (l + 1) v)⟩ : Entry).Huge ∧
      V.table? l (index (l + 1) v) = some (⟨V.word (l + 1) (index (l + 1) v)⟩ : Entry).base := by
  obtain ⟨hw, t, ht, -⟩ := ha
  have hlinked : V.table? l (index (l + 1) v) ≠ none := by
    intro hn
    rw [h.table?_none_below (Nat.le_of_lt hl) (Nat.zero_le _) hn] at ht
    cases ht
  have hgo : ¬ (¬ (⟨V.word (l + 1) (index (l + 1) v)⟩ : Entry).Present ∨
      (⟨V.word (l + 1) (index (l + 1) v)⟩ : Entry).Huge) := fun hp => hlinked (table?_none_of_stop hl hw hp)
  obtain ⟨hp, hh⟩ := not_or.mp hgo
  exact ⟨not_not.mp hp, hh, (child_or_unreachable hl (not_not.mp hp) hh).resolve_right fun hn => hlinked hn.2⟩

lemma load_slot (h : Depicts s V) {l : Nat} {t : PhysAddr} (hl : l ≤ Level.root)
    (ht : V.table? l (index (l + 1) v) = some t) : s.ram.load (slotAddress t l v) = V.word l (index l v) := by
  rw [index_succ] at ht
  rw [slotAddress, slot_eq_index hl]
  exact h.slot_eq_word hl ht

lemma createFrom_of_leaf (h : Depicts s V) (ha : V.Leaf v a) {l : Nat} {t : PhysAddr} (hl : l ≤ Level.root)
    (ht : V.table? l (index (l + 1) v) = some t) : createFrom v l t s = .ok (.ok a) s := by
  have hget : (get : StoreM Store) s = .ok s s := rfl
  induction l generalizing t with
  | zero =>
    obtain ⟨-, u, hu, rfl⟩ := ha
    obtain rfl := Option.some.inj (ht.symm.trans hu)
    rw [createFrom, bind_of_ok hget, Window.visible?_of_mem (h.mem_mapped ht)]
    rfl
  | succ l ih =>
    obtain ⟨hp, hh, hnext⟩ := h.next_of_leaf ha hl
    rw [createFrom, bind_of_ok hget, h.entryIn?_eq hl ht]
    dsimp only
    rw [if_pos hp, if_neg hh]
    exact ih (Nat.le_of_lt hl) hnext

lemma root_of_leaf (h : Depicts s V) (ha : V.Leaf v a) :
    V.table? Level.root (index (Level.root + 1) v) = some V.root := by
  rcases h.root_table (v := v) with ⟨-, ht⟩ | ⟨-, hn⟩
  · exact ht
  · obtain ⟨-, t, ht, -⟩ := ha
    rw [h.table?_none_below (Nat.le_refl _) (Nat.zero_le _) hn] at ht
    cases ht

lemma leafOrCreate_of_leaf (h : Depicts s V) (ha : V.Leaf v a) : leafOrCreate V.root v s = .ok (.ok a) s :=
  h.createFrom_of_leaf ha (Nat.le_refl _) (h.root_of_leaf ha)

end Depicts

/-! ### Unused ways -/

lemma index_succ_congr (hi : index 1 w = index 1 v) (l : Nat) : index (l + 1) w = index (l + 1) v := by
  induction l with
  | zero => exact hi
  | succ l ih => rw [index_succ, ih, ← index_succ]

lemma Branch.congr {low : Nat} {ts : List PhysAddr} (h : Branch v low ts V V') (hi : index 1 w = index 1 v)
    (hts : 0 < low + ts.length) : Branch w low ts V V' := by
  have hindex := index_succ_congr hi
  have hpos : ∀ {l}, 0 < l → index l w = index l v := by
    intro l hl
    obtain ⟨k, rfl⟩ : ∃ k, l = k + 1 := ⟨l - 1, by omega⟩
    exact hindex k
  refine ⟨h.fits, h.root, h.free, ?_, ?_, ?_, ?_, ?_, ?_, h.translations⟩
  · intro k c hc
    rw [hindex]
    exact h.linked k c hc
  · intro l hl hlt
    rw [hindex]
    exact h.unlinked l hl hlt
  · intro hne
    rw [hpos hts]
    exact h.absent hne
  · intro k hk n hn hk0
    rw [hindex] at hn
    refine h.bare k hk n hn fun h0 => ?_
    rw [← hpos (by omega)]
    exact hk0 h0
  · intro l n hout
    rw [hindex] at hout
    exact h.others l n hout
  · intro l n hout
    refine h.words l n fun ⟨hl, hlt, hn⟩ => hout ⟨hl, hlt, ?_⟩
    rw [hpos (Nat.zero_lt_of_lt hl)]
    exact hn

/-- The root entry for `v` is zero. -/
def View.Unopened (V : View) (v : VirtAddr) : Prop := V.word Level.root (index Level.root v) = 0

lemma View.Unopened.not_barred (h : V.Unopened v) : ¬ V.Barred v := by
  unfold View.Barred
  rw [show V.word Level.root (index Level.root v) = 0 from h]
  exact fun hb => Entry.not_present_zero hb.1

/-- Below an unused root entry there is nothing. -/
lemma View.Unopened.word_eq_zero (h : V.Unopened v) (hg : V.Grounded) {l : Nat} (hl : l ≤ Level.root) :
    V.word l (index l v) = 0 := by
  rcases Nat.lt_or_eq_of_le hl with hlt | rfl
  · have hn : V.table? 2 (index 3 v) = none := by
      rw [View.table?_of_lt (by decide)]
      exact (congrArg (childOf V.mapped 3) h).trans (childOf_zero ..)
    refine hg l hl _ ?_
    rw [← index_succ]
    exact hg.table?_none_below (by decide) (Nat.le_of_lt_succ hlt) hn
  · exact h

lemma View.Unopened.translate_eq_none (h : V.Unopened v) : V.translate v Level.root = none := by
  refine View.translate_of_absent ?_
  rw [show V.word Level.root (index Level.root v) = 0 from h]
  exact Entry.not_present_zero

/-- In `V'` the frames `fs` are the tables on the way to `v`, from the top down, and `V` has none there. -/
structure Opens (v : VirtAddr) (fs : List PhysAddr) (V V' : View) : Prop where
  unopened : V.Unopened v
  length : fs.length = Level.root
  mapped : V'.mapped = V.mapped
  branch : Branch v 0 fs.reverse V V'
  links : ∀ l < Level.root, ∃ f, V'.word (l + 1) (index (l + 1) v) = (linkTo f).raw

namespace Opens

lemma free (h : Opens v fs V V') : V.free = fs ++ V'.free := by
  rw [h.branch.free, List.reverse_reverse]

lemma pages (h : Opens v fs V V') (n : Nat) : V'.word 0 n = V.word 0 n :=
  h.branch.words 0 n fun hin => absurd hin.1 (Nat.lt_irrefl 0)

lemma linked (h : Opens v fs V V') {l : Nat} (hl : l < Level.root) :
    ∃ f ∈ fs, fs.reverse[l]? = some f ∧ V'.table? l (index (l + 1) v) = some f := by
  have hlt : l < fs.reverse.length := by
    rw [List.length_reverse, h.length]
    exact hl
  have hget : fs.reverse[l]? = some fs.reverse[l] := List.getElem?_eq_getElem hlt
  have hlinked := h.branch.linked l _ hget
  rw [Nat.zero_add] at hlinked
  exact ⟨_, List.mem_reverse.mp (List.getElem_mem hlt), hget, hlinked⟩

/-- Which mappings were dropped does not matter. -/
lemma withDropped (h : Opens v fs V V') (ds ds' : List VirtAddr) :
    Opens v fs { V with dropped := ds } { V' with dropped := ds' } :=
  have b := h.branch
  have ht (w : VirtAddr) : View.translate { V' with dropped := ds' } w Level.root =
      View.translate { V with dropped := ds } w Level.root :=
    ((View.translate_congr fun _ _ => rfl).trans (b.translations w)).trans (View.translate_congr fun _ _ => rfl)
  ⟨h.unopened, h.length, h.mapped, ⟨b.fits, b.root, b.free, b.linked, b.unlinked, b.absent, b.bare, b.others, b.words,
    ht⟩, h.links⟩

/-- The tables on the way to an address are those on the way to each other address that they cover. -/
lemma congr (h : Opens v fs V V') (hi : index 1 w = index 1 v) : Opens w fs V V' := by
  have hlen : fs.reverse.length = Level.root := by rw [List.length_reverse, h.length]
  refine ⟨?_, h.length, h.mapped, h.branch.congr hi (by rw [hlen]; decide), fun l hl => ?_⟩
  · unfold View.Unopened Level.root
    rw [index_succ_congr hi]
    exact h.unopened
  · rw [index_succ_congr hi]
    exact h.links l hl

lemma writable (h : Opens v fs V V') : V'.WritableWay v := by
  intro l hl
  obtain ⟨f, hf⟩ := h.links l hl
  rw [hf]
  unfold Entry.Writable linkTo
  rw [Entry.flags_make]
  decide

lemma not_barred (h : Opens v fs V V') : ¬ V'.Barred v := by
  obtain ⟨f, hf⟩ := h.links 2 (by decide)
  rintro ⟨-, hhuge⟩
  rw [show V'.word Level.root (index Level.root v) = (linkTo f).raw from hf] at hhuge
  exact linkTo_not_huge f hhuge

end Opens

/-! ### Making the tables -/

lemma Grows.word (st : Grows v V V') (l n : Nat) : V'.word l n = V.word l n ∨ ∃ f, V'.word l n = (linkTo f).raw := by
  induction st with
  | refl => exact .inl rfl
  | tail _ st ih =>
    obtain @⟨k, f, fs, -, -, -, -, -, -, -, -⟩ := st
    dsimp only
    rw [View.word_setWord]
    split
    · exact .inr ⟨f, rfl⟩
    · exact ih

namespace Shows

/-- Below an unused entry, one free frame for each level is enough. -/
lemma createFrom_opens (h : Shows s V) {l : Nat} {t : PhysAddr} (hl : l ≤ Level.root) (hw : ¬ V.Barred v)
    (ht : V.table? l (index (l + 1) v) = some t) (h0 : V.word l (index l v) = 0) (hfree : V.free = fs ++ gs)
    (hlen : fs.length = l) : Ends (createFrom v l t) s fun r s' => ∃ a V',
      r = .ok a ∧ Grows v V V' ∧ Shows s' V' ∧ V'.Leaf v a ∧ V'.free = gs := by
  induction l generalizing s V t fs with
  | zero =>
    obtain rfl := List.length_eq_zero_iff.mp hlen
    rw [createFrom, ends_get_bind, Window.visible?_of_mem (h.mem_mapped ht)]
    exact ends_pure ⟨_, V, rfl, .refl, h, ⟨hw, t, ht, rfl⟩, hfree⟩
  | succ l ih =>
    obtain ⟨f, fs, rfl⟩ := List.exists_cons_of_length_eq_add_one hlen
    have hp : ¬ (⟨V.word (l + 1) (index (l + 1) v)⟩ : Entry).Present := h0 ▸ Entry.not_present_zero
    rw [createFrom, ends_get_bind, h.entryIn?_eq hl ht]
    dsimp only
    rw [if_neg hp]
    refine Ends.bind (h.alloc_cons hfree) ?_
    rintro _ s₁ ⟨rfl, h₁, hb⟩
    refine Ends.bind (P := fun _ s' => Shows s' { V with free := fs ++ gs } ∧ Blank s' { V with free := fs ++ gs } f)
      (ends_modify ⟨h₁.emit rfl, hb.toLoose, hb.zero⟩) ?_
    rintro _ s₂ ⟨h₂, hb₂⟩
    refine Ends.bind (h.links_ends hl ht hp hw hfree h₂ hb₂) ?_
    rintro _ s₃ ⟨V₁, hstep, htable, hvacant, h₃⟩
    rw [show (Entry.make f (.present ∪ .writable)).base = f from linkTo_base hb.frame h.below]
    have hfree₁ : V₁.free = fs ++ gs := by
      obtain @⟨k, g, hs, -, free, -, -, -, -, -, -⟩ := hstep
      exact (List.cons.inj (free.symm.trans hfree)).2
    refine (ih h₃ (Nat.le_of_lt hl) (fun hbar => hw (hstep.barred.mp hbar)) htable hvacant hfree₁
      (Nat.succ.inj hlen)).mono ?_
    rintro r s' ⟨a, V', hr, hg, h', hleaf, hfree'⟩
    exact ⟨a, V', hr, .head hstep hg, h', hleaf, hfree'⟩

/-- **A way is opened** by as many free frames as there are levels below the root. -/
lemma leafOrCreate_opens (h : Shows s V) (hr : V.root ∈ V.mapped) (h0 : V.Unopened v) (hfree : V.free = fs ++ gs)
    (hlen : fs.length = Level.root) : Ends (leafOrCreate V.root v) s fun r s' => ∃ a V',
      r = .ok a ∧ Shows s' V' ∧ V'.Leaf v a ∧ V'.free = gs ∧ Opens v fs V V' := by
  have ht := (h.root_table (v := v)).resolve_right fun hn => hn.1 (h.mapped ▸ hr)
  refine (h.createFrom_opens (Nat.le_refl _) h0.not_barred ht.2 h0 hfree hlen).mono ?_
  rintro r s' ⟨a, V', hrun, hg, h', hleaf, hfree'⟩
  refine ⟨a, V', hrun, h', hleaf, hfree', ?_⟩
  obtain ⟨low, ts, hb⟩ := hg.branch h.toGrounded
  have hts : ts = fs.reverse := by
    have happend : ts.reverse ++ gs = fs ++ gs := by rw [← hfree', ← hb.free, hfree, hfree']
    rw [← List.append_cancel_right happend, List.reverse_reverse]
  subst hts
  obtain rfl : low = 0 := by
    have hfits := hb.fits
    rw [List.length_reverse, hlen] at hfits
    omega
  refine ⟨h0, hlen, hg.keepsPages.mapped, hb, fun l hl => ?_⟩
  refine (Grows.word hg (l + 1) (index (l + 1) v)).resolve_left fun hsame => ?_
  exact Entry.ne_zero_of_present (h'.next_of_leaf hleaf hl).1 (hsame.trans (h0.word_eq_zero h.toGrounded hl))

end Shows

/-! ### Giving them back -/

lemma View.eq_withDropped (hm : W.mapped = V.mapped) (hr : W.root = V.root) (hw : W.word = V.word)
    (hf : W.free = V.free) : W = { V with dropped := W.dropped } := by
  rw [← hm, ← hr, ← hw, ← hf]

lemma Opens.word_eq_zero (h : Opens v fs V W) (hg : V.Grounded) (st : Shrinks v W W')
    (hne : ∀ l < Level.root, ¬ W'.Empty l (index (l + 1) v)) {l : Nat} (hl : l ≤ Level.root) :
    W'.word l (index l v) = 0 := by
  have hb := h.branch
  have hlen : fs.reverse.length = Level.root := by rw [List.length_reverse, h.length]
  induction l with
  | zero =>
    rw [st.keepsPages.pages, h.pages]
    exact h.unopened.word_eq_zero hg (Nat.zero_le _)
  | succ l ih =>
    by_contra hnz
    have hsame := (Shrinks.word st (l + 1) (index (l + 1) v)).resolve_right hnz
    obtain ⟨f, -, -, hlinked⟩ := h.linked hl
    have htable : W'.table? l (index (l + 1) v) = some f := by
      rw [View.table?_of_lt hl, st.keepsPages.mapped, hsame, ← View.table?_of_lt hl]
      exact hlinked
    refine hne l hl ⟨by rw [htable]; exact Option.some_ne_none f, fun i hi => ?_⟩
    by_contra hi0
    have hentry := (Shrinks.word st l (entriesPerTable * index (l + 1) v + i)).resolve_right hi0
    refine hi0 (hentry.trans ?_)
    have hbare := hb.bare l (hlen ▸ hl) (entriesPerTable * index (l + 1) v + i)
    simp only [Nat.zero_add] at hbare
    refine hbare (number_div hi) fun _ hn => ?_
    rw [hn] at hi0
    exact hi0 (ih (Nat.le_of_lt hl))

/-- Where the words on the way are zero, the tables that were given back are those that were made. -/
lemma Opens.branch_eq (h : Opens v fs V W) {low : Nat} {ts : List PhysAddr} (hb : Branch v low ts W' W)
    (hzero : ∀ l ≤ Level.root, W'.word l (index l v) = 0) : low = 0 ∧ ts = fs.reverse := by
  have hrange : ∀ l < Level.root, low ≤ l ∧ l < low + ts.length := by
    intro l hl
    by_contra hout
    obtain ⟨f, -, -, hlinked⟩ := h.linked hl
    have hsame := hb.others l (index (l + 1) v) fun hin => hout ⟨hin.1, hin.2.1⟩
    rw [hlinked, View.table?_of_lt hl, hzero (l + 1) hl, childOf_zero] at hsame
    cases hsame
  have hfits := hb.fits
  have hlast := hrange 2 (by decide)
  obtain rfl : low = 0 := Nat.le_zero.mp (hrange 0 (by decide)).1
  have hlen : ts.length = Level.root := by
    unfold Level.root at *
    omega
  refine ⟨rfl, List.ext_getElem? fun k => ?_⟩
  by_cases hk : k < Level.root
  · obtain ⟨f, -, hget, hlinked⟩ := h.linked hk
    have hlinked' := hb.linked k _ (List.getElem?_eq_getElem (hlen ▸ hk))
    rw [Nat.zero_add, hlinked] at hlinked'
    rw [hget, List.getElem?_eq_getElem (hlen ▸ hk), hlinked']
  · rw [List.getElem?_eq_none (by omega), List.getElem?_eq_none (by rw [List.length_reverse, h.length]; omega)]

/-- **Tables on a way without pages are all given back**, and this undoes their making. -/
lemma Opens.pruned (h : Opens v fs V W) (hg : V.Grounded) (hgw : W.Grounded) (st : Shrinks v W W')
    (hne : ∀ l < Level.root, ¬ W'.Empty l (index (l + 1) v)) : W' = { V with dropped := W'.dropped } := by
  obtain ⟨low, ts, hb⟩ := st.branch hgw
  have hzero := fun l (hl : l ≤ Level.root) => h.word_eq_zero hg st hne hl
  obtain ⟨rfl, rfl⟩ := h.branch_eq hb hzero
  have hword : W'.word = V.word := by
    funext l n
    by_cases hin : 0 < l ∧ l ≤ 0 + fs.reverse.length ∧ n = index l v
    · obtain ⟨-, hl, rfl⟩ := hin
      rw [List.length_reverse, h.length, Nat.zero_add] at hl
      rw [hzero l hl, h.unopened.word_eq_zero hg hl]
    · rw [← hb.words l n hin, h.branch.words l n hin]
  have hfree : W'.free = V.free := by rw [hb.free, List.reverse_reverse, h.free]
  have hk := st.keepsPages
  exact View.eq_withDropped (hk.mapped.trans h.mapped) (hk.root.trans h.branch.root) hword hfree

/-- Giving tables back on a way whose pages have no entries brings back the hierarchy without the way. -/
lemma Shows.reclaim_opened (h : Shows s W) (ho : Opens v fs V W) (hg : V.Grounded) (hnull : ∀ f ∈ fs, f ≠ .null) :
    Ends (reclaim W.root v) s fun _ s' => ∃ ds, Shows s' { V with dropped := ds } := by
  have hin : NullInUse W v := by
    intro W' st l hl _ ht
    obtain ⟨f, hf, -, hlinked⟩ := ho.linked hl
    rw [st.table?_of_some ht] at hlinked
    exact hnull f hf (Option.some.inj hlinked).symm
  refine (h.reclaim_ends hin).mono ?_
  rintro n s' ⟨W', st, h', hne, -⟩
  have heq := ho.pruned hg h.toGrounded st (hne ho.not_barred)
  rw [heq] at h'
  exact ⟨_, h'⟩

/-! ### Mapping a page and back -/

namespace Shows

lemma map_opens (h : Shows s V) (hr : V.root ∈ V.mapped) (h0 : V.Unopened v) (hfree : V.free = fs ++ gs)
    (hlen : fs.length = Level.root) (p : PhysAddr) (flags : Flags) : Ends (map V.root v p flags) s fun r s' =>
      r = .ok () ∧ ∃ V', V'.free = gs ∧ Opens v fs V V' ∧ (∃ a, V'.Leaf v a) ∧
        ∃ ds, Shows s' ({ V' with dropped := ds }.enter v (.make p (flags ∪ .present))) := by
  unfold map
  refine Ends.bind (P := fun _ s' => Shows s' V) (ends_modify (h.emit rfl)) ?_
  rintro _ s₁ h₁
  refine Ends.bind (h₁.leafOrCreate_opens hr h0 hfree hlen) ?_
  rintro _ s₂ ⟨a, V', rfl, h₂, hleaf, hfree', hopens⟩
  refine Ends.bind (h₂.setEntry_leaf hleaf _) ?_
  rintro _ s₃ h₃
  exact ends_modify_bind.mpr (ends_pure ⟨rfl, V', hfree', hopens, ⟨a, hleaf⟩, V'.dropped ++ [v], h₃.invalidated v⟩)

/-- **Unmapping the page** and giving the tables back closes the way. -/
lemma unmap_opened {e : Entry} (h : Shows s (W.enter v e)) (he : e.raw ≠ 0) (ho : Opens v fs V W) (hg : V.Grounded)
    (hnull : ∀ f ∈ fs, f ≠ .null) : Ends (do
      let old ← unmap W.root v
      let _ ← reclaim W.root v
      return old.map (·.base)) s fun r s' => r = some e.base ∧ ∃ ds, Shows s' { V with dropped := ds } := by
  have hentry : (W.enter v e).entry v = e := W.entry_enter e rfl
  refine Ends.bind h.unmap_ends ?_
  rintro _ s₁ (⟨-, -, hb | hz⟩ | ⟨rfl, -, -, h₁⟩)
  · exact absurd hb ho.not_barred
  · exact absurd ((congrArg Entry.raw hentry).symm.trans hz) he
  · have hback : (W.enter v e).put v 0 = { W with dropped := ((W.enter v e).put v 0).dropped } := by
      refine View.eq_withDropped rfl rfl ?_ rfl
      funext l n
      cases l with
      | zero =>
        rw [View.pages_put, View.pages_enter]
        split
        · next hn => rw [hn, ho.pages, ho.unopened.word_eq_zero hg (Nat.zero_le _)]
        · rfl
      | succ l => rw [View.word_put_succ, View.word_enter_succ]
    rw [hback] at h₁
    refine Ends.bind (h₁.reclaim_opened (ho.withDropped V.dropped _) hg hnull) ?_
    rintro _ s₂ h₂
    rw [hentry]
    exact ends_pure ⟨rfl, h₂⟩

end Shows

end Nucleus.Paging
