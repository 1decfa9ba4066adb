import Mathlib.Algebra.Group.Nat.Defs
import Mathlib.Tactic.Common
import Nucleus.Memory.Direct
import Nucleus.Memory.Ram
import Nucleus.Paging.Entry
import Nucleus.Proofs.Alignment

/-!
Pages as numbers: what masking a word keeps, the frames that can be handed out, and the slots of a page that
is read as 512 words.
-/

namespace Nucleus

/-! ### Masking -/

lemma toNat_and_page (w : UInt64) : (w &&& 0xFFF).toNat = w.toNat % 4096 := by
  rw [UInt64.toNat_and, show (0xFFF : UInt64).toNat = 2 ^ 12 - 1 from rfl, Nat.and_two_pow_sub_one_eq_mod]

lemma toNat_and_add_and_not (w m : UInt64) : (w &&& m).toNat + (w &&& ~~~m).toNat = w.toNat :=
  Alignment.toNat_and_add_and_not w.toBitVec m.toBitVec

lemma toNat_and_not_page (w : UInt64) : (w &&& ~~~0xFFF).toNat = w.toNat / 4096 * 4096 := by
  have hsum := toNat_and_add_and_not w 0xFFF
  rw [toNat_and_page] at hsum
  omega

/-! ### Rounding -/

namespace Memory.Span

def pagesUp (n : Nat) : Nat := (n + (pageSize - 1)) / pageSize

/-- The pages that lie completely between the addresses `start` and `stop`. -/
def inner (start stop : Nat) : Span := ⟨pagesUp start, stop / pageSize⟩

/-- The pages around `start` and up to `stop`; the last page of the address space is left out. -/
def outer (start stop : Nat) : Span := ⟨start / pageSize, min (pagesUp stop) limit⟩

end Memory.Span

namespace Addr

variable {space : Space}

lemma isPowerOfTwo_page : (UInt64.ofNat pageSize).toBitVec.toNat.isPowerOfTwo := ⟨12, rfl⟩

lemma alignDown_page (a : Addr space) : a.alignDown (UInt64.ofNat pageSize) = .ok a.pageBase := rfl

lemma toNat_pageBase (a : Addr space) : a.pageBase.toNat = a.page * pageSize := by
  obtain ⟨d, hd, hvalue⟩ := Alignment.down_eq a.word.toBitVec isPowerOfTwo_page
  have hbase : (⟨⟨d⟩⟩ : Addr space) = a.pageBase := by
    have h := a.alignDown_page
    unfold alignDown at h
    rw [hd] at h
    exact Except.ok.inj h
  rw [← hbase]
  exact hvalue

lemma page_pageBase (a : Addr space) : a.pageBase.page = a.page := by
  unfold page
  rw [toNat_pageBase]
  exact Nat.mul_div_cancel _ (by decide)

lemma pageBase_of_aligned {a : Addr space} (h : a.PageAligned) : a.pageBase = a := by
  refine ext_toNat ?_
  rw [toNat_pageBase]
  exact Nat.div_mul_cancel (Nat.dvd_of_mod_eq_zero h)

/-- Rounding up has a result exactly if the page boundary is an address, and gives it then. -/
lemma pageAbove_cases (a : Addr space) :
    (Memory.Span.pagesUp a.toNat * pageSize < 2 ^ 64 ∧
      ∃ b, a.pageAbove = .ok b ∧ b.toNat = Memory.Span.pagesUp a.toNat * pageSize) ∨
    (2 ^ 64 ≤ Memory.Span.pagesUp a.toNat * pageSize ∧ a.pageAbove = .error .alignUpOverflow) := by
  obtain ⟨hfits, hnot⟩ := Alignment.up?_eq (m := Memory.Span.pagesUp a.toNat * pageSize) a.word.toBitVec
    isPowerOfTwo_page rfl
  obtain ⟨hsome, hnone⟩ := Alignment.up_iff a.word.toBitVec (UInt64.ofNat pageSize).toBitVec
  unfold pageAbove alignUp
  rcases Nat.lt_or_ge (Memory.Span.pagesUp a.toNat * pageSize) (2 ^ 64) with hlt | hge
  · obtain ⟨u, hu, hvalue⟩ := hfits hlt
    rw [(hsome u).mpr hu]
    exact .inl ⟨hlt, _, rfl, hvalue⟩
  · rw [hnone.mpr (hnot hge)]
    exact .inr ⟨hge, rfl⟩

lemma pageAbove_ok {a : Addr space} (h : a.toNat + (pageSize - 1) < 2 ^ 64) : ∃ b, a.pageAbove = .ok b := by
  obtain ⟨-, b, hb, -⟩ | ⟨hge, -⟩ := pageAbove_cases a
  · exact ⟨b, hb⟩
  · have hle := Nat.div_mul_le_self (a.toNat + (pageSize - 1)) pageSize
    exact absurd h (Nat.not_lt_of_le (Nat.le_trans hge hle))

lemma toNat_pageAbove {a b : Addr space} (h : a.pageAbove = .ok b) :
    b.toNat = Memory.Span.pagesUp a.toNat * pageSize := by
  obtain ⟨-, c, hc, hvalue⟩ | ⟨-, hfault⟩ := pageAbove_cases a
  · cases hc.symm.trans h
    exact hvalue
  · cases hfault.symm.trans h

lemma pageAbove_aligned {a b : Addr space} (h : a.pageAbove = .ok b) : b.PageAligned := by
  unfold PageAligned
  rw [toNat_pageAbove h, Nat.mul_mod_left]

lemma page_pageAbove {a b : Addr space} (h : a.pageAbove = .ok b) : b.page = Memory.Span.pagesUp a.toNat := by
  unfold page
  rw [toNat_pageAbove h]
  exact Nat.mul_div_cancel _ (by decide)

lemma toNat_null : (null : Addr space).toNat = 0 := rfl

lemma eq_null_iff {a : Addr space} : a = null ↔ a.toNat = 0 :=
  ⟨fun h => h ▸ toNat_null, fun h => ext_toNat (h.trans toNat_null.symm)⟩

lemma page_apart {a b : Addr space} (ha : a.PageAligned) (hb : b.PageAligned) (hne : a ≠ b) :
    a.toNat + pageSize ≤ b.toNat ∨ b.toNat + pageSize ≤ a.toNat := by
  have hn : a.toNat ≠ b.toNat := fun h => hne (ext_toNat h)
  unfold PageAligned pageSize at *
  omega

end Addr

namespace Memory.Span

lemma within_eq (base length : UInt64) :
    within base length = inner base.toNat (Word.addSaturating base length).toNat := by
  unfold within inner
  dsimp only
  rw [Addr.page_pageBase]
  obtain ⟨-, b, hb, -⟩ | ⟨hge, hfault⟩ := Addr.pageAbove_cases (⟨base⟩ : PhysAddr)
  · rw [hb]
    exact congrArg (mk · _) (Addr.page_pageAbove hb)
  · -- only the boundary behind the last page is no address
    have hup : limit + 1 = pagesUp base.toNat := by
      have hlt := base.toNat_lt
      change 2 ^ 64 ≤ pagesUp base.toNat * pageSize at hge
      unfold limit pagesUp pageSize at *
      omega
    rw [hfault]
    exact congrArg (mk · _) hup

lemma page_boundary (stop : PhysAddr) : (boundary stop).page = min (pagesUp stop.toNat) limit := by
  unfold boundary
  have hlt := stop.toNat_lt
  obtain ⟨hlt', b, hb, -⟩ | ⟨hge, hfault⟩ := Addr.pageAbove_cases stop
  · rw [hb]
    dsimp only
    rw [Addr.page_pageAbove hb]
    unfold pagesUp limit pageSize at *
    omega
  · rw [hfault]
    dsimp only
    rw [Addr.page_pageBase]
    show 0xFFFFFFFFFFFFF = _
    unfold pagesUp limit pageSize at *
    omega

lemma covering_eq (start stop : PhysAddr) : covering start stop = outer start.toNat stop.toNat := by
  unfold covering outer
  rw [Addr.page_pageBase, page_boundary]
  rfl

lemma around_eq (base length : UInt64) :
    around base length = outer base.toNat (Word.addSaturating base length).toNat := covering_eq _ _

end Memory.Span

namespace Paging.Entry

open Addr

lemma toNat_base (e : Entry) : e.base.toNat = e.raw.toNat % 2 ^ 52 / 4096 * 4096 := by
  show (e.raw &&& baseMask).toNat = _
  rw [show baseMask = 0xFFFFFFFFFFFFF &&& ~~~0xFFF by decide, ← UInt64.and_assoc, toNat_and_not_page,
    UInt64.toNat_and, show (0xFFFFFFFFFFFFF : UInt64).toNat = 2 ^ 52 - 1 from rfl,
    Nat.and_two_pow_sub_one_eq_mod]

lemma base_aligned (e : Entry) : e.base.PageAligned := by
  unfold PageAligned
  rw [toNat_base]
  exact Nat.mul_mod_left _ _

lemma base_make_of_aligned {f : PhysAddr} (ha : f.PageAligned) (hlt : f.toNat < 2 ^ 52) (fl : Flags) :
    (make f fl).base = f := by
  have hbase : (make f fl).base = (⟨f.word⟩ : Entry).base := base_make f fl
  refine ext_toNat ?_
  rw [hbase, toNat_base]
  show f.toNat % 2 ^ 52 / 4096 * 4096 = f.toNat
  rw [Nat.mod_eq_of_lt hlt]
  exact Nat.div_mul_cancel (Nat.dvd_of_mod_eq_zero ha)

@[simp] lemma not_present_zero : ¬ (⟨0⟩ : Entry).Present := by decide

@[simp] lemma present_make_union (f : PhysAddr) (fl : Flags) : (make f (fl ∪ .present)).Present := by
  unfold Present
  rw [flags_make]
  show (fl.bits ||| 0x1) &&& 0x1 = 0x1
  rw [or_and, UInt64.and_self]
  exact UInt64.toBitVec_inj.mp (by ext i hi; simp)

lemma ne_zero_of_present {w : UInt64} (h : (⟨w⟩ : Entry).Present) : w ≠ 0 := fun hw =>
  not_present_zero (hw ▸ h)

end Paging.Entry

/-! ### The window -/

namespace Memory

namespace Window

variable {w : Window} {a : PhysAddr}

/-- The sum that gives the address in the window never overflows. -/
lemma visible?_eq (w : Window) (a : PhysAddr) : w.toDirectMapping.visible? a = .ok (w.visible? a) := by
  unfold DirectMapping.visible? visible?
  by_cases ha : a ∈ w.frames
  · obtain ⟨hstart, hstop⟩ : w.frames.start.toNat ≤ a.toNat ∧ a.toNat < w.frames.stop.toNat := id ha
    have hfits := w.fits
    have hdistance : a.distance w.frames.start = .ok (a.word - w.frames.start.word) := if_pos hstart
    have hoffset : (a.word - w.frames.start.word).toNat = a.toNat - w.frames.start.toNat :=
      UInt64.toNat_sub_of_le _ _ hstart
    have hsum : Word.add w.window.word (a.word - w.frames.start.word) =
        .ok (w.window.word + (a.word - w.frames.start.word)) := by
      refine if_pos ?_
      rw [hoffset]
      unfold Addr.toNat at *
      omega
    rw [if_pos ha, if_pos ha, hdistance]
    show (do return some (← w.window.add (a.word - w.frames.start.word)) : Checked (Option VirtAddr)) = _
    unfold Addr.add
    rw [hsum]
    rfl
  · rw [if_neg ha, if_neg ha]

lemma visible_of_mem (h : a ∈ w.frames) :
    w.visible a = .ok ⟨w.window.word + (a.word - w.frames.start.word)⟩ := by
  unfold DirectMapping.visible
  rw [visible?_eq, visible?_of_mem h]
  rfl

end Window

/-! ### Frames and the words in them -/

/-- The page at `f` can be handed out: it is a whole page, not the one at address zero, and reachable. -/
structure IsFrame (mapped : PhysRange) (f : PhysAddr) : Prop where
  aligned : f.PageAligned
  ne_null : f ≠ .null
  mem : f ∈ mapped

instance (mapped : PhysRange) (f : PhysAddr) : Decidable (IsFrame mapped f) :=
  decidable_of_iff (f.PageAligned ∧ f ≠ .null ∧ f ∈ mapped)
    ⟨fun h => ⟨h.1, h.2.1, h.2.2⟩, fun h => ⟨h.aligned, h.ne_null, h.mem⟩⟩

/-- The word number `i` of the page at `t`. -/
def Ram.slot (r : Ram) (t : PhysAddr) (i : Nat) : UInt64 := r.load (t.toNat + 8 * i)

namespace Ram

lemma aligned_slot {t : PhysAddr} (ht : t.PageAligned) (i : Nat) : (t.toNat + 8 * i) % 8 = 0 := by
  unfold Addr.PageAligned pageSize at ht
  omega

lemma slot_store {r : Ram} {t u : PhysAddr} {i j : Nat} (ht : t.PageAligned) (hu : u.PageAligned)
    (hi : i < 512) (hj : j < 512) (w : UInt64) :
    (r.store (t.toNat + 8 * i) w).slot u j = if t = u ∧ i = j then w else r.slot u j := by
  unfold slot
  rw [load_store (aligned_slot ht i) (aligned_slot hu j)]
  by_cases h : t = u
  · subst h
    by_cases hij : i = j
    · rw [if_pos (by rw [hij]), if_pos ⟨rfl, hij⟩]
    · rw [if_neg (by omega), if_neg fun h' => hij h'.2]
  · have := Addr.page_apart ht hu h
    rw [if_neg (by unfold pageSize at this; omega), if_neg fun h' => h h'.1]

lemma slot_clear {r : Ram} {t u : PhysAddr} {j : Nat} (ht : t.PageAligned) (hu : u.PageAligned)
    (hj : j < 512) : (r.clear t.toNat 512).slot u j = if t = u then 0 else r.slot u j := by
  unfold slot
  rw [load_clear (by have := aligned_slot ht 0; omega) (aligned_slot hu j)]
  by_cases h : t = u
  · rw [if_pos h, if_pos (by rw [h]; omega)]
  · have := Addr.page_apart ht hu h
    rw [if_neg h, if_neg (by unfold pageSize at this; omega)]

/-- The memory `r'` differs from `r` in the pages at `fs` only. -/
def SameOutside (fs : List PhysAddr) (r r' : Ram) : Prop :=
  ∀ a, a % 8 = 0 → (∀ f ∈ fs, a < f.toNat ∨ f.toNat + pageSize ≤ a) → r'.load a = r.load a

lemma SameOutside.refl (fs : List PhysAddr) (r : Ram) : SameOutside fs r r := fun _ _ _ => rfl

lemma SameOutside.trans {fs : List PhysAddr} {r r' r'' : Ram} (h : SameOutside fs r r')
    (h' : SameOutside fs r' r'') : SameOutside fs r r'' := fun a ha hf => (h' a ha hf).trans (h a ha hf)

lemma SameOutside.mono {fs gs : List PhysAddr} {r r' : Ram} (h : SameOutside fs r r') (hs : fs ⊆ gs) :
    SameOutside gs r r' := fun a ha hf => h a ha fun f hm => hf f (hs hm)

lemma SameOutside.slot {fs : List PhysAddr} {r r' : Ram} (h : SameOutside fs r r')
    (hfs : ∀ f ∈ fs, f.PageAligned) {t : PhysAddr} (ht : t.PageAligned) (hn : t ∉ fs) {i : Nat}
    (hi : i < 512) : r'.slot t i = r.slot t i := by
  refine h _ (aligned_slot ht i) fun f hf => ?_
  have := Addr.page_apart ht (hfs f hf) fun he => hn (he ▸ hf)
  unfold pageSize at this ⊢
  omega

lemma sameOutside_store {r : Ram} {t : PhysAddr} (ht : t.PageAligned) {i : Nat} (hi : i < 512) (w : UInt64) :
    SameOutside [t] r (r.store (t.toNat + 8 * i) w) := by
  intro a ha hf
  have := hf t (List.mem_singleton_self t)
  rw [load_store (aligned_slot ht i) ha, if_neg (by unfold pageSize at this; omega)]

lemma sameOutside_clear {r : Ram} {t : PhysAddr} (ht : t.PageAligned) :
    SameOutside [t] r (r.clear t.toNat 512) := by
  intro a ha hf
  have := hf t (List.mem_singleton_self t)
  rw [load_clear (by have := aligned_slot ht 0; omega) ha, if_neg (by unfold pageSize at this; omega)]

/-! ### Bytes -/

lemma byte_eq_load (r : Ram) (x : Nat) :
    r.byte x = (r.load (8 * (x / 8)) >>> UInt64.ofNat (8 * (x % 8))).toUInt8 := by
  have hword : r.load (8 * (x / 8)) = r.word (x / 8) := by
    rw [load_eq_word (Nat.mul_mod_right ..), Nat.mul_div_cancel_left _ (by decide)]
  rw [hword]
  rfl

lemma byte_of_zeroed {r : Ram} {f : PhysAddr} (hf : f.PageAligned) (hz : ∀ i < 512, r.slot f i = 0) {x : Nat}
    (hx : f.toNat ≤ x) (hx' : x < f.toNat + pageSize) : r.byte x = 0 := by
  unfold Addr.PageAligned pageSize at *
  have hslot := hz ((x - f.toNat) / 8) (by omega)
  unfold slot at hslot
  rw [show f.toNat + 8 * ((x - f.toNat) / 8) = 8 * (x / 8) by omega] at hslot
  rw [byte_eq_load, hslot, UInt64.zero_shiftRight]
  rfl

/-- The memory `r'` differs from `r` in bytes of the pages at `fs` only. -/
def SameBytesOutside (fs : List PhysAddr) (r r' : Ram) : Prop :=
  ∀ x, (∀ f ∈ fs, x < f.toNat ∨ f.toNat + pageSize ≤ x) → r'.byte x = r.byte x

lemma SameOutside.bytes {fs : List PhysAddr} {r r' : Ram} (h : SameOutside fs r r')
    (hfs : ∀ f ∈ fs, f.PageAligned) : SameBytesOutside fs r r' := by
  intro x hx
  have hload : r'.load (8 * (x / 8)) = r.load (8 * (x / 8)) := by
    refine h _ (Nat.mul_mod_right ..) fun f hf => ?_
    -- a page that does not hold the byte does not hold the word around it
    have ha := hfs f hf
    have hout := hx f hf
    unfold Addr.PageAligned pageSize at *
    omega
  rw [byte_eq_load, byte_eq_load, hload]

end Ram

end Memory

end Nucleus
