import Mathlib.Data.List.Perm.Basic
import Mathlib.Data.List.Nodup
import Nucleus.Proofs.Memory.Coverage
import Nucleus.Proofs.Memory.FreeFrames

/-!
The frames that a new list supplies: the whole pages of the available regions inside of the limits, each of them
once. Whatever is allocated and freed, each of these frames is either free or held.
-/

namespace Nucleus.Memory

/-! ### Pages and their frames -/

def frameAt (p : Nat) : PhysAddr := .ofNat (pageSize * p)

lemma toNat_frameAt {p : Nat} (h : pageSize * p < 2 ^ 64) : (frameAt p).toNat = pageSize * p := Addr.toNat_ofNat h

lemma mem_framesOf {s : Span} {f : PhysAddr} : f ∈ FrameList.framesOf s ↔ ∃ p ∈ s, f = frameAt p := by
  unfold FrameList.framesOf Span.pages
  rw [List.mem_map]
  constructor
  · rintro ⟨p, hp, rfl⟩
    have := List.mem_range'_1.mp hp
    exact ⟨p, ⟨this.1, by omega⟩, rfl⟩
  · rintro ⟨p, ⟨hfirst, hlast⟩, rfl⟩
    exact ⟨p, List.mem_range'_1.mpr ⟨hfirst, by omega⟩, rfl⟩

lemma length_framesOf (s : Span) : (FrameList.framesOf s).length = s.pages := by
  unfold FrameList.framesOf
  rw [List.length_map, List.length_range']

lemma length_flatMap_framesOf (spans : List Span) :
    (spans.flatMap FrameList.framesOf).length = Span.pagesOf spans := by
  induction spans with
  | nil => rfl
  | cons s spans ih =>
    rw [List.flatMap_cons, List.length_append, length_framesOf, ih]
    rfl

/-- The frame can be handed out by a new list: it is a whole available page inside of the limits. -/
structure IsSupply (t : RegionTable) (mapped : PhysRange) (low : PhysAddr) (f : PhysAddr) : Prop where
  page : ∃ p, t.IsAvailable p ∧ f.toNat = pageSize * p
  aligned : f.PageAligned
  ne_null : f ≠ .null
  low : low.toNat ≤ f.toNat
  start : mapped.start.toNat ≤ f.toNat
  stop : f.toNat + pageSize ≤ mapped.stop.toNat

namespace FrameList

variable {t : RegionTable} {w : Window} {low : PhysAddr} {l : FrameList}

lemma new_eq (h : new t w low = .ok l) : l.mapped = w.frames ∧ l.head = .null ∧ l.built = false ∧
    l.count = Span.pagesOf l.pending ∧
    ∃ first, low.toNat ≤ pageSize * first ∧ 1 ≤ first ∧ (l.pending ≠ [] → w.frames.start.toNat ≤ pageSize * first) ∧
      l.pending = (t.available.map fun r => clamp first w.frames.stop.page r.span).filter fun s => ¬ s.IsEmpty := by
  unfold new at h
  cases hl : low.pageAbove with
  | error e =>
    rw [hl] at h
    cases h
  | ok lo =>
    rw [hl] at h
    have hlo := Addr.toNat_pageAbove hl
    have hlop := Addr.page_pageAbove hl
    have hlow : low.toNat ≤ pageSize * max lo.page 1 := by
      rw [hlop]
      unfold Span.pagesUp pageSize
      omega
    replace h : (if t.available = [] then Except.ok ⟨w, [], .null, 0, false⟩ else _) = Except.ok l := h
    by_cases ha : t.available = []
    · -- nothing is available, so the start of the window is not rounded
      rw [if_pos ha] at h
      cases h
      refine ⟨rfl, rfl, rfl, rfl, max lo.page 1, hlow, Nat.le_max_right .., fun hn => absurd rfl hn, ?_⟩
      rw [ha]
      rfl
    · rw [if_neg ha] at h
      cases hm : w.frames.start.pageAbove with
      | error e =>
        rw [hm] at h
        cases h
      | ok m =>
        rw [hm] at h
        cases h
        have hmp := Addr.page_pageAbove hm
        refine ⟨rfl, rfl, rfl, rfl, max (max lo.page 1) m.page, ?_, ?_, fun _ => ?_, rfl⟩
        · exact Nat.le_trans hlow (Nat.mul_le_mul_left _ (Nat.le_max_left ..))
        · omega
        · rw [hmp]
          unfold Span.pagesUp pageSize
          omega

lemma mem_waiting {f : PhysAddr} : f ∈ l.waiting ↔ ∃ s ∈ l.pending, ∃ p ∈ s, f = frameAt p := by
  unfold waiting
  simp only [List.mem_reverse, List.mem_flatMap, mem_framesOf]

lemma mem_clamp {first last p : Nat} {s : Span} : p ∈ clamp first last s ↔ p ∈ s ∧ first ≤ p ∧ p < last := by
  simp only [clamp, Span.mem_def]
  omega

/-- The frames of a new list are whole available pages inside of the limits. -/
lemma isSupply_of_mem (h : new t w low = .ok l) {f : PhysAddr} (hf : f ∈ l.waiting) :
    IsSupply t w.frames low f := by
  obtain ⟨-, -, -, -, first, hlow, hone, hstart, hpending⟩ := new_eq h
  obtain ⟨s, hs, p, hp, rfl⟩ := mem_waiting.mp hf
  have hstart' := hstart (List.ne_nil_of_mem hs)
  rw [hpending] at hs
  obtain ⟨r, hr, rfl⟩ := List.mem_map.mp (List.mem_filter.mp hs).1
  obtain ⟨hr, havail⟩ := List.mem_filter.mp hr
  obtain ⟨hpr, hfirst, hlast⟩ := mem_clamp.mp hp
  have hstop : pageSize * p + pageSize ≤ w.frames.stop.toNat := by
    unfold Addr.page pageSize at *
    omega
  have hbound := w.frames.stop.toNat_lt
  have hnat : (frameAt p).toNat = pageSize * p := toNat_frameAt (by omega)
  have hle : pageSize * first ≤ pageSize * p := Nat.mul_le_mul_left _ hfirst
  refine ⟨⟨p, ⟨r, hr, of_decide_eq_true havail, hpr⟩, hnat⟩, ?_, ?_, ?_, ?_, ?_⟩
  · unfold Addr.PageAligned
    rw [hnat]
    exact Nat.mul_mod_right ..
  · rw [Ne, Addr.eq_null_iff, hnat]
    unfold pageSize
    omega
  · omega
  · omega
  · omega

lemma pairwise_available (ht : t.Sound) :
    t.available.Pairwise fun r r' => ∀ p ∈ r.span, p ∉ r'.span := by
  have hsingle : ∀ p, hits p t.available ≤ 1 := by
    intro p
    unfold RegionTable.available hits
    refine Nat.le_trans ?_ (ht.single p)
    exact List.Sublist.countP_le List.filter_sublist
  have havail : ∀ r ∈ t.available, r.Available := fun r hr => of_decide_eq_true (List.mem_filter.mp hr).2
  generalize t.available = rs at hsingle havail
  induction rs with
  | nil => exact .nil
  | cons r rs ih =>
    refine .cons (fun r' hr' p hp hp' => ?_) (ih (fun p => ?_) fun s hs => havail s (List.mem_cons_of_mem _ hs))
    · have hone := hsingle p
      have hpos : 0 < hits p rs := hits_pos.mpr ⟨r', hr', havail r' (List.mem_cons_of_mem _ hr'), hp'⟩
      rw [hits_cons, if_pos ⟨havail r (List.mem_cons_self ..), hp⟩] at hone
      omega
    · have := hsingle p
      rw [hits_cons] at this
      omega

lemma nodup_framesOf {s : Span} (h : pageSize * s.last ≤ 2 ^ 64) : (framesOf s).Nodup := by
  refine List.Nodup.map_on ?_ (List.nodup_range' ..)
  intro p hp q hq he
  have hp' := List.mem_range'_1.mp hp
  have hq' := List.mem_range'_1.mp hq
  unfold Span.pages at hp' hq'
  have := congrArg Addr.toNat he
  unfold pageSize at *
  rw [Addr.toNat_ofNat (by omega), Addr.toNat_ofNat (by omega)] at this
  omega

lemma nodup_waiting (h : new t w low = .ok l) (ht : t.Sound) : l.waiting.Nodup := by
  obtain ⟨-, -, -, -, first, -, -, -, hpending⟩ := new_eq h
  have hlast : ∀ s ∈ l.pending, pageSize * s.last ≤ 2 ^ 64 := by
    intro s hs
    rw [hpending] at hs
    obtain ⟨r, -, rfl⟩ := List.mem_map.mp (List.mem_filter.mp hs).1
    have hb := w.frames.stop.toNat_lt
    simp only [clamp]
    unfold Addr.page pageSize
    omega
  have hdisjoint : l.pending.Pairwise fun s s' => ∀ p ∈ s, p ∉ s' := by
    rw [hpending]
    refine .filter _ (List.pairwise_map.mpr ((pairwise_available ht).imp ?_))
    exact fun hrr p hp hp' => hrr p (mem_clamp.mp hp).1 (mem_clamp.mp hp').1
  unfold waiting
  rw [List.nodup_reverse, List.nodup_flatMap]
  refine ⟨fun s hs => nodup_framesOf (hlast s hs), hdisjoint.imp_of_mem ?_⟩
  intro s s' hs hs' hdis f hf hf'
  obtain ⟨p, hp, rfl⟩ := mem_framesOf.mp hf
  obtain ⟨q, hq, he⟩ := mem_framesOf.mp hf'
  have hbs := hlast s hs
  have hbs' := hlast s' hs'
  have hpq := congrArg Addr.toNat he
  have hp2 := hp.2
  have hq2 := hq.2
  unfold frameAt pageSize at *
  rw [Addr.toNat_ofNat (by omega), Addr.toNat_ofNat (by omega)] at hpq
  -- neither address wraps, so it is the same page
  obtain rfl : p = q := by omega
  exact hdis p hp hq

/-- **A new list keeps its frames**, whatever memory holds. -/
theorem freeFrames_new (h : new t w low = .ok l) (ht : t.Sound) {s : Store} (hs : s.frames = l) :
    FreeFrames s l.waiting := by
  obtain ⟨hmapped, hhead, hbuilt, hcount, -⟩ := new_eq h
  refine ⟨⟨[], ?_, ?_⟩, ?_, ?_, nodup_waiting h ht, ?_⟩ <;> rw [hs]
  · exact hhead
  · exact (List.append_nil _).symm
  · intro hb
    rw [hbuilt] at hb
    cases hb
  · intro f hf
    have hsup := isSupply_of_mem h hf
    rw [hmapped]
    refine ⟨hsup.aligned, hsup.ne_null, hsup.start, ?_⟩
    have := hsup.stop
    exact Nat.lt_of_lt_of_le (Nat.lt_add_of_pos_right (by decide)) this
  · rw [hcount]
    unfold waiting
    rw [List.length_reverse, length_flatMap_framesOf]

end FrameList

/-! ### Free frames and held frames -/

/-- The frames that the list `l` supplies are divided: `fs` are free in the store `s`, and `held` are not. -/
structure Divided (l : FrameList) (s : Store) (fs held : List PhysAddr) : Prop where
  free : FreeFrames s fs
  perm : (fs ++ held).Perm l.waiting
  nodup : (fs ++ held).Nodup
  frames : ∀ f ∈ held, IsFrame s.frames.mapped f
  mapped : s.frames.mapped = l.mapped

namespace Divided

variable {l : FrameList} {s s' : Store} {fs held : List PhysAddr}

lemma start {t : RegionTable} {w : Window} {low : PhysAddr} (hl : FrameList.new t w low = .ok l)
    (ht : t.Sound) (hs : s.frames = l) : Divided l s l.waiting [] where
  free := FrameList.freeFrames_new hl ht hs
  perm := by rw [List.append_nil]
  nodup := by
    rw [List.append_nil]
    exact FrameList.nodup_waiting hl ht
  frames := nofun
  mapped := congrArg _ hs

lemma not_free (h : Divided l s fs held) {f : PhysAddr} (hf : f ∈ held) : f ∉ fs :=
  fun hfs => (List.nodup_append.mp h.nodup).2.2 f hfs f hf rfl

lemma alloc (h : Divided l s fs held) {a : Option PhysAddr} (hs : FrameList.alloc s = .ok a s') :
    a = fs.head? ∧ Divided l s' fs.tail (a.toList ++ held) := by
  obtain ⟨rfl, hf, hk, -⟩ := (alloc_ends h.free).elim hs
  have hperm : (fs.tail ++ (fs.head?.toList ++ held)).Perm (fs ++ held) := by
    cases fs with
    | nil => exact .refl _
    | cons f fs => exact List.perm_middle
  refine ⟨rfl, hf, hperm.trans h.perm, hperm.nodup_iff.mpr h.nodup, fun f hm => ?_, hk.mapped.trans h.mapped⟩
  rw [hk.mapped]
  rcases List.mem_append.mp hm with hm | hm
  · exact h.free.frames f (List.mem_of_mem_head? (Option.mem_toList.mp hm))
  · exact h.frames f hm

lemma release (h : Divided l s fs held) {f : PhysAddr} (hf : f ∈ held) {r : Except FreeError Unit}
    (hs : FrameList.free f s = .ok r s') : r = .ok () ∧ Divided l s' (f :: fs) (held.erase f) := by
  obtain ⟨rfl, hfree, hk⟩ := (free_ends h.free (h.frames f hf) (h.not_free hf)).elim hs
  have hperm : (f :: fs ++ held.erase f).Perm (fs ++ held) :=
    List.perm_middle.symm.trans (List.Perm.append_left fs (List.perm_cons_erase hf).symm)
  refine ⟨rfl, hfree, hperm.trans h.perm, hperm.nodup_iff.mpr h.nodup, fun g hg => ?_, hk.mapped.trans h.mapped⟩
  rw [hk.mapped]
  exact h.frames g (List.mem_of_mem_erase hg)

lemma refused (h : Divided l s fs held) {f : PhysAddr} {e : FreeError} (hs : FrameList.free f s = .ok (.error e) s') :
    Divided l s' fs held := by
  rw [free_of_refusal (refusal_of_free hs)] at hs
  cases hs
  exact { h with free := h.free.congr rfl fun _ _ => rfl }

lemma write (h : Divided l s fs held) {ram : Ram}
    (hw : ∀ f ∈ fs, f ∉ s.frames.waiting → ram.slot f 0 = s.ram.slot f 0) : Divided l { s with ram := ram } fs held :=
  { h with free := h.free.congr_linked rfl hw }

end Divided

/-! ### Runs -/

/-- A store after a run of allocations and frees on a list that began as `l`, and the frames that are held: those
that were allocated and not freed since. Between them, memory outside of the free frames can change in any
way. -/
inductive Supply (l : FrameList) : Store → List PhysAddr → Prop where
  | start {s : Store} (frames : s.frames = l) : Supply l s []
  | alloc {s s' : Store} {held : List PhysAddr} {a : Option PhysAddr} (run : Supply l s held)
      (step : FrameList.alloc s = .ok a s') : Supply l s' (a.toList ++ held)
  | free {s s' : Store} {held : List PhysAddr} {f : PhysAddr} {r : Except FreeError Unit} (run : Supply l s held)
      (mem : f ∈ held) (step : FrameList.free f s = .ok r s') : Supply l s' (held.erase f)
  | write {s : Store} {held : List PhysAddr} {ram : Ram} (run : Supply l s held)
      (free : ∀ f ∈ l.waiting, f ∉ held → ram.slot f 0 = s.ram.slot f 0) : Supply l { s with ram := ram } held

/-- **Each frame is free or held**, and never both. -/
theorem Supply.divided {t : RegionTable} {w : Window} {low : PhysAddr} {l : FrameList}
    (hl : FrameList.new t w low = .ok l) (ht : t.Sound) {s : Store} {held : List PhysAddr}
    (h : Supply l s held) : ∃ fs, Divided l s fs held := by
  induction h with
  | start hs => exact ⟨_, .start hl ht hs⟩
  | alloc run step ih =>
    obtain ⟨fs, hd⟩ := ih
    exact ⟨_, (hd.alloc step).2⟩
  | free run hmem step ih =>
    obtain ⟨fs, hd⟩ := ih
    exact ⟨_, (hd.release hmem step).2⟩
  | write run hw ih =>
    obtain ⟨fs, hd⟩ := ih
    refine ⟨fs, hd.write fun f hf _ => hw f ?_ fun hheld => hd.not_free hheld hf⟩
    exact hd.perm.mem_iff.mp (List.mem_append_left _ hf)

/-- **Allocation in a run** ends, and what it hands out is a whole available page that nobody holds. -/
theorem Supply.alloc_ends {t : RegionTable} {w : Window} {low : PhysAddr} {l : FrameList}
    (hl : FrameList.new t w low = .ok l) (ht : t.Sound) {s : Store} {held : List PhysAddr}
    (h : Supply l s held) : Ends FrameList.alloc s fun a _ => ∀ f, a = some f → IsSupply t w.frames low f ∧ f ∉ held := by
  obtain ⟨fs, hd⟩ := h.divided hl ht
  refine (Memory.alloc_ends hd.free).mono ?_
  rintro _ _ ⟨rfl, -⟩ f hf
  have hmem : f ∈ fs := List.mem_of_mem_head? hf
  refine ⟨FrameList.isSupply_of_mem hl (hd.perm.mem_iff.mp (List.mem_append_left _ hmem)), fun hheld => ?_⟩
  exact hd.not_free hheld hmem

end Nucleus.Memory
