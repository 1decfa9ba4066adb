import Mathlib.Data.List.Sort
import Nucleus.Proofs.Memory.Supply

/-!
The free list behaves like a stack. It begins with the frames of the available regions inside of the limits, in the
order of the table and of their addresses, the last of them on top. Allocation takes the top off the stack and fills
it with zeros, freeing pushes a frame, and the links that carry all this lie in the frames of the stack only.
-/

namespace Nucleus.Memory

/-! ### The frames of a new list in order -/

/-- The frame of the page `p` can be handed out: it is reachable as a whole, and neither below the limit nor the
first one. -/
def Usable (mapped : PhysRange) (low : PhysAddr) (p : Nat) : Prop :=
  0 < p ∧ low.toNat ≤ pageSize * p ∧ mapped.start.toNat ≤ pageSize * p ∧ pageSize * (p + 1) ≤ mapped.stop.toNat

instance (mapped : PhysRange) (low : PhysAddr) (p : Nat) : Decidable (Usable mapped low p) :=
  inferInstanceAs (Decidable (_ ∧ _))

/-- The frames of the available regions that can be handed out, in the order of the table and of the addresses. -/
def supplyOf (t : RegionTable) (mapped : PhysRange) (low : PhysAddr) : List PhysAddr :=
  t.available.flatMap fun r => ((List.range' r.span.first r.span.pages).filter (Usable mapped low ·)).map frameAt

namespace FrameList

lemma range'_clamp (first last : Nat) (s : Span) :
    List.range' (clamp first last s).first (clamp first last s).pages =
      (List.range' s.first s.pages).filter fun p => first ≤ p ∧ p < last := by
  have hsorted : ∀ a n : Nat, (List.range' a n).SortedLT := fun a n => List.sortedLT_range' a n (by decide)
  refine (hsorted _ _).eq_of_mem_iff ((hsorted _ _).pairwise.filter _).sortedLT fun p => ?_
  rw [List.mem_filter, List.mem_range'_1, List.mem_range'_1, decide_eq_true_eq]
  unfold Span.pages clamp
  dsimp only
  omega

/-- The pages between the bounds of a new list are the usable ones. -/
lemma usable_iff {mapped : PhysRange} {low : PhysAddr} {p : Nat} :
    Usable mapped low p ↔
      max (max (Span.pagesUp low.toNat) 1) (Span.pagesUp mapped.start.toNat) ≤ p ∧ p < mapped.stop.page := by
  unfold Usable Span.pagesUp Addr.page pageSize
  omega

variable {t : RegionTable} {w : Window} {low : PhysAddr}

/-- **A new list** can be made unless rounding its limits overflows. The frames that wait on it are the supply, the
last of them on top. -/
lemma new_ok (hl : low.toNat + (pageSize - 1) < 2 ^ 64) (hs : w.frames.start.toNat + (pageSize - 1) < 2 ^ 64) :
    ∃ l, new t w low = .ok l ∧ l.waiting = (supplyOf t w.frames low).reverse := by
  obtain ⟨lo, hlo⟩ : ∃ lo, low.pageAbove = .ok lo := Addr.pageAbove_ok hl
  obtain ⟨st, hst⟩ : ∃ st, w.frames.start.pageAbove = .ok st := Addr.pageAbove_ok hs
  unfold new
  rw [hlo, hst]
  show ∃ l, (if t.available = [] then Except.ok _ else Except.ok _) = Except.ok l ∧ _
  by_cases ha : t.available = []
  · rw [if_pos ha]
    refine ⟨_, rfl, ?_⟩
    unfold supplyOf
    rw [ha]
    rfl
  rw [if_neg ha]
  refine ⟨_, rfl, congrArg List.reverse ?_⟩
  rw [Addr.page_pageAbove hlo, Addr.page_pageAbove hst]
  unfold supplyOf
  generalize t.available = rs
  induction rs with
  | nil => rfl
  | cons r rs ih =>
    have hhead : framesOf (clamp (max (max (Span.pagesUp low.toNat) 1) (Span.pagesUp w.frames.start.toNat))
        w.frames.stop.page r.span) =
          ((List.range' r.span.first r.span.pages).filter (Usable w.frames low ·)).map frameAt := by
      unfold framesOf
      rw [range'_clamp]
      simp only [usable_iff]
      rfl
    rw [List.flatMap_cons, ← hhead, ← ih, List.map_cons, List.filter_cons]
    split
    · rw [List.flatMap_cons]
    · next he =>
      -- an empty span is left out, and has no frames
      have hempty : (clamp (max (max (Span.pagesUp low.toNat) 1) (Span.pagesUp w.frames.start.toNat))
          w.frames.stop.page r.span).pages = 0 := by
        simp only [decide_not, Bool.not_eq_true, Bool.not_eq_false', decide_eq_true_eq] at he
        exact Nat.sub_eq_zero_of_le he
      unfold framesOf
      rw [hempty]
      rfl

end FrameList

/-! ### The window -/

namespace DirectMapping

variable {window : VirtAddr} {physical : PhysAddr} {size : UInt64} {m : DirectMapping}

lemma new_eq (h : new window physical size = .ok m) :
    m.window = window ∧ m.frames.start = physical ∧ m.frames.stop.toNat = physical.toNat + size.toNat := by
  unfold new AddrRange.new Addr.add at h
  cases hsum : Word.add physical.word size with
  | error e =>
    rw [hsum] at h
    cases h
  | ok stop =>
    rw [hsum] at h
    cases h
    exact ⟨rfl, rfl, Word.toNat_add hsum⟩

/-- A new mapping is a window unless it leaves the address space. -/
lemma fits_of_new (h : new window physical size = .ok m) (hw : window.toNat + size.toNat ≤ 2 ^ 64) :
    m.window.toNat + (m.frames.stop.toNat - m.frames.start.toNat) ≤ 2 ^ 64 := by
  obtain ⟨hwindow, hstart, hstop⟩ := new_eq h
  rw [hwindow, hstart, hstop]
  omega

end DirectMapping

/-! ### Runs -/

/-- A store after a run of allocations and frees on a list that began as `l`, and what the same operations make of a
stack that began as `initial`, the top first. Frames that were allocated and not freed since are `held`; only those
are freed, apart from attempts that are refused. Memory outside of the links can change between the operations. -/
inductive StackRun (l : FrameList) (initial : List PhysAddr) : Store → List PhysAddr → List PhysAddr → Prop where
  | start {s : Store} (frames : s.frames = l) : StackRun l initial s initial []
  | alloc {s s' : Store} {stack held : List PhysAddr} {a : Option PhysAddr} (run : StackRun l initial s stack held)
      (step : FrameList.alloc s = .ok a s') : StackRun l initial s' stack.tail (a.toList ++ held)
  | free {s s' : Store} {stack held : List PhysAddr} {f : PhysAddr} {r : Except FreeError Unit}
      (run : StackRun l initial s stack held) (mem : f ∈ held) (step : FrameList.free f s = .ok r s') :
      StackRun l initial s' (f :: stack) (held.erase f)
  | refused {s s' : Store} {stack held : List PhysAddr} {f : PhysAddr} {e : FreeError}
      (run : StackRun l initial s stack held) (step : FrameList.free f s = .ok (.error e) s') :
      StackRun l initial s' stack held
  | write {s : Store} {stack held : List PhysAddr} {ram : Ram} (run : StackRun l initial s stack held)
      (links : ∀ f ∈ stack, f ∉ s.frames.waiting → ram.slot f 0 = s.ram.slot f 0) :
      StackRun l initial { s with ram := ram } stack held

lemma StackRun.divided {t : RegionTable} {w : Window} {low : PhysAddr} {l : FrameList}
    (hl : FrameList.new t w low = .ok l) (ht : t.Sound) {s : Store} {stack held : List PhysAddr}
    (h : StackRun l l.waiting s stack held) : Divided l s stack held := by
  induction h with
  | start hs => exact .start hl ht hs
  | alloc _ step ih => exact (ih.alloc step).2
  | free _ mem step ih => exact (ih.release mem step).2
  | refused _ step ih => exact ih.refused step
  | write _ links ih => exact ih.write links

/-- The free list in the store `s` behaves like the stack `stack`, the top first, while the frames `held` are held. -/
structure ActsAsStack (m : DirectMapping) (s : Store) (stack held : List PhysAddr) : Prop where
  count : s.frames.count = stack.length
  visible : ∀ f ∈ stack ++ held, ∃ v, m.visible f = .ok v
  alloc : Ends FrameList.alloc s fun a s' => a = stack.head? ∧ Ram.SameBytesOutside stack s.ram s'.ram ∧
    ∀ f, a = some f → ∀ x, f.toNat ≤ x → x < f.toNat + pageSize → s'.ram.byte x = 0
  free : ∀ f ∈ held, Ends (FrameList.free f) s fun r s' =>
    r = .ok () ∧ Ram.SameBytesOutside (f :: stack) s.ram s'.ram
  refuses : ∀ f, f = .null ∨ ¬ f.PageAligned ∨ f ∉ m.frames → ∃ e s', FrameList.free f s = .ok (.error e) s'
  refused : ∀ f e s', FrameList.free f s = .ok (.error e) s' → s'.ram = s.ram ∧ s'.frames = s.frames

lemma FrameList.refusal_of_bad {l : FrameList} {f : PhysAddr} (h : f = .null ∨ ¬ f.PageAligned ∨ f ∉ l.mapped) :
    ∃ e, l.refusal? f = some e := by
  unfold refusal?
  by_cases hnull : f = .null
  · exact ⟨_, if_pos hnull⟩
  rw [if_neg hnull]
  by_cases ha : f.PageAligned
  · rw [if_neg (not_not.mpr ha), if_pos ((h.resolve_left hnull).resolve_left (not_not.mpr ha))]
    exact ⟨_, rfl⟩
  · exact ⟨_, if_pos ha⟩

/-- A list whose free frames are those of a stack behaves like it. -/
lemma Divided.actsAsStack {l : FrameList} {s : Store} {stack held : List PhysAddr} (h : Divided l s stack held)
    {w : Window} (hw : w.frames = l.mapped) : ActsAsStack w.toDirectMapping s stack held := by
  have hmapped : w.frames = s.frames.mapped := hw.trans h.mapped.symm
  refine ⟨h.free.count, fun f hf => ⟨_, Window.visible_of_mem (w := w) ?_⟩, ?_, fun f hf => ?_, fun f hf => ?_, fun f e s' hs => ?_⟩
  · rw [hmapped]
    rcases List.mem_append.mp hf with hf | hf
    · exact (h.free.frames f hf).mem
    · exact (h.frames f hf).mem
  · refine (alloc_ends h.free).mono ?_
    rintro a s' ⟨ha, -, hk, hz⟩
    refine ⟨ha, hk.ram.bytes h.free.aligned, fun f hf x hx hx' => ?_⟩
    have hfs : f ∈ stack := List.mem_of_mem_head? (ha ▸ hf)
    exact Ram.byte_of_zeroed (h.free.aligned f hfs) (hz f hf) hx hx'
  · refine (free_ends h.free (h.frames f hf) (h.not_free hf)).mono ?_
    rintro r s' ⟨hr, hfree, hk⟩
    exact ⟨hr, hk.ram.bytes hfree.aligned⟩
  · obtain ⟨e, he⟩ := FrameList.refusal_of_bad (hmapped ▸ hf)
    exact ⟨e, _, free_of_refusal he⟩
  · rw [free_of_refusal (refusal_of_free hs)] at hs
    cases hs
    exact ⟨rfl, rfl⟩

/-- **The free list refines a stack.** For every table of regions and every direct mapping a list can be made, and
whatever is allocated, freed and refused, it behaves like the stack that begins with the supply. -/
theorem free_list_refines_stack {t : RegionTable} {window : VirtAddr} {physical low : PhysAddr} {size : UInt64}
    {m : DirectMapping} (built : t.Built) (mapping : DirectMapping.new window physical size = .ok m)
    (visible : window.toNat + size.toNat ≤ 2 ^ 64) (start : physical.toNat + (pageSize - 1) < 2 ^ 64)
    (limit : low.toNat + (pageSize - 1) < 2 ^ 64) :
    ∃ (w : Window) (l : FrameList), w.toDirectMapping = m ∧ FrameList.new t w low = .ok l ∧ ∀ s stack held,
      StackRun l (supplyOf t m.frames low).reverse s stack held → ActsAsStack m s stack held := by
  obtain ⟨-, hstart, -⟩ := DirectMapping.new_eq mapping
  let w : Window := ⟨m, DirectMapping.fits_of_new mapping visible⟩
  have hlow : w.frames.start.toNat + (pageSize - 1) < 2 ^ 64 := hstart ▸ start
  obtain ⟨l, hl, hwaiting⟩ := FrameList.new_ok (t := t) limit hlow
  refine ⟨w, l, rfl, hl, fun s stack held hrun => ?_⟩
  have hrun' : StackRun l l.waiting s stack held := hwaiting ▸ hrun
  exact (hrun'.divided hl built.sound).actsAsStack (w := w) (FrameList.new_eq hl).1.symm

/-- Of two frames the upper one is handed out first. -/
theorem free_list_refines_stack_two_frames : ∃ l s',
    FrameList.new (RegionTable.empty.addAvailable 0x2000 0x2000).table (.identity ⟨⟨0⟩, ⟨0x8000⟩⟩) ⟨0⟩ = .ok l ∧
      FrameList.alloc ⟨.ofBackground fun _ => 7, l, #[]⟩ = .ok (some ⟨0x3000⟩) s' ∧
        ∀ x, 0x3000 ≤ x → x < 0x4000 → s'.ram.byte x = 0 := by
  have hmapping : DirectMapping.new ⟨0⟩ ⟨0⟩ 0x8000 = .ok ⟨⟨⟨0⟩, ⟨0x8000⟩⟩, ⟨0⟩⟩ := rfl
  have hlimit : (⟨0⟩ : PhysAddr).toNat + (pageSize - 1) < 2 ^ 64 := by decide
  obtain ⟨w, l, hw, hl, hstack⟩ :=
    free_list_refines_stack (.addAvailable .empty 0x2000 0x2000) hmapping (by decide) (by decide) hlimit
  have hsupply : supplyOf (RegionTable.empty.addAvailable 0x2000 0x2000).table ⟨⟨0⟩, ⟨0x8000⟩⟩ ⟨0⟩ =
      [⟨0x2000⟩, ⟨0x3000⟩] := by decide +kernel
  obtain ⟨a, s', hrun, ha, -, hzero⟩ :=
    (hstack ⟨.ofBackground fun _ => 7, l, #[]⟩ _ _ (.start rfl)).alloc
  rw [hsupply] at ha
  obtain rfl : a = some ⟨0x3000⟩ := ha
  obtain rfl : w = .identity ⟨⟨0⟩, ⟨0x8000⟩⟩ := by
    cases w
    cases hw
    rfl
  exact ⟨l, s', hl, hrun, fun x hx hx' => hzero _ rfl x hx hx'⟩

end Nucleus.Memory
