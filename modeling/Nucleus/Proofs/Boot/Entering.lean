import Nucleus.Proofs.Boot.Supply
import Nucleus.Proofs.Memory.Words

/-!
The table of regions while memory maps are entered. Nothing is reserved yet, so the total counts the free pages,
and there are never too many of them to be counted: entering a memory map ends without a fault.
-/

namespace Nucleus.Boot

open Memory

/-- The table is in shape and balanced, and nothing is reserved yet. -/
structure Entering (t : RegionTable) : Prop where
  inShape : t.InShape
  balanced : t.Balanced
  reserved : t.reservedPages = 0

lemma entering_empty : Entering .empty := ⟨RegionTable.inShape_empty, RegionTable.balanced_empty, rfl⟩

variable {t : RegionTable}

lemma Entering.counted (h : Entering t) : t.Counted := by
  refine ⟨h.inShape, h.balanced, ?_⟩
  have hfree := (h.balanced.sound h.inShape).freePages_le h.inShape
  have htotal := h.balanced.total
  have hreserved := h.reserved
  omega

lemma reserved_addUnavailable (t : RegionTable) (base length : UInt64) (kind : RegionKind) :
    (t.addUnavailable base length kind).table.reservedPages = t.reservedPages := by
  have hr := t.addUnavailable_records base length kind
  generalize t.addUnavailable base length kind = c at hr
  cases hr <;> rfl

/-- **An entry never ends with a fault** as long as nothing is reserved. -/
lemma Entering.enter (h : Entering t) (e : MapEntry) :
    ∃ a, (enter t e).answer = .ok a ∧ Entering (enter t e).table := by
  by_cases he : e.Available
  · rw [enter_of_available t he]
    obtain ⟨a, ha⟩ := t.fill_ok h.balanced h.inShape h.reserved (RegionTable.last_within_le e.base e.length)
      (Span.within e.base e.length).first false
    refine ⟨a, ha, h.inShape.addAvailable ha, h.balanced.addAvailable ha, ?_⟩
    exact RegionTable.fill_keeps (P := fun u => u.reservedPages = 0) (fun hg hr => hg.reserved_eq.trans hr) h.reserved ha
  · obtain ⟨hk, henter⟩ := enter_of_unusable t he
    rw [henter]
    obtain ⟨a, ha⟩ := h.balanced.addUnavailable_ok h.inShape h.counted.inWords e.base e.length e.type.regionKind
    refine ⟨a, ha, h.inShape.addUnavailable .., h.balanced.addUnavailable h.inShape hk ha, ?_⟩
    rw [reserved_addUnavailable, h.reserved]

namespace Progress

variable {p : Progress}

lemma enter_ok (h : Entering p.regions) (e : MapEntry) : ∃ q, p.enter e = .ok q ∧ Entering q.regions := by
  obtain ⟨a, ha, ht⟩ := h.enter e
  unfold enter
  simp only [ha]
  exact ⟨_, rfl, ht⟩

lemma entering_of_enter {q : Progress} {e : MapEntry} (h : Entering p.regions) (he : p.enter e = .ok q) :
    Entering q.regions := by
  obtain ⟨a, -, ht⟩ := h.enter e
  exact regions_enter he ▸ ht

lemma enterAll_ok (h : Entering p.regions) (es : List MapEntry) : ∃ q, p.enterAll es = .ok q ∧ Entering q.regions := by
  induction es generalizing p with
  | nil => exact ⟨p, rfl, h⟩
  | cons e es ih =>
    obtain ⟨p₁, hp₁, h₁⟩ := enter_ok h e
    obtain ⟨q, hq, hq'⟩ := ih h₁
    exact ⟨q, checked_bind_eq_ok.mpr ⟨p₁, hp₁, hq⟩, hq'⟩

lemma tag_ok (h : Entering p.regions) (t : Tag) : ∃ q, p.tag t = .ok q ∧ Entering q.regions := by
  cases t with
  | memoryMap m => exact enterAll_ok h m.entries
  | _ => exact ⟨_, rfl, h⟩

/-- **Entering memory maps** ends without a fault. -/
lemma tags_ok (h : Entering p.regions) (ts : List Tag) : ∃ q, p.tags ts = .ok q ∧ Entering q.regions := by
  induction ts generalizing p with
  | nil => exact ⟨p, rfl, h⟩
  | cons t ts ih =>
    obtain ⟨p₁, hp₁, h₁⟩ := tag_ok h t
    obtain ⟨q, hq, hq'⟩ := ih h₁
    exact ⟨q, checked_bind_eq_ok.mpr ⟨p₁, hp₁, hq⟩, hq'⟩

end Progress

end Nucleus.Boot
