import Mathlib.Tactic.Common
import Nucleus.Address

/-!
Ranges of addresses and the addresses in them. A range is empty if no address lies in it, and the intersection of two
ranges is what they have in common. That two ranges overlap says the same unless one of them is empty: an empty range
overlaps every range that goes on around its start.
-/

namespace Nucleus.AddrRange

variable {space : Space} {r s : AddrRange space} {x : Addr space}

/-- The ranges that are made of a start and a length, or of two bounds. -/
inductive Built : AddrRange space → Prop
  | new {start : Addr space} {length : UInt64} {r : AddrRange space} (fits : new start length = .ok r) : Built r
  | ofBounds (start stop : Addr space) : Built (.ofBounds start stop)

lemma start_le_stop_of_new {start : Addr space} {length : UInt64} (h : new start length = .ok r) :
    r.start ≤ r.stop := by
  unfold new Addr.add at h
  cases hsum : Word.add start.word length with
  | error e =>
    rw [hsum] at h
    cases h
  | ok w =>
    rw [hsum] at h
    cases h
    have hw : w.toNat = start.word.toNat + length.toNat := Word.toNat_add hsum
    show start.word.toNat ≤ w.toNat
    omega

lemma Built.start_le_stop (h : r.Built) : r.start ≤ r.stop := by
  cases h with
  | new fits => exact start_le_stop_of_new fits
  | ofBounds start stop =>
    unfold AddrRange.ofBounds
    dsimp only
    split
    · exact Nat.le_refl _
    · next hle => exact Nat.le_of_not_lt hle

/-! ### Common addresses -/

lemma isEmpty_iff : r.IsEmpty ↔ ∀ x, x ∉ r := by
  constructor
  · intro hempty x hx
    simp only [IsEmpty, mem_def, Addr.le_def, Addr.lt_def] at hempty hx
    omega
  · intro hnone
    have hstart := hnone r.start
    simp only [IsEmpty, mem_def, Addr.le_def, Addr.lt_def] at hstart ⊢
    omega

lemma intersection_eq_some_iff {u : AddrRange space} : r.intersection s = some u ↔
    max r.start s.start < min r.stop s.stop ∧ u = ⟨max r.start s.start, min r.stop s.stop⟩ := by
  unfold intersection
  dsimp only
  split <;> simp [*, eq_comm]

/-- **The intersection** is what two ranges have in common, and it is not empty. -/
lemma mem_intersection {u : AddrRange space} (h : r.intersection s = some u) :
    ¬ u.IsEmpty ∧ ∀ x, x ∈ u ↔ x ∈ r ∧ x ∈ s := by
  obtain ⟨hlt, rfl⟩ := intersection_eq_some_iff.mp h
  rw [Addr.lt_def, Addr.toNat_max, Addr.toNat_min] at hlt
  refine ⟨fun hempty => ?_, fun x => ?_⟩
  · simp only [IsEmpty, Addr.le_def, Addr.toNat_max, Addr.toNat_min] at hempty
    omega
  · simp only [mem_def, Addr.le_def, Addr.lt_def, Addr.toNat_max, Addr.toNat_min]
    omega

lemma isSome_intersection : (r.intersection s).isSome ↔ ∃ x, x ∈ r ∧ x ∈ s := by
  rw [Option.isSome_iff_exists]
  constructor
  · rintro ⟨u, hu⟩
    obtain ⟨hproper, hmem⟩ := mem_intersection hu
    rw [isEmpty_iff] at hproper
    push Not at hproper
    obtain ⟨x, hx⟩ := hproper
    exact ⟨x, (hmem x).mp hx⟩
  · rintro ⟨x, hr, hs⟩
    refine ⟨_, intersection_eq_some_iff.mpr ⟨?_, rfl⟩⟩
    simp only [mem_def, Addr.le_def, Addr.lt_def, Addr.toNat_max, Addr.toNat_min] at hr hs ⊢
    omega

/-! ### Overlaps -/

/-- `r` is empty, and `s` goes on around its start. -/
def LiesEmptyIn (r s : AddrRange space) : Prop := r.IsEmpty ∧ s.start < r.start ∧ r.start < s.stop

lemma overlaps_comm : r.Overlaps s ↔ s.Overlaps r := and_comm

/-- Ranges that are not inverted overlap where they have an address in common, or one of them lies in the other without
having any. -/
lemma overlaps_iff (hr : r.start ≤ r.stop) (hs : s.start ≤ s.stop) :
    r.Overlaps s ↔ (∃ x, x ∈ r ∧ x ∈ s) ∨ r.LiesEmptyIn s ∨ s.LiesEmptyIn r := by
  have hcommon : (∃ x, x ∈ r ∧ x ∈ s) ↔ max r.start s.start < min r.stop s.stop := by
    rw [← isSome_intersection, Option.isSome_iff_exists]
    simp only [intersection_eq_some_iff, exists_and_left, exists_eq, and_true]
  rw [hcommon]
  simp only [Overlaps, LiesEmptyIn, IsEmpty, Addr.le_def, Addr.lt_def, Addr.toNat_max, Addr.toNat_min] at hr hs ⊢
  omega

/-- **The relations of ranges agree unless one range is empty.** An empty range is one without addresses. Two built
ranges have an intersection iff there is an address in both, and then it is not empty and consists of the addresses in
both. Overlapping is symmetric, and it means that there is an address in both, or that one of the ranges is empty and
starts inside of the other one. -/
theorem overlaps_agree_unless_empty (hr : r.Built) (hs : s.Built) :
    (r.Overlaps s ↔ s.Overlaps r) ∧
    ((r.intersection s).isSome ↔ ∃ x, x ∈ r ∧ x ∈ s) ∧
    (∀ u, r.intersection s = some u → ¬ u.IsEmpty ∧ ∀ x, x ∈ u ↔ x ∈ r ∧ x ∈ s) ∧
    (r.IsEmpty ↔ ∀ x, x ∉ r) ∧
    (r.Overlaps s ↔ (∃ x, x ∈ r ∧ x ∈ s) ∨ r.LiesEmptyIn s ∨ s.LiesEmptyIn r) ∧
    (¬ r.IsEmpty → ¬ s.IsEmpty → (r.Overlaps s ↔ ∃ x, x ∈ r ∧ x ∈ s)) := by
  have hoverlaps := overlaps_iff hr.start_le_stop hs.start_le_stop
  refine ⟨overlaps_comm, isSome_intersection, fun u => mem_intersection, isEmpty_iff, hoverlaps, fun hrne hsne => ?_⟩
  rw [hoverlaps]
  constructor
  · rintro (hcommon | hempty | hempty)
    · exact hcommon
    · exact absurd hempty.1 hrne
    · exact absurd hempty.1 hsne
  · exact .inl

/-- Two ranges that share a page overlap, and their intersection is this page. -/
theorem overlaps_agree_unless_empty_one_page : ∃ r s : PhysRange, r = .ofBounds ⟨0x1000⟩ ⟨0x5000⟩ ∧
    new ⟨0x4000⟩ 0x5000 = .ok s ∧ r.Overlaps s ∧ r.intersection s = some ⟨⟨0x4000⟩, ⟨0x5000⟩⟩ ∧
    ∀ x : PhysAddr, x ∈ (⟨⟨0x4000⟩, ⟨0x5000⟩⟩ : PhysRange) ↔ x ∈ r ∧ x ∈ s := by
  have hs : new (⟨0x4000⟩ : PhysAddr) 0x5000 = .ok ⟨⟨0x4000⟩, ⟨0x9000⟩⟩ := by decide
  have hinter : (ofBounds ⟨0x1000⟩ ⟨0x5000⟩ : PhysRange).intersection ⟨⟨0x4000⟩, ⟨0x9000⟩⟩ =
      some ⟨⟨0x4000⟩, ⟨0x5000⟩⟩ := by decide
  obtain ⟨-, hsome, hmem, -, -, hproper⟩ := overlaps_agree_unless_empty (.ofBounds ⟨0x1000⟩ ⟨0x5000⟩) (.new hs)
  refine ⟨_, _, rfl, hs, ?_, hinter, (hmem _ hinter).2⟩
  exact (hproper (by decide) (by decide)).mpr (hsome.mp (hinter ▸ rfl))

/-- An empty range overlaps the range around it, although they have no address in common and no intersection. Inverted
bounds make such a range as well. -/
theorem empty_range_overlaps : ∃ r s : VirtRange, r = .ofBounds ⟨0x1000⟩ ⟨0x5000⟩ ∧ s = .ofBounds ⟨0x2000⟩ ⟨0x1000⟩ ∧
    s.IsEmpty ∧ r.Overlaps s ∧ s.Overlaps r ∧ r.intersection s = none ∧ ¬ ∃ x, x ∈ r ∧ x ∈ s := by
  refine ⟨_, _, rfl, rfl, by decide, by decide, by decide, by decide, ?_⟩
  rw [← isSome_intersection]
  decide

end Nucleus.AddrRange
