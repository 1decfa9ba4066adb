import Mathlib.Tactic.Common
import Nucleus.Memory.Regions
import Nucleus.Proofs.Memory.Page

/-!
What carving leaves of the regions of a table, and what entering unusable memory does to it, case by case. All
that is said about these operations elsewhere, which pages they take and how many, follows from the cases of
`Leaves` and of `Records`.
-/

namespace Nucleus.Memory.RegionTable

variable {cut : Span} {keep : Bool} {slots : Nat}

/-- What carving `cut` leaves of the region `r`: the region in its place, the piece cut off behind, the number of
pages lost, and the notices. `room` tells whether there is a slot for a piece. -/
inductive Leaves (cut : Span) (keep : Bool) (room : Prop) (r : Region) :
    List Region → List Region → Nat → List RegionNotice → Prop
  | apart (away : ¬ (r.Available ∧ cut.Meets r.span)) : Leaves cut keep room r [r] [] 0 []
  | retyped (available : r.Available) (first : cut.first ≤ r.span.first) (last : r.span.last ≤ cut.last)
      (keeps : keep = true) : Leaves cut keep room r [⟨r.span, .reserved⟩] [] r.span.pages []
  | dropped (available : r.Available) (first : cut.first ≤ r.span.first) (last : r.span.last ≤ cut.last)
      (drops : keep = false) : Leaves cut keep room r [] [] r.span.pages []
  | rear (available : r.Available) (first : cut.first ≤ r.span.first) (meets : r.span.first < cut.last)
      (last : cut.last < r.span.last) :
      Leaves cut keep room r [⟨⟨cut.last, r.span.last⟩, .available⟩] [] (cut.last - r.span.first) []
  | front (available : r.Available) (first : r.span.first < cut.first) (meets : cut.first < r.span.last)
      (last : r.span.last ≤ cut.last) :
      Leaves cut keep room r [⟨⟨r.span.first, cut.first⟩, .available⟩] [] (r.span.last - cut.first) []
  | split (available : r.Available) (first : r.span.first < cut.first) (last : cut.last < r.span.last)
      (free : room) :
      Leaves cut keep room r [⟨⟨r.span.first, cut.first⟩, .available⟩] [⟨⟨cut.last, r.span.last⟩, .available⟩]
        cut.pages []
  | givenUp (available : r.Available) (first : r.span.first < cut.first) (last : cut.last < r.span.last)
      (crowded : ¬ room) : Leaves cut keep room r [⟨r.span, .reserved⟩] [] r.span.pages [.unsplittable r.span]

/-- The state of a carving after one more region, of which `ks` and `ps` are left. -/
def Carving.extend (c : Carving) (ks ps : List Region) (n : Nat) (ns : List RegionNotice) : Carving :=
  ⟨c.kept ++ ks, c.pieces ++ ps, c.lost + n, c.notices ++ ns⟩

/-- **A step of a carving** leaves of the region what one of the cases says. -/
lemma Carving.step_leaves (hcut : cut.first < cut.last) {r : Region} (hr : r.span.first < r.span.last) (c : Carving) :
    ∃ ks ps n ns, Leaves cut keep (slots + c.pieces.length < regionCapacity) r ks ps n ns ∧
      step cut keep slots c r = c.extend ks ps n ns := by
  obtain ⟨x, y⟩ := cut
  obtain ⟨⟨a, b⟩, kind⟩ := r
  dsimp only at hcut hr
  by_cases h : (⟨⟨a, b⟩, kind⟩ : Region).Available ∧ Span.Meets ⟨x, y⟩ ⟨a, b⟩
  · obtain ⟨rfl, hxb, hay⟩ := h
    dsimp only at hxb hay
    obtain ⟨u, v, hmeet, hu, hv⟩ : ∃ u v, Span.meet ⟨x, y⟩ ⟨a, b⟩ = ⟨u, v⟩ ∧ u = max x a ∧ v = min y b :=
      ⟨_, _, rfl, rfl, rfl⟩
    unfold step
    rw [if_pos ⟨rfl, hxb, hay⟩]
    dsimp only
    rw [hmeet]
    by_cases hcover : (⟨u, v⟩ : Span) = ⟨a, b⟩
    · -- the cut takes the whole region
      rw [if_pos hcover]
      obtain ⟨rfl, rfl⟩ := Span.mk.inj hcover
      cases keep with
      | true => exact ⟨_, _, _, _, .retyped rfl (by dsimp only; omega) (by dsimp only; omega) rfl, by simp [extend]⟩
      | false => exact ⟨_, _, _, _, .dropped rfl (by dsimp only; omega) (by dsimp only; omega) rfl, by simp [extend]⟩
    rw [if_neg hcover]
    rw [Span.mk.injEq] at hcover
    by_cases hfirst : u = a
    · -- it takes the front
      obtain rfl : v = y := by omega
      rw [if_pos hfirst, hfirst]
      exact ⟨_, _, _, _, .rear rfl (by dsimp only; omega) hay (by dsimp only; omega), by simp [extend, Span.pages]⟩
    rw [if_neg hfirst]
    obtain rfl : u = x := by omega
    by_cases hlast : v = b
    · -- it takes the rear
      rw [if_pos hlast, hlast]
      exact ⟨_, _, _, _, .front rfl (by dsimp only; omega) hxb (by dsimp only; omega), by simp [extend, Span.pages]⟩
    rw [if_neg hlast]
    obtain rfl : v = y := by omega
    by_cases hroom : slots + c.pieces.length < regionCapacity
    · -- it takes a middle part, so the region is split
      rw [if_pos hroom]
      exact ⟨_, _, _, _, .split rfl (by dsimp only; omega) (by dsimp only; omega) hroom, by simp [extend]⟩
    · rw [if_neg hroom]
      exact ⟨_, _, _, _, .givenUp rfl (by dsimp only; omega) (by dsimp only; omega) hroom, by simp [extend]⟩
  · refine ⟨_, _, _, _, .apart h, ?_⟩
    unfold step
    rw [if_neg h]
    simp [extend]

/-- The carving `c` has gone through the regions `rs`, in order. -/
inductive Carves (cut : Span) (keep : Bool) (slots : Nat) : List Region → Carving → Prop
  | nil : Carves cut keep slots [] ⟨[], [], 0, []⟩
  | snoc {rs : List Region} {c : Carving} {r : Region} {ks ps : List Region} {n : Nat} {ns : List RegionNotice}
      (carves : Carves cut keep slots rs c)
      (leaves : Leaves cut keep (slots + c.pieces.length < regionCapacity) r ks ps n ns) :
      Carves cut keep slots (rs ++ [r]) (c.extend ks ps n ns)

lemma Carves.foldl (hcut : cut.first < cut.last) {done rs : List Region} {c : Carving}
    (h : Carves cut keep slots done c) (hr : ∀ r ∈ rs, r.span.first < r.span.last) :
    Carves cut keep slots (done ++ rs) (rs.foldl (Carving.step cut keep slots) c) := by
  induction rs generalizing done c with
  | nil => rwa [List.append_nil]
  | cons r rs ih =>
    obtain ⟨ks, ps, n, ns, hleaves, hstep⟩ := Carving.step_leaves hcut
      (hr r (List.mem_cons_self ..)) c
    rw [List.foldl_cons, hstep, ← List.singleton_append, ← List.append_assoc]
    exact ih (h.snoc hleaves) fun s hs => hr s (List.mem_cons_of_mem _ hs)

/-- **Carving a table** goes through all of its regions. -/
lemma carve_carves {t : RegionTable} (hcut : cut.first < cut.last) (ht : ∀ r ∈ t.regions, r.span.first < r.span.last)
    (keep : Bool) : ∃ c, Carves cut keep t.regions.length t.regions c ∧
      t.carve cut keep = ⟨{ t with regions := c.kept ++ c.pieces }, c.notices, c.lost⟩ :=
  ⟨_, Carves.nil.foldl hcut ht, rfl⟩

/-! ### Entering unusable memory, and reserving -/

lemma not_mem_of_isEmpty {s : Span} (h : s.IsEmpty) (p : Nat) : p ∉ s :=
  fun hp => Nat.not_lt_of_le h (Nat.lt_of_le_of_lt hp.1 hp.2)

/-- What entering the pages of `s` as unusable memory does to the table `t`. -/
inductive Records (t : RegionTable) (s : Span) (kind : RegionKind) :
    RegionChange (Checked (Except RegionError Bool)) → Prop
  | nothing (empty : s.IsEmpty) : Records t s kind ⟨t, [], .ok (.ok false)⟩
  | uncounted (pages : ¬ s.IsEmpty) (f : Fault)
      (more : t.totalPages < (t.carve s false).answer ∨ 2 ^ 64 ≤ pageSize * (t.carve s false).answer) :
      Records t s kind ⟨(t.carve s false).table, (t.carve s false).notices, .error f⟩
  | ignored (pages : ¬ s.IsEmpty) (enough : (t.carve s false).answer ≤ t.totalPages)
      (full : (t.carve s false).table.Full) :
      Records t s kind ⟨⟨(t.carve s false).table.regions, t.totalPages - (t.carve s false).answer, t.reservedPages⟩,
        (t.carve s false).notices ++ [.ignored s], .ok (.error .full)⟩
  | recorded (pages : ¬ s.IsEmpty) (enough : (t.carve s false).answer ≤ t.totalPages)
      (slot : ¬ (t.carve s false).table.Full) :
      Records t s kind ⟨⟨(t.carve s false).table.regions ++ [⟨s, kind⟩], t.totalPages - (t.carve s false).answer,
        t.reservedPages⟩, (t.carve s false).notices, .ok (.ok true)⟩

lemma addUnavailable_records (t : RegionTable) (base length : UInt64) (kind : RegionKind) :
    Records t (Span.around base length) kind (t.addUnavailable base length kind) := by
  unfold addUnavailable
  generalize Span.around base length = s
  dsimp only
  by_cases he : s.IsEmpty
  · rw [if_pos he]
    exact .nothing he
  rw [if_neg he]
  by_cases hmul : 2 ^ 64 ≤ pageSize * (t.carve s false).answer
  · have hcount : (t.carve s false).table.uncountPages (t.carve s false).answer = .error .mulOverflow := if_pos hmul
    rw [hcount]
    exact .uncounted he _ (.inr hmul)
  by_cases hle : (t.carve s false).answer ≤ t.totalPages
  · have hcount : (t.carve s false).table.uncountPages (t.carve s false).answer = .ok
        ⟨(t.carve s false).table.regions, t.totalPages - (t.carve s false).answer, t.reservedPages⟩ :=
      (if_neg hmul).trans (if_pos hle)
    rw [hcount]
    dsimp only
    by_cases hfull : Full ⟨(t.carve s false).table.regions, t.totalPages - (t.carve s false).answer, t.reservedPages⟩
    · rw [push?, if_pos hfull]
      exact .ignored he hle hfull
    · rw [push?, if_neg hfull]
      exact .recorded he hle hfull
  · have hcount : (t.carve s false).table.uncountPages (t.carve s false).answer = .error .subOverflow :=
      (if_neg hmul).trans (if_neg hle)
    rw [hcount]
    exact .uncounted he _ (.inl (Nat.lt_of_not_le hle))

/-- What reserving the pages of `s` does to the table `t`. -/
inductive Takes (t : RegionTable) (s : Span) : RegionChange (Checked Nat) → Prop
  | nothing (empty : s.IsEmpty) : Takes t s ⟨t, [], .ok 0⟩
  | overflow (pages : s.first < s.last) (more : 2 ^ 64 ≤ t.reservedPages + (t.carve s true).answer) :
      Takes t s ⟨(t.carve s true).table, (t.carve s true).notices, .error .addOverflow⟩
  | counted (pages : s.first < s.last) (fits : t.reservedPages + (t.carve s true).answer < 2 ^ 64) :
      Takes t s ⟨⟨(t.carve s true).table.regions, t.totalPages, t.reservedPages + (t.carve s true).answer⟩,
        (t.carve s true).notices, .ok (t.carve s true).answer⟩

lemma reserve_takes (t : RegionTable) (start stop : PhysAddr) :
    Takes t (Span.outer start.toNat stop.toNat) (t.reserve start stop) := by
  unfold reserve
  rw [Span.covering_eq]
  generalize Span.outer start.toNat stop.toNat = s
  dsimp only
  by_cases he : s.IsEmpty
  · rw [if_pos he]
    exact .nothing he
  rw [if_neg he]
  by_cases hfits : t.reservedPages + (t.carve s true).answer < 2 ^ 64
  · have hcount : (t.carve s true).table.countReserved (t.carve s true).answer = .ok
        ⟨(t.carve s true).table.regions, t.totalPages, t.reservedPages + (t.carve s true).answer⟩ := if_pos hfits
    rw [hcount]
    exact .counted (Nat.lt_of_not_le he) hfits
  · have hcount : (t.carve s true).table.countReserved (t.carve s true).answer = .error .addOverflow := if_neg hfits
    rw [hcount]
    exact .overflow (Nat.lt_of_not_le he) (Nat.le_of_not_lt hfits)

end Nucleus.Memory.RegionTable
