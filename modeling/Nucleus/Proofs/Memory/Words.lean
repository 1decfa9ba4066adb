import Nucleus.Proofs.Memory.Exact

/-!
The arithmetic of the table of regions fits into words. What an operation subtracts is never more than there is, and
what it adds up, the pages that a carving has lost so far or all that were reserved, can be counted in bytes.
-/

namespace Nucleus.Memory.RegionTable

/-! ### Calls that fit into words -/

/-- The arithmetic fits when the carving `c` goes on with the available region `r`, which the cut meets: both regions
have a length, the common pages are among those of `r`, and what is lost if `r` is given up has a number of bytes. -/
structure Carving.Fits (cut : Span) (c : Carving) (r : Region) : Prop where
  region : r.span.first ≤ r.span.last
  common : (cut.meet r.span).first ≤ (cut.meet r.span).last
  rest : (cut.meet r.span).pages ≤ r.span.pages
  lost : pageSize * (c.lost + r.span.pages) < 2 ^ 64

/-- Carving fits into words at each of the regions that it changes. -/
def CarveFits (t : RegionTable) (cut : Span) (keep : Bool) : Prop :=
  ∀ pre r post, t.regions = pre ++ r :: post → r.Available → cut.Meets r.span →
    (pre.foldl (Carving.step cut keep t.regions.length) ⟨[], [], 0, []⟩).Fits cut r

/-- The call ends without a fault, and its arithmetic fits into words. -/
def Call.Fits (t : RegionTable) : Call → Prop
  | addAvailable base length => ∃ a, (t.addAvailable base length).answer = .ok a
  | addUnavailable base length kind =>
    (∃ a, (t.addUnavailable base length kind).answer = .ok a) ∧
      (¬ (Span.around base length).IsEmpty → t.CarveFits (Span.around base length) false ∧
        pageSize * (t.carve (Span.around base length) false).answer < 2 ^ 64)
  | reserve start stop =>
    (∃ n, (t.reserve start stop).answer = .ok n) ∧
      (¬ (Span.covering start stop).IsEmpty → t.CarveFits (Span.covering start stop) true)

/-- Calls lead from one table to another, and each of them fits into words. -/
inductive Runs : RegionTable → List Call → RegionTable → Prop
  | nil {t : RegionTable} : Runs t [] t
  | cons {t t' u : RegionTable} {c : Call} {cs : List Call} (fits : c.Fits t) (performs : c.perform t = .ok t')
      (rest : Runs t' cs u) : Runs t (c :: cs) u

variable {t t' u : RegionTable} {c : Call} {cs ds : List Call}

lemma Runs.single (fits : c.Fits t) (performs : c.perform t = .ok t') : Runs t [c] t' := .cons fits performs .nil

lemma Runs.append (h : Runs t cs t') (h' : Runs t' ds u) : Runs t (cs ++ ds) u := by
  induction h with
  | nil => exact h'
  | cons fits performs _ ih => exact .cons fits performs (ih h')

/-! ### Balanced tables -/

/-- **Carving a sound table** fits into words: it loses no more pages than were free. -/
lemma Sound.carveFits (h : t.Sound) (hs : t.InShape) {cut : Span} (hcut : cut.first < cut.last) (keep : Bool) :
    t.CarveFits cut keep := by
  rintro pre r post hregions ha ⟨hmeet, hmeet'⟩
  have hproper : r.span.first < r.span.last := hs.proper r (by simp [hregions])
  have hpre : ∀ s ∈ pre, s.span.first < s.span.last := fun s hm => hs.proper s (by simp [hregions, hm])
  have hcarves : Carves cut keep t.regions.length ([] ++ pre) _ := Carves.nil.foldl hcut hpre
  have hlost := hcarves.pages hcut
  have hfree := h.freePages_le hs
  rw [freePages_eq, hregions, freeOf_append, freeOf_cons, if_pos ha] at hfree
  rw [List.nil_append] at hlost
  -- what was lost so far was free before, and so are the pages of `r`
  refine ⟨Nat.le_of_lt hproper, ?_, ?_, ?_⟩
  · simp only [Span.meet]
    omega
  · simp only [Span.meet, Span.pages]
    omega
  · unfold Span.limit at hfree
    unfold pageSize
    omega

/-- A balanced table does not lose more pages than it counts, and takes no more than it can count in bytes. -/
lemma Balanced.fits_addUnavailable (h : t.Balanced) (hs : t.InShape) (hw : t.InWords) (base length : UInt64)
    (kind : RegionKind) : (Call.addUnavailable base length kind).Fits t := by
  refine ⟨h.addUnavailable_ok hs hw base length kind, fun hne => ?_⟩
  have hcut := Nat.lt_of_not_le hne
  refine ⟨(h.sound hs).carveFits hs hcut false, ?_⟩
  have hlost := hs.carve_pages hcut false
  have hfree := (h.sound hs).freePages_le hs
  unfold Span.limit at hfree
  unfold pageSize
  omega

/-- The table is in shape and balanced, and all its pages together have a number of bytes. -/
structure Counted (t : RegionTable) : Prop where
  inShape : t.InShape
  balanced : t.Balanced
  total : t.totalPages ≤ Span.limit

lemma Counted.inWords (h : t.Counted) : t.InWords := by
  have htotal := h.total
  have hsum := h.balanced.total
  unfold Span.limit at htotal
  refine ⟨?_, by omega⟩
  unfold pageSize
  omega

variable (start stop : PhysAddr)

lemma Counted.fits_reserve (h : t.Counted) : (Call.reserve start stop).Fits t :=
  ⟨h.balanced.reserve_ok start stop h.inShape h.inWords,
    fun hne => (h.balanced.sound h.inShape).carveFits h.inShape (Nat.lt_of_not_le hne) true⟩

lemma Counted.reserve (h : t.Counted) : (t.reserve start stop).table.Counted := by
  obtain ⟨n, hn⟩ := h.balanced.reserve_ok start stop h.inShape h.inWords
  exact ⟨h.inShape.reserve start stop, h.balanced.reserve start stop h.inShape hn,
    totalPages_reserve t start stop ▸ h.total⟩

end Nucleus.Memory.RegionTable
