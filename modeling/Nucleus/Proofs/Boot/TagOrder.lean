import Nucleus.Proofs.Boot.Untrusted

/-!
The order of the tags. Reading the memory enters the memory maps first and carves afterwards, so of the tags only
the memory maps in their order, the last table of sections and the last memory sizes count. Where there is at most
one of each of these, no other order of the tags changes the outcome.
-/

namespace Nucleus.Boot

open Memory

/-! ### What counts of the tags -/

def Tag.memoryMap? : Tag → Option MemoryMap
  | .memoryMap m => some m
  | _ => none

def Tag.sections? : Tag → Option ImageSections
  | .sections s => some s
  | _ => none

def Tag.memorySizes? : Tag → Option MemorySizes
  | .memorySizes m => some m
  | _ => none

/-- The tags `us` are the tags `ts` in another order, with the memory maps in the same one. -/
structure Reordered (ts us : List Tag) : Prop where
  perm : ts.Perm us
  maps : ts.filterMap Tag.memoryMap? = us.filterMap Tag.memoryMap?

/-- There is at most one table of sections and at most one report of memory sizes. -/
structure Unambiguous (ts : List Tag) : Prop where
  sections : (ts.filterMap Tag.sections?).length ≤ 1
  sizes : (ts.filterMap Tag.memorySizes?).length ≤ 1

variable {ts us : List Tag}

lemma entriesOf_eq (ts : List Tag) : entriesOf ts = (ts.filterMap Tag.memoryMap?).flatMap (·.entries) := by
  induction ts with
  | nil => rfl
  | cons t ts ih =>
    rw [entriesOf, List.flatMap_cons, ← entriesOf, ih]
    cases t <;> rfl

lemma lastSections_eq_foldl (ts : List Tag) : lastSections ts =
    ((ts.filterMap Tag.sections?).foldl (fun _ s => s.sections) []).filter (·.Allocated) := by
  rw [List.foldl_filterMap, lastSections]
  congr 2
  funext found t
  cases t <;> rfl

lemma lastSizes_eq_foldl (ts : List Tag) :
    lastSizes ts = (ts.filterMap Tag.memorySizes?).foldl (fun _ m => some m) none := by
  rw [List.foldl_filterMap, lastSizes]
  congr 1
  funext found t
  cases t <;> rfl

lemma any_isMemoryMap_iff : (ts.any (·.IsMemoryMap) = true) ↔ ts.filterMap Tag.memoryMap? ≠ [] := by
  rw [any_isMemoryMap]
  constructor
  · rintro ⟨m, hm⟩
    exact List.ne_nil_of_mem (List.mem_filterMap.mpr ⟨_, hm, rfl⟩)
  · intro hne
    obtain ⟨m, hm⟩ := List.exists_mem_of_ne_nil _ hne
    obtain ⟨t, ht, htm⟩ := List.mem_filterMap.mp hm
    cases t with
    | memoryMap m' => exact ⟨m', ht⟩
    | _ => cases htm

lemma eq_of_perm_of_length_le_one {α : Type} {as bs : List α} (h : as.Perm bs) (one : as.length ≤ 1) : as = bs := by
  match as, one with
  | [], _ => exact (List.nil_perm.mp h).symm
  | [a], _ => exact List.singleton_perm.mp h

namespace Reordered

lemma entriesOf_eq (h : Reordered ts us) : entriesOf ts = entriesOf us := by
  rw [Boot.entriesOf_eq, Boot.entriesOf_eq, h.maps]

lemma lastSections_eq (h : Reordered ts us) (one : Unambiguous ts) : lastSections ts = lastSections us := by
  rw [lastSections_eq_foldl, lastSections_eq_foldl,
    eq_of_perm_of_length_le_one (h.perm.filterMap Tag.sections?) one.sections]

lemma lastSizes_eq (h : Reordered ts us) (one : Unambiguous ts) : lastSizes ts = lastSizes us := by
  rw [lastSizes_eq_foldl, lastSizes_eq_foldl,
    eq_of_perm_of_length_le_one (h.perm.filterMap Tag.memorySizes?) one.sizes]

end Reordered

/-! ### The outcome as a function of what counts -/

def enteredRegions (t : RegionTable) (es : List MapEntry) : RegionTable := es.foldl (fun t e => (enter t e).table) t

def carvedRegions (t : RegionTable) (rs : List PhysRange) : RegionTable :=
  rs.foldl (fun t r => (t.reserve r.start r.stop).table) t

/-- The outcome of reading the tags `ts`, none of which is malformed. -/
def outcomeOf (ts : List Tag) (extra : List PhysRange) : Except BootMemoryError BootMemory :=
  if ts.filterMap Tag.memoryMap? = [] then .error .noMemoryMap
  else .ok ⟨carvedRegions (enteredRegions .empty (entriesOf ts)) (reservedRanges ts extra),
    hull ((lastSections ts).map (·.bounds)), lastSizes ts⟩

namespace Progress

variable {p q : Progress}

lemma regions_tags (h : p.tags ts = .ok q) : q.regions = enteredRegions p.regions (entriesOf ts) := by
  have step {es : List MapEntry} {p' : Progress} {e : MapEntry} {q' : Progress}
      (hp : p'.regions = enteredRegions p.regions es) (he : p'.enter e = .ok q') :
      q'.regions = enteredRegions p.regions (es ++ [e]) := by
    rw [regions_enter he, hp]
    simp only [enteredRegions, List.foldl_append, List.foldl_cons, List.foldl_nil]
  exact tags_keeps (P := fun es p' => p'.regions = enteredRegions p.regions es) (d := []) step (fun _ hp => hp) h rfl

lemma finish_eq {extra : List PhysRange} {notices : List BootNotice} {m : BootMemory}
    (hf : p.finish ts extra = .ok (notices, m)) : m = ⟨carvedRegions p.regions (reservedRanges ts extra),
      hull ((lastSections ts).map (·.bounds)), lastSizes ts⟩ := by
  have step {rs : List PhysRange} {p' q' : Progress} {k : Nat} (r : PhysRange)
      (hp : p'.regions = carvedRegions p.regions rs) (hr : p'.reserve r.start r.stop = .ok (q', k)) :
      q'.regions = carvedRegions p.regions (rs ++ [r]) := by
    obtain ⟨-, rfl⟩ := reserve_eq_ok.mp hr
    simp only [hp, carvedRegions, List.foldl_append, List.foldl_cons, List.foldl_nil]
  have hregions : m.regions = carvedRegions p.regions (reservedRanges ts extra) :=
    finish_keeps (P := fun rs p' => p'.regions = carvedRegions p.regions rs) (d := []) step (fun _ hp => hp) rfl hf
  rw [← hregions, ← (image_sizes_finish hf).1, ← (image_sizes_finish hf).2]

end Progress

/-- **Reading well-formed tags** ends with the outcome that is computed from what counts of them. -/
lemma readMemory_of_tags_ok {i : Information} (h : i.tags = ts.map .ok) (extra : List PhysRange) :
    ∃ notices, readMemory i extra = .ok (notices, outcomeOf ts extra) := by
  obtain ⟨hvalid, hnone⟩ := Information.of_tags_ok h
  obtain ⟨p, hp, -⟩ := Progress.tags_ok (p := ⟨.empty, []⟩) entering_empty i.validTags
  obtain ⟨notices, m, hfinish⟩ := Progress.finish_ok (Progress.Entered.tags hp).entering.counted i.validTags extra
  have hread := readMemory_eq hp hfinish
  have hm := Progress.finish_eq hfinish
  rw [hvalid] at hp hm
  rw [Progress.regions_tags hp] at hm
  rw [hvalid, hnone] at hread
  unfold outcomeOf
  by_cases hmaps : ts.filterMap Tag.memoryMap? = []
  · have hany : ¬ ts.any (·.IsMemoryMap) = true := fun hany => any_isMemoryMap_iff.mp hany hmaps
    rw [if_pos hmaps]
    dsimp only at hread
    rw [if_neg hany] at hread
    exact ⟨_, hread⟩
  · rw [if_neg hmaps, ← hm]
    dsimp only at hread
    rw [if_pos (any_isMemoryMap_iff.mpr hmaps)] at hread
    exact ⟨_, hread⟩

lemma outcomeOf_eq (h : Reordered ts us) (one : Unambiguous ts) (extra : List PhysRange) :
    outcomeOf ts extra = outcomeOf us extra := by
  have hsections := h.lastSections_eq one
  unfold outcomeOf reservedRanges
  rw [h.maps, h.entriesOf_eq, hsections, h.lastSizes_eq one]

lemma Information.tags_of_no_error {i : Information} (h : ∀ e, .error e ∉ i.tags) : i.tags = i.validTags.map .ok := by
  obtain ⟨ts, hts | ⟨e, hts⟩⟩ := i.tags_shape
  · rw [(Information.of_tags_ok hts).1, hts]
  · exact absurd (hts ▸ List.mem_append_right _ (List.mem_singleton_self _)) (h e)

/-- **The order of the tags does not matter.** Two pieces of boot information without a malformed record, with the same
tags in another order and the memory maps in the same one, end in the same way: both without a fault, both with the
same error or the same regions in the same order, totals, image and memory sizes, also where the table of regions
overflows. -/
theorem outcome_independent_of_tag_order {i j : Information} (hi : ∀ e, .error e ∉ i.tags)
    (hj : ∀ e, .error e ∉ j.tags) (order : Reordered i.validTags j.validTags) (one : Unambiguous i.validTags)
    (extra : List PhysRange) :
    ∃ notices notices' result, readMemory i extra = .ok (notices, result) ∧
      readMemory j extra = .ok (notices', result) := by
  obtain ⟨notices, hread⟩ := readMemory_of_tags_ok (Information.tags_of_no_error hi) extra
  obtain ⟨notices', hread'⟩ := readMemory_of_tags_ok (Information.tags_of_no_error hj) extra
  rw [← outcomeOf_eq order one] at hread'
  exact ⟨notices, notices', _, hread, hread'⟩

def mapRecord (base length type : Nat) : Record :=
  ⟨memoryMapType, bytesOf 4 MapEntry.size ++ bytesOf 4 0 ++
    (bytesOf 8 base ++ bytesOf 8 length ++ bytesOf 4 type ++ bytesOf 4 0)⟩

def sectionRecord (address size : Nat) : Record :=
  ⟨sectionsType, bytesOf 4 1 ++ bytesOf 4 ImageSection.headerSize ++ bytesOf 4 0 ++
    (bytesOf 4 0 ++ bytesOf 4 1 ++ bytesOf 8 2 ++ bytesOf 8 address ++ bytesOf 8 0 ++ bytesOf 8 size ++
      List.replicate 24 0)⟩

def sizesRecord (lower upper : Nat) : Record := ⟨4, bytesOf 4 lower ++ bytesOf 4 upper⟩

/-- Sections and sizes between two memory maps of which the later takes from the earlier. -/
def between : Information := ⟨.ofList (encode
  [mapRecord 0 0x8000 1, sectionRecord 0x2000 16, sizesRecord 639 7, mapRecord 0x5000 0x1000 2])⟩

/-- The same around the two memory maps. -/
def around : Information := ⟨.ofList (encode
  [sizesRecord 639 7, mapRecord 0 0x8000 1, mapRecord 0x5000 0x1000 2, sectionRecord 0x2000 16])⟩

theorem outcome_independent_of_tag_order_around :
    (∀ e, .error e ∉ between.tags) ∧ (∀ e, .error e ∉ around.tags) ∧ Reordered between.validTags around.validTags ∧
      Unambiguous between.validTags ∧
      ∃ notices notices' result, readMemory between [] = .ok (notices, result) ∧
        readMemory around [] = .ok (notices', result) := by
  have hbetween : between.tags = [.ok (.memoryMap ⟨0, [⟨0, 0x8000, .available⟩]⟩),
      .ok (.sections ⟨0, [⟨1, 2, 0x2000, 16⟩]⟩), .ok (.memorySizes ⟨639, 7⟩),
      .ok (.memoryMap ⟨0, [⟨0x5000, 0x1000, .reserved⟩]⟩)] := by decide +kernel
  have haround : around.tags = [.ok (.memorySizes ⟨639, 7⟩), .ok (.memoryMap ⟨0, [⟨0, 0x8000, .available⟩]⟩),
      .ok (.memoryMap ⟨0, [⟨0x5000, 0x1000, .reserved⟩]⟩), .ok (.sections ⟨0, [⟨1, 2, 0x2000, 16⟩]⟩)] := by
    decide +kernel
  have hi : ∀ e, .error e ∉ between.tags := by simp [hbetween]
  have hj : ∀ e, .error e ∉ around.tags := by simp [haround]
  have horder : Reordered between.validTags around.validTags := by
    unfold Information.validTags
    rw [hbetween, haround]
    constructor
    · decide
    · rfl
  have hone : Unambiguous between.validTags := by
    unfold Information.validTags
    rw [hbetween]
    constructor <;> decide
  exact ⟨hi, hj, horder, hone, outcome_independent_of_tag_order hi hj horder hone []⟩

end Nucleus.Boot
