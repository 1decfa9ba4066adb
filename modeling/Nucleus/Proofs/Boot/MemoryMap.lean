import Nucleus.Proofs.Boot.Entering
import Nucleus.Proofs.Boot.Unusable

/-!
What the memory maps of the boot information mean. As long as the table of regions has a slot for every region, a
page is available after a boot if and only if an available entry offers it, no unusable entry withholds it, and no
section of the image and no further range takes it. Nothing depends on the order in which these come.
-/

namespace Nucleus.Boot

open Memory

/-! ### The meaning of a memory map -/

def pageFloor (n : Nat) : Nat := n / pageSize * pageSize

def pageCeil (n : Nat) : Nat := (n + (pageSize - 1)) / pageSize * pageSize

/-- The address behind `length` bytes from `base` on, cut off at the largest word. -/
def endOf (base length : UInt64) : Nat := min (base.toNat + length.toNat) (2 ^ 64 - 1)

/-- The page at `a` lies in the range from `start` to `stop` widened to whole pages, up to the last page boundary. -/
def Widened (start stop a : Nat) : Prop := pageFloor start ≤ a ∧ a < min (pageCeil stop) (pageFloor (2 ^ 64 - 1))

namespace Information

def HasEntry (i : Information) (e : MapEntry) : Prop := ∃ m, .memoryMap m ∈ i.validTags ∧ e ∈ m.entries

/-- The section occupies memory and is one of the last table of sections. -/
def HasSection (i : Information) (s : ImageSection) : Prop :=
  ∃ pre S post, i.validTags = pre ++ .sections S :: post ∧ (∀ T, .sections T ∉ post) ∧ s ∈ S.sections ∧ s.Allocated

/-- The page at `a` lies completely in an available entry. -/
def Offers (i : Information) (a : Nat) : Prop := ∃ e, i.HasEntry e ∧ e.Available ∧ pageCeil e.base.toNat ≤ a ∧
  a + pageSize ≤ pageFloor (endOf e.base e.length)

/-- The page at `a` lies around an unusable entry. -/
def Withholds (i : Information) (a : Nat) : Prop :=
  ∃ e, i.HasEntry e ∧ ¬ e.Available ∧ Widened e.base.toNat (endOf e.base e.length) a

/-- The page at `a` lies around a section of the image or one of the ranges `extra`. -/
def Takes (i : Information) (extra : List PhysRange) (a : Nat) : Prop :=
  (∃ s, i.HasSection s ∧ Widened s.address.toNat (endOf s.address s.size) a) ∨
    ∃ r ∈ extra, Widened r.start.toNat r.stop.toNat a

end Information

lemma mem_within_iff {base length : UInt64} {p : Nat} : p ∈ Span.within base length ↔
    pageCeil base.toNat ≤ pageSize * p ∧ pageSize * p + pageSize ≤ pageFloor (endOf base length) := by
  rw [Span.within_eq, Word.toNat_addSaturating, Span.mem_def]
  unfold Span.inner Span.pagesUp pageCeil pageFloor endOf pageSize
  dsimp only
  omega

lemma mem_outer_iff {start stop p : Nat} : p ∈ Span.outer start stop ↔ Widened start stop (pageSize * p) := by
  unfold Span.outer Span.pagesUp Widened pageCeil pageFloor Span.limit pageSize
  rw [Span.mem_def]
  dsimp only
  omega

lemma mem_around_iff {base length : UInt64} {p : Nat} :
    p ∈ Span.around base length ↔ Widened base.toNat (endOf base length) (pageSize * p) := by
  rw [Span.around_eq, mem_outer_iff, Word.toNat_addSaturating]
  rfl

/-! ### Entering the memory maps -/

/-- No region found all slots in use. -/
def Roomy (ns : List BootNotice) : Prop := ∀ n, .region n ∉ ns

/-- The page `p` lies around an unusable entry of `es`. -/
def AroundEntries (es : List MapEntry) (p : Nat) : Prop :=
  ∃ e ∈ es, ¬ e.Available ∧ p ∈ Span.around e.base e.length

/-- The available pages are those that the entries `es` offer and do not withhold, and the latter are blocked. -/
structure Means (t : RegionTable) (es : List MapEntry) : Prop where
  available : ∀ p, t.IsAvailable p ↔ InEntries es p ∧ ¬ AroundEntries es p
  blocked : ∀ p, t.IsBlocked p ↔ AroundEntries es p

section Means

variable {t : RegionTable} {es : List MapEntry} {e : MapEntry} {p : Nat}

lemma inEntries_concat : InEntries (es ++ [e]) p ↔ InEntries es p ∨ e.Available ∧ p ∈ Span.within e.base e.length := by
  simp only [InEntries, List.mem_append, List.mem_singleton, or_and_right, exists_or, exists_eq_left]

lemma aroundEntries_concat :
    AroundEntries (es ++ [e]) p ↔ AroundEntries es p ∨ ¬ e.Available ∧ p ∈ Span.around e.base e.length := by
  simp only [AroundEntries, List.mem_append, List.mem_singleton, or_and_right, exists_or, exists_eq_left]

lemma means_empty : Means .empty [] :=
  ⟨fun p => by simp [RegionTable.IsAvailable, RegionTable.empty, InEntries],
    fun p => by simp [RegionTable.IsBlocked, RegionTable.empty, AroundEntries]⟩

lemma Means.enter (h : Means t es) (ht : Entering t) (hn : (enter t e).notices = []) :
    Means (enter t e).table (es ++ [e]) := by
  obtain ⟨a, ha, -⟩ := ht.enter e
  by_cases he : e.Available
  · rw [enter_of_available t he] at ha hn ⊢
    refine ⟨fun p => ?_, fun p => ?_⟩
    · rw [ht.balanced.isAvailable_addAvailable ht.inShape ha hn, h.available, h.blocked, inEntries_concat,
        aroundEntries_concat]
      tauto
    · rw [RegionTable.isBlocked_addAvailable ha, h.blocked, aroundEntries_concat]
      tauto
  · obtain ⟨hk, henter⟩ := enter_of_unusable t he
    rw [henter] at ha hn ⊢
    refine ⟨fun p => ?_, fun p => ?_⟩
    · rw [(ht.inShape.addUnavailable_iff hk ha hn).1, h.available, inEntries_concat, aroundEntries_concat]
      tauto
    · rw [(ht.inShape.addUnavailable_iff hk ha hn).2, h.blocked, aroundEntries_concat]
      tauto

end Means

namespace Progress

variable {p q : Progress}

/-- The table is one of entering the entries `es`, and means what these say, unless a region found all slots in use. -/
structure Means (es : List MapEntry) (p : Progress) : Prop where
  entering : Entering p.regions
  means : Roomy p.notices → Boot.Means p.regions es

lemma Means.enter {es : List MapEntry} {e : MapEntry} (h : Means es p) (he : p.enter e = .ok q) :
    Means (es ++ [e]) q := by
  refine ⟨entering_of_enter h.entering he, fun hroomy => ?_⟩
  obtain ⟨a, rest, -, hnotices⟩ := notices_enter he
  have hbefore : Roomy p.notices := fun n hn =>
    hroomy n (hnotices ▸ List.mem_append_left _ (List.mem_append_left _ hn))
  have hnone : (Boot.enter p.regions e).notices = [] := by
    refine List.eq_nil_iff_forall_not_mem.mpr fun n hn => hroomy n ?_
    exact hnotices ▸ List.mem_append_left _ (List.mem_append_right _ (List.mem_map_of_mem hn))
  rw [regions_enter he]
  exact (h.means hbefore).enter h.entering hnone

/-- **Entering all memory maps** means what their entries say. -/
lemma Means.tags {ts : List Tag} (ht : Progress.tags ⟨.empty, []⟩ ts = .ok q) : Means (entriesOf ts) q := by
  refine tags_keeps (P := Means) (d := []) Means.enter (fun ns h => ⟨h.entering, fun hroomy => h.means ?_⟩) ht
    ⟨entering_empty, fun _ => means_empty⟩
  exact fun n hn => hroomy n (List.mem_append_left _ hn)

/-! ### Carving -/

/-- From `p` to `q`, the pages of `cut` were reserved. -/
structure Cuts (p q : Progress) (cut : Nat → Prop) : Prop where
  inShape : p.regions.InShape → q.regions.InShape
  balanced : p.regions.InShape → p.regions.Balanced → q.regions.Balanced
  total : q.regions.totalPages = p.regions.totalPages
  notices : ∀ n ∈ p.notices, n ∈ q.notices
  available : p.regions.InShape → Roomy q.notices →
    ∀ n, q.regions.IsAvailable n ↔ p.regions.IsAvailable n ∧ ¬ cut n

namespace Cuts

variable {r : Progress} {cut cut' : Nat → Prop}

lemma refl (p : Progress) : Cuts p p fun _ => False := ⟨id, fun _ => id, rfl, fun _ => id, fun _ _ n => by simp⟩

lemma trans (h : Cuts p q cut) (h' : Cuts q r cut') : Cuts p r fun n => cut n ∨ cut' n where
  inShape hp := h'.inShape (h.inShape hp)
  balanced hs hb := h'.balanced (h.inShape hs) (h.balanced hs hb)
  total := h'.total.trans h.total
  notices n hn := h'.notices n (h.notices n hn)
  available hs hroomy n := by
    have hroomy' : Roomy q.notices := fun m hm => hroomy m (h'.notices _ hm)
    rw [h'.available (h.inShape hs) hroomy, h.available hs hroomy', not_or, and_assoc]

lemma congr (h : Cuts p q cut) (hc : ∀ n, cut n ↔ cut' n) : Cuts p q cut' := by
  obtain rfl : cut = cut' := funext fun n => propext (hc n)
  exact h

lemma note (p : Progress) (n : BootNotice) : Cuts p (p.note n) fun _ => False where
  inShape := id
  balanced _ := id
  total := rfl
  notices _ hn := List.mem_append_left _ hn
  available _ _ _ := (and_iff_left not_false).symm

lemma reserve {start stop : PhysAddr} {k : Nat} (h : p.reserve start stop = .ok (q, k)) :
    Cuts p q (· ∈ Span.outer start.toNat stop.toNat) := by
  obtain ⟨hanswer, rfl⟩ := reserve_eq_ok.mp h
  exact {
    inShape := fun hp => hp.reserve start stop
    balanced := fun hs hb => hb.reserve start stop hs hanswer
    total := p.regions.totalPages_reserve start stop
    notices := fun _ hn => List.mem_append_left _ hn
    available := fun hs hroomy n => by
      refine hs.isAvailable_reserve (List.eq_nil_iff_forall_not_mem.mpr fun m hm => hroomy m ?_)
      exact List.mem_append_right _ (List.mem_map_of_mem hm) }

/-- **Finishing** reserves the pages around the sections that count and around all further ranges. -/
lemma finish {ts : List Tag} {extra : List PhysRange} {notices : List BootNotice} {m : BootMemory}
    (hf : p.finish ts extra = .ok (notices, m)) : Cuts p ⟨m.regions, notices⟩ fun n =>
      ∃ r ∈ reservedRanges ts extra, n ∈ Span.outer r.start.toNat r.stop.toNat := by
  refine finish_keeps (P := fun rs q => Cuts p q fun n => ∃ r ∈ rs, n ∈ Span.outer r.start.toNat r.stop.toNat)
    (d := []) (fun r h hr => ?_) (fun n h => ?_) ((refl p).congr fun n => by simp) hf
  · exact (h.trans (reserve hr)).congr fun n => by simp [or_and_right, exists_or]
  · exact (h.trans (note _ n)).congr fun n => by simp

end Cuts

end Progress

/-! ### After a boot -/

lemma lastSections_concat (ts : List Tag) (S : ImageSections) :
    lastSections (ts ++ [.sections S]) = S.sections.filter (·.Allocated) := by
  simp [lastSections]

lemma lastSections_concat_of_ne (ts : List Tag) {t : Tag} (h : ∀ S, t ≠ .sections S) :
    lastSections (ts ++ [t]) = lastSections ts := by
  cases t with
  | sections S => exact absurd rfl (h S)
  | _ => simp [lastSections]

/-- The sections that count are the allocated ones of the last table. -/
lemma mem_lastSections {i : Information} {s : ImageSection} : s ∈ lastSections i.validTags ↔ i.HasSection s := by
  unfold Information.HasSection
  generalize i.validTags = ts
  constructor
  · intro hs
    induction ts using List.reverseRecOn with
    | nil => cases hs
    | append_singleton ts t ih =>
      by_cases ht : ∃ S, t = .sections S
      · obtain ⟨S, rfl⟩ := ht
        rw [lastSections_concat] at hs
        obtain ⟨hs, ha⟩ := List.mem_filter.mp hs
        exact ⟨ts, S, [], rfl, nofun, hs, of_decide_eq_true ha⟩
      · have hne : ∀ S, t ≠ .sections S := fun S h => ht ⟨S, h⟩
        rw [lastSections_concat_of_ne ts hne] at hs
        obtain ⟨pre, S, post, rfl, hpost, hs⟩ := ih hs
        refine ⟨pre, S, post ++ [t], by simp, fun T hT => ?_, hs⟩
        rcases List.mem_append.mp hT with hT | hT
        · exact hpost T hT
        · exact hne T (List.mem_singleton.mp hT).symm
  · rintro ⟨pre, S, post, rfl, hpost, hs, ha⟩
    rw [lastSections_eq hpost]
    exact List.mem_filter.mpr ⟨hs, decide_eq_true ha⟩

lemma inEntries_iff {i : Information} {p : Nat} : InEntries (entriesOf i.validTags) p ↔ i.Offers (pageSize * p) := by
  simp only [InEntries, Information.Offers, mem_entriesOf, Information.HasEntry, mem_within_iff]

lemma aroundEntries_iff {i : Information} {p : Nat} :
    AroundEntries (entriesOf i.validTags) p ↔ i.Withholds (pageSize * p) := by
  simp only [AroundEntries, Information.Withholds, mem_entriesOf, Information.HasEntry, mem_around_iff]

lemma takes_iff {i : Information} {extra : List PhysRange} {p : Nat} :
    (∃ r ∈ reservedRanges i.validTags extra, p ∈ Span.outer r.start.toNat r.stop.toNat) ↔
      i.Takes extra (pageSize * p) := by
  have hstop : ∀ s : ImageSection, s.bounds.stop.toNat = endOf s.address s.size :=
    fun s => Word.toNat_addSaturating ..
  simp only [reservedRanges, List.mem_append, or_and_right, exists_or, List.mem_map, exists_exists_and_eq_and,
    Information.Takes, mem_lastSections, mem_outer_iff, hstop]
  rfl

/-- What a boot with a slot for every region makes available, and how many pages it counts. -/
lemma readMemory_means {i : Information} {extra : List PhysRange} {notices : List BootNotice} {m : BootMemory}
    (boot : readMemory i extra = .ok (notices, .ok m)) (roomy : Roomy notices) :
    (∀ p, m.regions.IsAvailable p ↔
      (i.Offers (pageSize * p) ∧ ¬ i.Withholds (pageSize * p)) ∧ ¬ i.Takes extra (pageSize * p)) ∧
    {p | m.regions.IsAvailable p}.encard = m.regions.freePages ∧
    {p | i.Offers (pageSize * p) ∧ ¬ i.Withholds (pageSize * p)}.encard = m.regions.totalPages ∧
    m.regions.totalPages = m.regions.freePages + m.regions.reservedPages := by
  obtain ⟨p, hp, hfinish⟩ := readMemory_eq_ok boot
  -- `p` is the progress when all memory maps are entered
  obtain ⟨hentering, hmeans⟩ := Progress.Means.tags hp
  have hcuts := Progress.Cuts.finish hfinish
  replace hmeans := hmeans fun n hn => roomy n (hcuts.notices _ hn)
  have hshape := hcuts.inShape hentering.inShape
  have hbalanced := hcuts.balanced hentering.inShape hentering.balanced
  have hentered : ∀ n, p.regions.IsAvailable n ↔ i.Offers (pageSize * n) ∧ ¬ i.Withholds (pageSize * n) := by
    intro n
    rw [hmeans.available, inEntries_iff, aroundEntries_iff]
  refine ⟨fun n => ?_, (hbalanced.sound hshape).encard_available hshape, ?_, hbalanced.total⟩
  · rw [hcuts.available hentering.inShape roomy, hentered, takes_iff]
  · have htotal := hentering.balanced.total
    have hcount := (hentering.balanced.sound hentering.inShape).encard_available hentering.inShape
    simp only [hentered] at hcount
    rw [hcount, hcuts.total, htotal, hentering.reserved, Nat.add_zero]

/-- **The meaning of the memory maps.** If no region finds all slots in use, then a page is available after a boot
if and only if it lies completely in an available entry, lies around no unusable entry, and is not taken by a
section of the image or a further range; the totals count these pages. So nothing depends on the order of the
entries, of the sections and of the further ranges. -/
theorem memory_map_meaning {i : Information} {extra : List PhysRange} {notices : List BootNotice} {m : BootMemory}
    (boot : readMemory i extra = .ok (notices, .ok m)) (roomy : Roomy notices) :
    (∀ p, m.regions.IsAvailable p ↔
      i.Offers (pageSize * p) ∧ ¬ i.Withholds (pageSize * p) ∧ ¬ i.Takes extra (pageSize * p)) ∧
    {p | i.Offers (pageSize * p) ∧ ¬ i.Withholds (pageSize * p) ∧ ¬ i.Takes extra (pageSize * p)}.encard =
      m.regions.stats.freePages ∧
    {p | i.Offers (pageSize * p) ∧ ¬ i.Withholds (pageSize * p)}.encard = m.regions.stats.totalPages ∧
    m.regions.stats.totalPages = m.regions.stats.freePages + m.regions.stats.reservedPages ∧
    ∀ i' extra' notices' m', readMemory i' extra' = .ok (notices', .ok m') → Roomy notices' →
      (∀ e, i'.HasEntry e ↔ i.HasEntry e) → (∀ s, i'.HasSection s ↔ i.HasSection s) → (∀ r, r ∈ extra' ↔ r ∈ extra) →
        (∀ p, m'.regions.IsAvailable p ↔ m.regions.IsAvailable p) ∧
          m'.regions.stats.freePages = m.regions.stats.freePages ∧
          m'.regions.stats.totalPages = m.regions.stats.totalPages ∧
          m'.regions.stats.reservedPages = m.regions.stats.reservedPages := by
  obtain ⟨havailable, hfree, htotal, hsum⟩ := readMemory_means boot roomy
  simp only [and_assoc] at havailable
  refine ⟨havailable, ?_, htotal, hsum, fun i' extra' notices' m' boot' roomy' hentries hsections hextra => ?_⟩
  · simp only [← havailable]
    exact hfree
  · obtain ⟨havailable', hfree', htotal', hsum'⟩ := readMemory_means boot' roomy'
    have hoffers : ∀ a, i'.Offers a ↔ i.Offers a := fun a => by simp only [Information.Offers, hentries]
    have hwithholds : ∀ a, i'.Withholds a ↔ i.Withholds a := fun a => by simp only [Information.Withholds, hentries]
    have htakes : ∀ a, i'.Takes extra' a ↔ i.Takes extra a := fun a => by
      simp only [Information.Takes, hsections, hextra]
    simp only [hoffers, hwithholds, htakes, and_assoc, ← havailable] at havailable' htotal'
    simp only [havailable'] at hfree'
    have hf : m'.regions.freePages = m.regions.freePages := by
      rw [← Nat.cast_inj (R := ℕ∞), ← hfree', hfree]
    have ht : m'.regions.totalPages = m.regions.totalPages := by
      rw [← Nat.cast_inj (R := ℕ∞), ← htotal', htotal]
    refine ⟨havailable', hf, ht, ?_⟩
    show m'.regions.reservedPages = m.regions.reservedPages
    omega

/-- A few reserved bytes and a further range take a page each out of eight. -/
theorem memory_map_meaning_reserved_bytes : ∃ m,
    readMemory (mapInformation [(0x2800, 16, 2), (0, 0x8000, 1)]) [⟨⟨0x4000⟩, ⟨0x5000⟩⟩] =
        .ok ([.noImage], .ok m) ∧
      {p | m.regions.IsAvailable p}.encard = 6 := by
  have hread : readMemory (mapInformation [(0x2800, 16, 2), (0, 0x8000, 1)]) [⟨⟨0x4000⟩, ⟨0x5000⟩⟩] =
      .ok ([.noImage], .ok ⟨⟨[⟨⟨2, 3⟩, .reserved⟩, ⟨⟨0, 2⟩, .available⟩, ⟨⟨3, 4⟩, .available⟩,
        ⟨⟨5, 8⟩, .available⟩], 7, 1⟩, none, none⟩) := by
    decide +kernel
  obtain ⟨havailable, hfree, -⟩ := memory_map_meaning hread fun n hn => by cases List.mem_singleton.mp hn
  refine ⟨_, hread, ?_⟩
  simp only [← havailable] at hfree
  exact hfree.trans (congrArg Nat.cast (by decide))

end Nucleus.Boot
