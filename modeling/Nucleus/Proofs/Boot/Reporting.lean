import Nucleus.Boot.Report
import Nucleus.Proofs.Boot.Unusable
import Nucleus.Proofs.Boot.Untrusted

/-!
The reports about the memory of a boot. Each number in the report about the regions fits into a word, because the
regions are those of a table that the boot has built. The report about the memory map adds up lengths as the firmware
wrote them, whether or not there is that much memory, and it stops at the entry at which the sum leaves a word.
-/

namespace Nucleus.Memory

/-! ### Totals in words -/

/-- The number of pages of a region, from its bounds in words. -/
def Region.wordPages (r : Region) : Checked UInt64 := do
  return (← Word.sub (.ofNat r.span.stop) (.ofNat r.span.start)) / .ofNat pageSize

namespace RegionTable

/-- The number of pages of the regions `rs` on top of `n`, added up in words. -/
def addWordPages : UInt64 → List Region → Checked UInt64
  | n, [] => .ok n
  | n, r :: rs => do addWordPages (← Word.add n (← r.wordPages)) rs

def wordStats (t : RegionTable) : Checked Stats := do
  let totalBytes : UInt64 := .ofNat (pageSize * t.totalPages)
  let freePages ← addWordPages 0 t.available
  return ⟨totalBytes.toNat, (totalBytes / .ofNat pageSize).toNat, freePages.toNat,
    (UInt64.ofNat t.reservedPages).toNat, t.regions.length⟩

end RegionTable

lemma toNat_ofNat_of_le {n : Nat} (h : n ≤ pageSize * Span.limit) : (UInt64.ofNat n).toNat = n := by
  rw [UInt64.toNat_ofNat']
  unfold pageSize Span.limit at h
  omega

/-- **The pages of a region** can be counted in words. -/
lemma Region.wordPages_eq {r : Region} (hr : r.span.first ≤ r.span.last) (hl : r.span.last ≤ Span.limit) :
    r.wordPages = .ok (.ofNat r.span.pages) := by
  have hstop : (UInt64.ofNat r.span.stop).toNat = r.span.stop := toNat_ofNat_of_le (Nat.mul_le_mul_left _ hl)
  have hstart : (UInt64.ofNat r.span.start).toNat = r.span.start :=
    toNat_ofNat_of_le (Nat.mul_le_mul_left _ (Nat.le_trans hr hl))
  have hle : (UInt64.ofNat r.span.start).toNat ≤ (UInt64.ofNat r.span.stop).toNat := by
    rw [hstart, hstop]
    exact Nat.mul_le_mul_left _ hr
  have hpages : (UInt64.ofNat r.span.pages).toNat = r.span.pages := by
    refine toNat_ofNat_of_le (Nat.le_trans (Nat.sub_le ..) (Nat.le_trans hl ?_))
    exact Nat.le_mul_of_pos_left _ (by decide)
  rw [wordPages, Word.sub, if_pos hle]
  refine congrArg Except.ok (UInt64.toNat_inj.mp ?_)
  rw [UInt64.toNat_div, UInt64.toNat_sub_of_le _ _ (UInt64.le_iff_toNat_le.mpr hle), hstart, hstop, hpages, Span.stop,
    Span.start, ← Nat.mul_sub]
  exact Nat.mul_div_cancel_left _ (by decide)

namespace RegionTable

variable {t : RegionTable}

lemma addWordPages_eq {rs : List Region} (hr : ∀ r ∈ rs, r.span.first ≤ r.span.last ∧ r.span.last ≤ Span.limit)
    {n : Nat} (hn : n + Span.pagesOf (rs.map (·.span)) < 2 ^ 64) :
    addWordPages (.ofNat n) rs = .ok (.ofNat (n + Span.pagesOf (rs.map (·.span)))) := by
  induction rs generalizing n with
  | nil => rfl
  | cons r rs ih =>
    obtain ⟨⟨hproper, hlimit⟩, hrest⟩ := List.forall_mem_cons.mp hr
    have hpages : Span.pagesOf ((r :: rs).map (·.span)) = r.span.pages + Span.pagesOf (rs.map (·.span)) := rfl
    rw [hpages] at hn ⊢
    have hadd : Word.add (.ofNat n) (.ofNat r.span.pages) = .ok (.ofNat (n + r.span.pages)) := by
      rw [Word.add, UInt64.toNat_ofNat', UInt64.toNat_ofNat', if_pos (by omega), UInt64.ofNat_add]
    rw [addWordPages, Region.wordPages_eq hproper hlimit]
    dsimp only [bind, Except.bind]
    rw [hadd]
    dsimp only
    rw [ih hrest (by omega), Nat.add_assoc]

/-- **The totals of a counted table** fit into words. -/
lemma Counted.wordStats_eq (h : t.Counted) : t.wordStats = .ok t.stats := by
  have hfree := (h.balanced.sound h.inShape).freePages_le h.inShape
  have hbalance := h.balanced.total
  have htotal := h.total
  have hpages : addWordPages 0 t.available = .ok (.ofNat t.freePages) := by
    have hregions : ∀ r ∈ t.available, r.span.first ≤ r.span.last ∧ r.span.last ≤ Span.limit := fun r hr =>
      ⟨Nat.le_of_lt (h.inShape.proper r (List.mem_filter.mp hr).1), h.inShape.within r (List.mem_filter.mp hr).1⟩
    have hsum : 0 + Span.pagesOf (t.available.map (·.span)) = t.freePages := Nat.zero_add _
    rw [show (0 : UInt64) = .ofNat 0 from rfl, addWordPages_eq hregions, hsum]
    rw [hsum]
    unfold Span.limit at hfree
    omega
  have hwhole : ∀ n, n ≤ Span.limit → n ≤ pageSize * Span.limit := fun n hn =>
    Nat.le_trans hn (Nat.le_mul_of_pos_left _ (by decide))
  have hbytes : (UInt64.ofNat (pageSize * t.totalPages)).toNat = pageSize * t.totalPages :=
    toNat_ofNat_of_le (Nat.mul_le_mul_left _ htotal)
  unfold wordStats stats
  rw [hpages]
  dsimp only [bind, Except.bind, pure, Except.pure]
  rw [UInt64.toNat_div, hbytes, toNat_ofNat_of_le (hwhole _ hfree),
    toNat_ofNat_of_le (hwhole t.reservedPages (by omega)), show (UInt64.ofNat pageSize).toNat = pageSize from rfl,
    Nat.mul_div_cancel_left _ (by decide)]

end RegionTable

end Nucleus.Memory

namespace Nucleus.Boot

open Memory

/-! ### The report about the regions -/

/-- The lines about the region table, with all numbers computed in words. -/
def regionsReportInWords (t : RegionTable) : Checked (List String) := do
  let lines ← t.regions.mapM fun r => do return regionLine r (← r.wordPages).toNat
  return ["Memory regions:"] ++ lines ++ [statsLine (← t.wordStats)]

lemma mapM_eq_ok {α β : Type} {f : α → Checked β} {g : α → β} {as : List α} (h : ∀ a ∈ as, f a = .ok (g a)) :
    as.mapM f = .ok (as.map g) := by
  induction as with
  | nil => rfl
  | cons a as ih =>
    obtain ⟨ha, has⟩ := List.forall_mem_cons.mp h
    rw [List.mapM_cons, ha, ih has]
    rfl

/-- **The report about a counted table** is the same in words. -/
lemma regionsReportInWords_eq {t : RegionTable} (h : t.Counted) : regionsReportInWords t = .ok (regionsReport t) := by
  have hlines : t.regions.mapM (fun r => do return regionLine r (← r.wordPages).toNat) =
      .ok (t.regions.map fun r => regionLine r r.span.pages) := by
    refine mapM_eq_ok fun r hr => ?_
    have hlimit := h.inShape.within r hr
    rw [Region.wordPages_eq (Nat.le_of_lt (h.inShape.proper r hr)) hlimit]
    dsimp only [bind, Except.bind, pure, Except.pure]
    rw [toNat_ofNat_of_le]
    unfold Span.pages pageSize
    omega
  rw [regionsReportInWords, hlines, h.wordStats_eq]
  rfl

lemma memoryMap?_of_readMemory {i : Information} {extra : List PhysRange} {notices : List BootNotice} {m : BootMemory}
    (h : readMemory i extra = .ok (notices, .ok m)) : ∃ map, i.memoryMap? = some map := by
  obtain ⟨p, hp, -⟩ := readMemory_eq_ok h
  obtain ⟨_, _, hfinish⟩ := Progress.finish_ok (Progress.Entered.tags hp).entering.counted i.validTags extra
  have hread := (readMemory_eq hp hfinish).symm.trans h
  cases herror : i.error? with
  | some e => simp [herror] at hread
  | none =>
    by_cases hmap : i.validTags.any (·.IsMemoryMap)
    · obtain ⟨map, hmem⟩ := any_isMemoryMap.mp hmap
      refine Option.isSome_iff_exists.mp ?_
      rw [Information.memoryMap?, List.findSome?_isSome_iff]
      exact ⟨_, hmem, rfl⟩
    · simp [herror, hmap] at hread

lemma counted_of_readMemory {i : Information} {extra : List PhysRange} {notices : List BootNotice} {m : BootMemory}
    (h : readMemory i extra = .ok (notices, .ok m)) : m.regions.Counted := by
  obtain ⟨q, hq, hfinish⟩ := readMemory_eq_ok h
  exact (Progress.Finished.finish (Progress.Entered.tags hq).entering.counted hfinish).counted

/-! ### The report about the memory map -/

def availableBytes (es : List MapEntry) : Nat := ((es.filter (·.Available)).map (·.length.toNat)).sum

lemma availableBytes_cons (e : MapEntry) (es : List MapEntry) :
    availableBytes (e :: es) = availableBytes [e] + availableBytes es := by
  unfold availableBytes
  by_cases h : e.Available
  · simp [h]
  · simp [h]

lemma add_availableBytes (total : UInt64) (e : MapEntry) :
    (if e.Available then Word.add total e.length else .ok total) =
      if total.toNat + availableBytes [e] < 2 ^ 64 then .ok (.ofNat (total.toNat + availableBytes [e]))
        else .error .addOverflow := by
  by_cases h : e.Available
  · have hbytes : availableBytes [e] = e.length.toNat := by simp [availableBytes, h]
    rw [if_pos h, Word.add, hbytes, UInt64.ofNat_add, UInt64.ofNat_toNat, UInt64.ofNat_toNat]
    rfl
  · have hbytes : availableBytes [e] = 0 := by simp [availableBytes, h]
    rw [if_neg h, hbytes, Nat.add_zero, if_pos total.toNat_lt, UInt64.ofNat_toNat]

/-- **The lines about the entries** are complete if the sum fits into a word. -/
lemma entryLines_of_fits {es : List MapEntry} {total : UInt64} (h : total.toNat + availableBytes es < 2 ^ 64) :
    entryLines total es = (es.map MapEntry.line, .ok (.ofNat (total.toNat + availableBytes es))) := by
  induction es generalizing total with
  | nil => simp [entryLines, availableBytes]
  | cons e es ih =>
    rw [availableBytes_cons, ← Nat.add_assoc] at h ⊢
    have hnext : (UInt64.ofNat (total.toNat + availableBytes [e])).toNat = total.toNat + availableBytes [e] := by
      rw [UInt64.toNat_ofNat']
      omega
    rw [entryLines, add_availableBytes, if_pos (by omega)]
    dsimp only
    rw [ih (by rwa [hnext]), hnext]
    rfl

/-- **The lines about the entries** end with the entry at which the sum leaves a word. -/
lemma entryLines_of_overflow {es : List MapEntry} {total : UInt64} (h : 2 ^ 64 ≤ total.toNat + availableBytes es) :
    ∃ pre e post, es = pre ++ e :: post ∧ total.toNat + availableBytes pre < 2 ^ 64 ∧
      2 ^ 64 ≤ total.toNat + availableBytes (pre ++ [e]) ∧
      entryLines total es = ((pre ++ [e]).map MapEntry.line, .error .addOverflow) := by
  induction es generalizing total with
  | nil => exact absurd h (Nat.not_le_of_lt total.toNat_lt)
  | cons e es ih =>
    rw [availableBytes_cons, ← Nat.add_assoc] at h
    by_cases hfits : total.toNat + availableBytes [e] < 2 ^ 64
    · have hnext : (UInt64.ofNat (total.toNat + availableBytes [e])).toNat = total.toNat + availableBytes [e] := by
        rw [UInt64.toNat_ofNat']
        omega
      obtain ⟨pre, e', post, hes, hpre, hover, hlines⟩ := ih (hnext ▸ h)
      rw [hnext, Nat.add_assoc, ← availableBytes_cons] at hpre hover
      refine ⟨e :: pre, e', post, congrArg _ hes, hpre, hover, ?_⟩
      rw [entryLines, add_availableBytes, if_pos hfits]
      dsimp only
      rw [hlines]
      rfl
    · refine ⟨[], e, es, rfl, total.toNat_lt, Nat.le_of_not_lt hfits, ?_⟩
      rw [entryLines, add_availableBytes, if_neg hfits]
      rfl

/-! ### Both reports -/

/-- **The reports about the memory of a boot.** The report about the regions comes to an end, with all numbers in
words. The report about the memory map does so if the available lengths have a sum in words; otherwise it ends in an
overflow, behind the line about the entry that is too much. -/
theorem reports_end_unless_sum_overflows {i : Information} {extra : List PhysRange} {notices : List BootNotice}
    {m : BootMemory} (boot : readMemory i extra = .ok (notices, .ok m)) :
    regionsReportInWords m.regions = .ok (regionsReport m.regions) ∧
    ∃ map, i.memoryMap? = some map ∧
      (availableBytes map.entries < 2 ^ 64 → memoryMapReport i = (mapHeading ++ map.entries.map MapEntry.line ++
        [availableLine (availableBytes map.entries)], .ok ())) ∧
      (2 ^ 64 ≤ availableBytes map.entries → ∃ pre e post, map.entries = pre ++ e :: post ∧
        availableBytes pre < 2 ^ 64 ∧ 2 ^ 64 ≤ availableBytes (pre ++ [e]) ∧
        memoryMapReport i = (mapHeading ++ (pre ++ [e]).map MapEntry.line, .error .addOverflow)) := by
  refine ⟨regionsReportInWords_eq (counted_of_readMemory boot), ?_⟩
  obtain ⟨map, hmap⟩ := memoryMap?_of_readMemory boot
  have hzero (n : Nat) : (0 : UInt64).toNat + n = n := Nat.zero_add n
  refine ⟨map, hmap, fun hfits => ?_, fun hover => ?_⟩
  · have hsum : (UInt64.ofNat (availableBytes map.entries)).toNat = availableBytes map.entries := by
      rw [UInt64.toNat_ofNat']
      exact Nat.mod_eq_of_lt hfits
    have hword : (0 : UInt64).toNat + availableBytes map.entries < 2 ^ 64 := by rwa [hzero]
    have hlines := entryLines_of_fits hword
    rw [hzero] at hlines
    simp only [memoryMapReport, hmap, hlines, hsum]
  · have hword : 2 ^ 64 ≤ (0 : UInt64).toNat + availableBytes map.entries := by rwa [hzero]
    obtain ⟨pre, e, post, hes, hpre, hpost, hlines⟩ := entryLines_of_overflow hword
    rw [hzero] at hpre hpost
    refine ⟨pre, e, post, hes, hpre, hpost, ?_⟩
    simp only [memoryMapReport, hmap, hlines]

def banksMap : Information := mapInformation [(0, 0x9FC00, 1), (0x9FC00, 0x400, 2), (0x100000, 0x7EE0000, 1)]

/-- The memory of two banks is reported completely. -/
theorem reports_end_unless_sum_overflows_two_banks : ∃ m,
    readMemory banksMap [] = .ok ([.noImage], .ok m) ∧
      regionsReportInWords m.regions = .ok (regionsReport m.regions) ∧ (memoryMapReport banksMap).2 = .ok () := by
  have hread : readMemory banksMap [] = .ok ([.noImage], .ok ⟨⟨[⟨⟨0, 0x9F⟩, .available⟩, ⟨⟨0x9F, 0xA0⟩, .reserved⟩,
      ⟨⟨0x100, 0x7FE0⟩, .available⟩], 0x7F7F, 0⟩, none, none⟩) := by
    decide +kernel
  have hbanks : banksMap.memoryMap? = some ⟨0, [⟨0, 0x9FC00, .available⟩, ⟨0x9FC00, 0x400, .reserved⟩,
      ⟨0x100000, 0x7EE0000, .available⟩]⟩ := by
    decide +kernel
  obtain ⟨hregions, map, hmap, hfits, -⟩ := reports_end_unless_sum_overflows hread
  obtain rfl := Option.some.inj (hmap.symm.trans hbanks)
  refine ⟨_, hread, hregions, ?_⟩
  rw [hfits (by decide)]

/-- Boot information with two entries that both reach up to the end of the address space. -/
def endlessMap : Information := mapInformation [(0, 0xFFFFFFFFFFFFFFFF, 1), (0x1000, 0xFFFFFFFFFFFFFFFF, 1)]

/-- A boot can succeed although the report about its memory map overflows. -/
theorem memory_map_report_overflows : ¬ ∀ (i : Information) (extra : List PhysRange) (notices : List BootNotice)
    (m : BootMemory), readMemory i extra = .ok (notices, .ok m) → (memoryMapReport i).2 = .ok () := by
  intro hclaim
  have hread : readMemory endlessMap [] = .ok ([.nothingNew 0x1000 0xFFFFFFFFFFFFFFFF, .noImage],
      .ok ⟨⟨[⟨⟨0, 0xFFFFFFFFFFFFF⟩, .available⟩], 0xFFFFFFFFFFFFF, 0⟩, none, none⟩) := by
    decide +kernel
  have hreport : (memoryMapReport endlessMap).2 = .error .addOverflow := by decide +kernel
  exact absurd ((hclaim _ _ _ _ hread).symm.trans hreport) nofun

end Nucleus.Boot
