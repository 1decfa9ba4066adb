import Nucleus.Boot.Memory
import Nucleus.Proofs.Memory.Supply

/-!
The frames that can be allocated after the boot loader handed over: whole pages of available entries of its
memory maps, apart from the sections of the image and from all ranges that are reserved besides.
-/

namespace Nucleus.Boot

open Memory

lemma checked_bind_eq_ok {α β : Type} {x : Checked α} {f : α → Checked β} {b : β} :
    x >>= f = .ok b ↔ ∃ a, x = .ok a ∧ f a = .ok b := by
  cases x with
  | error e => exact ⟨nofun, fun ⟨a, ha, _⟩ => nomatch ha⟩
  | ok a => exact ⟨fun h => ⟨a, rfl, h⟩, fun ⟨a', ha, h⟩ => by cases ha; exact h⟩

/-! ### Entering the memory maps -/

/-- The page `p` lies completely in an available entry of `es`. -/
def InEntries (es : List MapEntry) (p : Nat) : Prop := ∃ e ∈ es, e.Available ∧ p ∈ Span.within e.base e.length

/-- The page `p` lies completely in an available entry of a memory map among `ts`. -/
def InMemoryMaps (ts : List Tag) (p : Nat) : Prop := ∃ m, .memoryMap m ∈ ts ∧ InEntries m.entries p

/-- The entries of all memory maps among `ts`. -/
def entriesOf (ts : List Tag) : List MapEntry := ts.flatMap fun
  | .memoryMap m => m.entries
  | _ => []

/-- The ranges that finishing reserves: the sections that count and the ranges `extra`. -/
def reservedRanges (ts : List Tag) (extra : List PhysRange) : List PhysRange :=
  (lastSections ts).map (·.bounds) ++ extra

lemma mem_entriesOf {ts : List Tag} {e : MapEntry} : e ∈ entriesOf ts ↔ ∃ m, .memoryMap m ∈ ts ∧ e ∈ m.entries := by
  rw [entriesOf, List.mem_flatMap]
  constructor
  · rintro ⟨t, ht, he⟩
    cases t with
    | memoryMap m => exact ⟨m, ht, he⟩
    | _ => cases he
  · exact fun ⟨m, hm, he⟩ => ⟨_, hm, he⟩

lemma inEntries_entriesOf {ts : List Tag} {p : Nat} : InEntries (entriesOf ts) p ↔ InMemoryMaps ts p := by
  simp only [InEntries, InMemoryMaps, mem_entriesOf]
  exact ⟨fun ⟨e, ⟨m, hm, he⟩, h⟩ => ⟨m, hm, e, he, h⟩, fun ⟨m, hm, e, he, h⟩ => ⟨e, ⟨m, hm, he⟩, h⟩⟩

lemma regionKind_eq_available {e : MapEntry} : e.type.regionKind = .available ↔ e.Available := by
  refine ⟨fun h => ?_, fun h => ?_⟩
  · unfold MapType.regionKind at h
    split at h <;> try cases h
    next hcode =>
    unfold MapEntry.Available MapType.available
    cases ht : e.type
    rw [ht] at hcode
    exact congrArg MapType.mk hcode
  · have htype : e.type = .available := h
    rw [htype]
    rfl

lemma enter_of_available (t : RegionTable) {e : MapEntry} (h : e.Available) :
    enter t e = t.addAvailable e.base e.length := by
  unfold enter
  rw [regionKind_eq_available.mpr h]

lemma enter_of_unusable (t : RegionTable) {e : MapEntry} (h : ¬ e.Available) :
    e.type.regionKind ≠ .available ∧ enter t e = t.addUnavailable e.base e.length e.type.regionKind := by
  have hk : e.type.regionKind ≠ .available := fun hk => h (regionKind_eq_available.mp hk)
  refine ⟨hk, ?_⟩
  unfold enter
  split
  · next hk' => exact absurd hk' hk
  · rfl

lemma enter_sound {t : RegionTable} (h : t.Sound) (e : MapEntry) : (enter t e).table.Sound ∧
    ∀ p, (enter t e).table.IsAvailable p → t.IsAvailable p ∨ InEntries [e] p := by
  by_cases he : e.Available
  · rw [enter_of_available t he]
    obtain ⟨hsound, havail⟩ := h.addAvailable e.base e.length
    exact ⟨hsound, fun p hp => (havail p hp).imp_right fun hin => ⟨e, List.mem_singleton_self e, he, hin⟩⟩
  · obtain ⟨hkind, henter⟩ := enter_of_unusable t he
    rw [henter]
    obtain ⟨hsound, havail⟩ := h.addUnavailable e.base e.length e.type.regionKind
    exact ⟨hsound, fun p hp => (havail p hp).imp_right fun hin => absurd hin.1 hkind⟩

namespace Progress

lemma regions_enter {p q : Progress} {e : MapEntry} (h : p.enter e = .ok q) :
    q.regions = (Boot.enter p.regions e).table := by
  unfold enter at h
  cases ha : (Boot.enter p.regions e).answer with
  | error f =>
    simp only [ha] at h
    cases h
  | ok r =>
    simp only [ha] at h
    cases h
    rfl

section Keeps

variable {P : List MapEntry → Progress → Prop} {p q : Progress} {d : List MapEntry}
  (step : ∀ {es p e q}, P es p → p.enter e = .ok q → P (es ++ [e]) q)

include step

/-- What entering one entry keeps, entering all of a memory map keeps. -/
lemma enterAll_keeps {es : List MapEntry} (h : p.enterAll es = .ok q) (hp : P d p) : P (d ++ es) q := by
  induction es generalizing p d with
  | nil =>
    cases h
    rwa [List.append_nil]
  | cons e es ih =>
    obtain ⟨p₁, hp₁, h⟩ := checked_bind_eq_ok.mp h
    rw [← List.singleton_append, ← List.append_assoc]
    exact ih h (step hp hp₁)

lemma tags_keeps (note : ∀ {es p} ns, P es p → P es { p with notices := p.notices ++ ns }) {ts : List Tag}
    (h : p.tags ts = .ok q) (hp : P d p) : P (d ++ entriesOf ts) q := by
  induction ts generalizing p d with
  | nil =>
    cases h
    rwa [entriesOf, List.flatMap_nil, List.append_nil]
  | cons t ts ih =>
    obtain ⟨p₁, hp₁, h⟩ := checked_bind_eq_ok.mp h
    rw [entriesOf, List.flatMap_cons, ← List.append_assoc]
    refine ih h ?_
    cases t with
    | memoryMap m => exact enterAll_keeps step hp₁ hp
    | _ =>
      cases hp₁
      rw [List.append_nil]
      exact note _ hp

end Keeps

/-- The table is sound, and what is available but was not in the table `t` lies in one of the entries. -/
structure Offered (t : RegionTable) (es : List MapEntry) (p : Progress) : Prop where
  sound : p.regions.Sound
  available : ∀ n, p.regions.IsAvailable n → t.IsAvailable n ∨ InEntries es n

section Offered

variable {t : RegionTable} {es : List MapEntry} {p q : Progress}

lemma offered_self (h : p.regions.Sound) : Offered p.regions [] p := ⟨h, fun _ => .inl⟩

lemma Offered.enter {e : MapEntry} (h : Offered t es p) (he : p.enter e = .ok q) : Offered t (es ++ [e]) q := by
  obtain ⟨hsound, havail⟩ := enter_sound h.sound e
  rw [← regions_enter he] at hsound havail
  refine ⟨hsound, fun n hn => ?_⟩
  rcases havail n hn with hn | ⟨e', he', hr⟩
  · exact (h.available n hn).imp_right fun ⟨e', he', hr⟩ => ⟨e', List.mem_append_left _ he', hr⟩
  · exact .inr ⟨e', List.mem_append_right _ he', hr⟩

lemma enterAll_sound (h : p.enterAll es = .ok q) (hp : p.regions.Sound) : Offered p.regions es q :=
  enterAll_keeps Offered.enter h (offered_self hp)

/-- Entering all memory maps makes whole pages of their available entries available, and nothing else. -/
lemma tags_sound {ts : List Tag} (h : p.tags ts = .ok q) (hp : p.regions.Sound) :
    q.regions.Sound ∧ ∀ n, q.regions.IsAvailable n → p.regions.IsAvailable n ∨ InMemoryMaps ts n := by
  have hq : Offered p.regions (entriesOf ts) q :=
    tags_keeps Offered.enter (fun _ h => ⟨h.sound, h.available⟩) h (offered_self hp)
  exact ⟨hq.sound, fun n hn => (hq.available n hn).imp_right inEntries_entriesOf.mp⟩

end Offered

/-! ### Carving -/

lemma reserve_eq_ok {p q : Progress} {start stop : PhysAddr} {n : Nat} : p.reserve start stop = .ok (q, n) ↔
    (p.regions.reserve start stop).answer = .ok n ∧ q = ⟨(p.regions.reserve start stop).table,
      p.notices ++ (p.regions.reserve start stop).notices.map .region⟩ := by
  refine ⟨fun h => ?_, fun ⟨hn, hq⟩ => checked_bind_eq_ok.mpr ⟨n, hn, hq ▸ rfl⟩⟩
  obtain ⟨n', hn, h⟩ := checked_bind_eq_ok.mp h
  cases h
  exact ⟨hn, rfl⟩

lemma image_sizes_finish {p : Progress} {ts : List Tag} {extra : List PhysRange} {notices : List BootNotice}
    {m : BootMemory} (h : p.finish ts extra = .ok (notices, m)) :
    m.image = hull ((lastSections ts).map (·.bounds)) ∧ m.sizes = lastSizes ts := by
  obtain ⟨carved, -, h⟩ := checked_bind_eq_ok.mp h
  obtain ⟨done, -, h⟩ := checked_bind_eq_ok.mp h
  cases h
  exact ⟨rfl, rfl⟩

section Keeps

variable {P : List PhysRange → Progress → Prop} {p q : Progress} {d : List PhysRange}

lemma foldlM_keeps {α : Type} {f : Progress → α → Checked Progress} (bounds : α → PhysRange)
    (step : ∀ {rs p q} a, P rs p → f p a = .ok q → P (rs ++ [bounds a]) q) (h : P d p) {as : List α}
    (hf : as.foldlM f p = .ok q) : P (d ++ as.map bounds) q := by
  induction as generalizing p d with
  | nil =>
    cases hf
    rwa [List.map_nil, List.append_nil]
  | cons a as ih =>
    rw [List.foldlM_cons] at hf
    obtain ⟨p₁, hp₁, hf⟩ := checked_bind_eq_ok.mp hf
    rw [List.map_cons, ← List.singleton_append, ← List.append_assoc]
    exact ih (step a h hp₁) hf

lemma finish_keeps (reserve : ∀ {rs p q n} (r : PhysRange), P rs p → p.reserve r.start r.stop = .ok (q, n) →
      P (rs ++ [r]) q)
    (note : ∀ {rs p} n, P rs p → P rs (p.note n)) (h : P d p) {ts : List Tag} {extra : List PhysRange}
    {notices : List BootNotice} {m : BootMemory} (hf : p.finish ts extra = .ok (notices, m)) :
    P (d ++ reservedRanges ts extra) ⟨m.regions, notices⟩ := by
  obtain ⟨carved, hcarved, hf⟩ := checked_bind_eq_ok.mp hf
  obtain ⟨done, hdone, hf⟩ := checked_bind_eq_ok.mp hf
  cases hf
  have hsections : P (d ++ (lastSections ts).map (·.bounds)) carved := by
    refine foldlM_keeps _ (fun {rs p q} s h hs => ?_) h hcarved
    obtain ⟨⟨q', n⟩, hq', hs⟩ := checked_bind_eq_ok.mp hs
    cases hs
    exact note _ (reserve s.bounds (note _ h) hq')
  have hextra := fun told (h : P (d ++ (lastSections ts).map (·.bounds)) told)
      (hdone : extra.foldlM (fun q r => return (← q.reserve r.start r.stop).1) told = .ok done) =>
    foldlM_keeps id (fun r h hr => by
      obtain ⟨⟨q', n⟩, hq', hr⟩ := checked_bind_eq_ok.mp hr
      cases hr
      exact reserve r h hq') h hdone
  rw [List.map_id, List.append_assoc] at hextra
  cases hi : hull ((lastSections ts).map (·.bounds)) with
  | none =>
    rw [hi] at hdone
    exact hextra _ (note .noImage hsections) hdone
  | some r =>
    rw [hi] at hdone
    exact hextra _ (note (.image r) hsections) hdone

end Keeps

/-- The table is sound, and what is available was so in the table `t` and lies around none of the ranges. -/
structure Carved (t : RegionTable) (rs : List PhysRange) (p : Progress) : Prop where
  sound : p.regions.Sound
  available : ∀ n, p.regions.IsAvailable n →
    t.IsAvailable n ∧ ∀ r ∈ rs, n ∉ Span.outer r.start.toNat r.stop.toNat

lemma carved_self {p : Progress} (h : p.regions.Sound) : Carved p.regions [] p := ⟨h, fun _ hn => ⟨hn, nofun⟩⟩

lemma Carved.reserve {t : RegionTable} {rs : List PhysRange} {p q : Progress} {k : Nat} (r : PhysRange)
    (h : Carved t rs p) (hr : p.reserve r.start r.stop = .ok (q, k)) : Carved t (rs ++ [r]) q := by
  obtain ⟨-, rfl⟩ := reserve_eq_ok.mp hr
  obtain ⟨hsound, havail⟩ := h.sound.reserve r.start r.stop
  refine ⟨hsound, fun n hn => ?_⟩
  obtain ⟨hn', hcut⟩ := havail n hn
  obtain ⟨hn'', hcuts⟩ := h.available n hn'
  refine ⟨hn'', fun s hs => ?_⟩
  rcases List.mem_append.mp hs with hs | hs
  · exact hcuts s hs
  · cases List.mem_singleton.mp hs
    exact hcut

/-- Finishing takes the pages around the sections that count and around all further ranges. -/
lemma finish_sound {p : Progress} (hp : p.regions.Sound) {ts : List Tag} {extra : List PhysRange}
    {notices : List BootNotice} {m : BootMemory} (hf : p.finish ts extra = .ok (notices, m)) :
    Carved p.regions (reservedRanges ts extra) ⟨m.regions, notices⟩ :=
  finish_keeps Carved.reserve (fun _ h => ⟨h.sound, h.available⟩) (carved_self hp) hf

end Progress

lemma lastSections_eq {pre post : List Tag} {S : ImageSections} (hpost : ∀ T, .sections T ∉ post) :
    lastSections (pre ++ .sections S :: post) = S.sections.filter (·.Allocated) := by
  unfold lastSections
  rw [List.foldl_append, List.foldl_cons]
  dsimp only
  generalize S.sections = found
  refine congrArg _ ?_
  induction post with
  | nil => rfl
  | cons t ts ih =>
    rw [List.foldl_cons]
    cases t with
    | sections T => exact absurd (List.mem_cons_self ..) (hpost T)
    | _ => exact ih fun T hT => hpost T (List.mem_cons_of_mem _ hT)

/-! ### Safe frames -/

/-- The frame at `f` can be given away: it is a whole page of available memory, inside of the limits, apart from
the image and from all reserved ranges. -/
structure SafeFrame (i : Information) (extra : List PhysRange) (mapped : PhysRange) (low f : PhysAddr) :
    Prop where
  aligned : f.PageAligned
  ne_null : f ≠ .null
  low : low ≤ f
  mapped : mapped.start.toNat ≤ f.toNat ∧ f.toNat + pageSize ≤ mapped.stop.toNat
  available : ∃ m, .memoryMap m ∈ i.validTags ∧ ∃ e ∈ m.entries, e.Available ∧
    e.base.toNat ≤ f.toNat ∧ f.toNat + pageSize ≤ e.base.toNat + e.length.toNat
  sections : ∀ pre S post, i.validTags = pre ++ .sections S :: post → (∀ T, .sections T ∉ post) →
    ∀ c ∈ S.sections, c.Allocated →
      f.toNat + pageSize ≤ c.address.toNat ∨ c.address.toNat + c.size.toNat ≤ f.toNat
  extra : ∀ r ∈ extra, r.start < r.stop → f.toNat + pageSize ≤ r.start.toNat ∨ r.stop.toNat ≤ f.toNat

lemma bounds_of_mem_within {base length : UInt64} {p : Nat} (h : p ∈ Span.within base length) :
    base.toNat ≤ pageSize * p ∧ pageSize * p + pageSize ≤ base.toNat + length.toNat ∧ p < Span.limit := by
  rw [Span.within_eq, Word.toNat_addSaturating] at h
  unfold Span.inner Span.pagesUp at h
  obtain ⟨hfirst, hlast⟩ := h
  unfold Span.limit pageSize at *
  dsimp only at hfirst hlast
  omega

lemma apart_of_not_mem_outer {start stop p : Nat} (h : p ∉ Span.outer start stop) (hp : p < Span.limit) :
    pageSize * p + pageSize ≤ start ∨ stop ≤ pageSize * p := by
  unfold Span.outer Span.pagesUp at h
  rw [Span.mem_def] at h
  unfold pageSize at *
  dsimp only at h
  omega

/-- A boot that succeeds has entered all memory maps and finished. -/
lemma readMemory_eq_ok {i : Information} {extra : List PhysRange} {notices : List BootNotice} {m : BootMemory}
    (h : readMemory i extra = .ok (notices, .ok m)) :
    ∃ p, Progress.tags ⟨.empty, []⟩ i.validTags = .ok p ∧ p.finish i.validTags extra = .ok (notices, m) := by
  obtain ⟨p, hp, h⟩ := checked_bind_eq_ok.mp h
  refine ⟨p, hp, ?_⟩
  split at h
  · cases h
  · split at h
    · obtain ⟨⟨notices', m'⟩, hfinish, h⟩ := checked_bind_eq_ok.mp h
      cases h
      exact hfinish
    · cases h

lemma readMemory_sound {i : Information} {extra : List PhysRange} {notices : List BootNotice} {m : BootMemory}
    (h : readMemory i extra = .ok (notices, .ok m)) : m.regions.Sound ∧ ∀ n, m.regions.IsAvailable n →
      InMemoryMaps i.validTags n ∧
      (∀ s ∈ lastSections i.validTags, n ∉ Span.outer s.bounds.start.toNat s.bounds.stop.toNat) ∧
        ∀ r ∈ extra, n ∉ Span.outer r.start.toNat r.stop.toNat := by
  obtain ⟨p, hp, hfinish⟩ := readMemory_eq_ok h
  obtain ⟨hsound, havail⟩ := Progress.tags_sound hp RegionTable.sound_empty
  obtain ⟨hsound', havail'⟩ := Progress.finish_sound hsound hfinish
  refine ⟨hsound', fun n hn => ?_⟩
  obtain ⟨hn', hcut⟩ := havail' n hn
  rw [reservedRanges, List.forall_mem_append, List.forall_mem_map] at hcut
  refine ⟨(havail n hn').resolve_left ?_, hcut⟩
  rintro ⟨r, hr, -⟩
  cases hr

/-- **Frames that are allocated after a boot are safe.** Whatever the boot information holds, also where it does
not fit into the table of regions, and in every run of allocations and frees. -/
theorem booted_frames_safe {i : Information} {extra : List PhysRange} {notices : List BootNotice} {m : BootMemory}
    {w : Window} {low : PhysAddr} {l : FrameList} {s : Store} {held : List PhysAddr}
    (boot : readMemory i extra = .ok (notices, .ok m)) (new : FrameList.new m.regions w low = .ok l)
    (run : Supply l s held) :
    Ends FrameList.alloc s fun a _ => ∀ f, a = some f → SafeFrame i extra w.frames low f := by
  obtain ⟨hsound, havail⟩ := readMemory_sound boot
  refine (run.alloc_ends new hsound).mono ?_
  rintro a - ha f hf
  obtain ⟨hsup, -⟩ := ha f hf
  obtain ⟨p, hp, hfp⟩ := hsup.page
  obtain ⟨⟨mm, hmm, e, he, hea, hin⟩, hsections, hextra⟩ := havail p hp
  obtain ⟨hbase, hend, hlimit⟩ := bounds_of_mem_within hin
  refine ⟨hsup.aligned, hsup.ne_null, hsup.low, ⟨hsup.start, hsup.stop⟩, ?_, ?_, ?_⟩
  · rw [hfp]
    exact ⟨mm, hmm, e, he, hea, hbase, hend⟩
  · intro pre S post htags hpost c hc hca
    rw [htags, lastSections_eq hpost] at hsections
    have hapart := apart_of_not_mem_outer (hsections c (List.mem_filter.mpr ⟨hc, decide_eq_true hca⟩)) hlimit
    have hstop : c.bounds.stop.toNat = min (c.address.toNat + c.size.toNat) (2 ^ 64 - 1) :=
      Word.toNat_addSaturating ..
    have hstart : c.bounds.start.toNat = c.address.toNat := rfl
    rw [hstop, hstart] at hapart
    rw [hfp]
    unfold Span.limit pageSize at *
    omega
  · intro r hr _
    rw [hfp]
    exact apart_of_not_mem_outer (hextra r hr) hlimit

/-- A memory map with one available entry of eight pages, and one section of 16 bytes in the third of them. -/
def smallInformation : Information := ⟨.ofList
  [144, 0, 0, 0, 0, 0, 0, 0,
    6, 0, 0, 0, 40, 0, 0, 0, 24, 0, 0, 0, 0, 0, 0, 0,
    0, 0, 0, 0, 0, 0, 0, 0, 0, 128, 0, 0, 0, 0, 0, 0, 1, 0, 0, 0, 0, 0, 0, 0,
    9, 0, 0, 0, 84, 0, 0, 0, 1, 0, 0, 0, 64, 0, 0, 0, 0, 0, 0, 0,
    0, 0, 0, 0, 1, 0, 0, 0, 2, 0, 0, 0, 0, 0, 0, 0, 0, 32, 0, 0, 0, 0, 0, 0,
    0, 0, 0, 0, 0, 0, 0, 0, 16, 0, 0, 0, 0, 0, 0, 0, 0, 0, 0, 0, 0, 0, 0, 0,
    0, 0, 0, 0, 0, 0, 0, 0, 0, 0, 0, 0, 0, 0, 0, 0, 0, 0, 0, 0,
    0, 0, 0, 0, 8, 0, 0, 0]⟩

/-- What is left of it when the fifth page is reserved besides. -/
def smallRegions : RegionTable :=
  ⟨[⟨⟨0, 2⟩, .available⟩, ⟨⟨3, 4⟩, .available⟩, ⟨⟨5, 8⟩, .available⟩], 8, 2⟩

def smallFrames : FrameList := ⟨.identity ⟨⟨0⟩, ⟨0x8000⟩⟩, [⟨1, 2⟩, ⟨3, 4⟩, ⟨5, 8⟩], .null, 5, false⟩

theorem booted_frames_safe_small : ∃ f s',
    FrameList.alloc ⟨.ofBackground fun _ => 0, smallFrames, #[]⟩ = .ok (some f) s' ∧
      SafeFrame smallInformation [⟨⟨0x4000⟩, ⟨0x5000⟩⟩] ⟨⟨0⟩, ⟨0x8000⟩⟩ ⟨0⟩ f := by
  have hread : (readMemory smallInformation [⟨⟨0x4000⟩, ⟨0x5000⟩⟩]).toOption.bind (·.2.toOption.map (·.regions)) =
      some smallRegions := by decide +kernel
  have hnew : FrameList.new smallRegions (.identity ⟨⟨0⟩, ⟨0x8000⟩⟩) ⟨0⟩ = .ok smallFrames := by decide +kernel
  have halloc : FrameList.alloc.run' ⟨.ofBackground fun _ => 0, smallFrames, #[]⟩ = some (some ⟨0x7000⟩) := by
    decide +kernel
  obtain ⟨s', hrun⟩ := eq_ok_of_run' halloc
  obtain ⟨⟨notices, r⟩, hok, hm⟩ := Option.bind_eq_some_iff.mp hread
  cases hrm : readMemory smallInformation [⟨⟨0x4000⟩, ⟨0x5000⟩⟩] with
  | error e =>
    rw [hrm] at hok
    cases hok
  | ok p =>
    rw [hrm] at hok
    cases hok
    cases r with
    | error e => cases hm
    | ok m =>
      have hsafe := booted_frames_safe hrm (Option.some.inj hm ▸ hnew) (.start rfl)
        (s := ⟨.ofBackground fun _ => 0, smallFrames, #[]⟩)
      exact ⟨⟨0x7000⟩, s', hrun, hsafe.elim hrun _ rfl⟩

end Nucleus.Boot
