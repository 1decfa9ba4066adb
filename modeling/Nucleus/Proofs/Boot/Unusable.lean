import Nucleus.Proofs.Boot.Supply
import Nucleus.Proofs.Memory.Unusable

/-!
Memory that the firmware reports as unusable. In whatever order the entries come, a page of an unusable entry is
not available after a boot, as long as the table of regions has a slot for the entry. Where it has none, this is
reported, and only an available entry that comes later can bring the page back.
-/

namespace Nucleus.Boot

open Memory

namespace Progress

/-- The pages of `s` are recorded as unusable, or it was reported that there is no slot for them. -/
structure Excludes (p : Progress) (s : Span) : Prop where
  sound : p.regions.Sound
  excluded : p.regions.Blocked s ∨ .region (.ignored s) ∈ p.notices

variable {p q : Progress} {s : Span}

lemma Excludes.step (h : p.Excludes s) (hs : q.regions.Sound)
    (hb : p.regions.Blocked s → q.regions.Blocked s) (hn : ∀ n ∈ p.notices, n ∈ q.notices) : q.Excludes s :=
  ⟨hs, h.excluded.imp hb (hn _)⟩

/-! ### Entering the memory maps -/

lemma notices_enter {e : MapEntry} (h : p.enter e = .ok q) :
    ∃ a rest, (Boot.enter p.regions e).answer = .ok a ∧
      q.notices = p.notices ++ (Boot.enter p.regions e).notices.map .region ++ rest := by
  unfold enter at h
  cases ha : (Boot.enter p.regions e).answer with
  | error f =>
    simp only [ha] at h
    cases h
  | ok a =>
    simp only [ha] at h
    cases h
    exact ⟨a, _, rfl, rfl⟩

lemma Excludes.enter {e : MapEntry} (h : p.Excludes s) (he : p.enter e = .ok q) : q.Excludes s := by
  have hregions := regions_enter he
  obtain ⟨a, rest, -, hnotices⟩ := notices_enter he
  refine h.step (hregions ▸ (enter_sound h.sound e).1) (fun hb => ?_) fun n hn => ?_
  · rw [hregions]
    by_cases hav : e.Available
    · rw [enter_of_available _ hav]
      exact hb.addAvailable ..
    · obtain ⟨hkind, henter⟩ := enter_of_unusable p.regions hav
      rw [henter]
      exact hb.addUnavailable h.sound hkind
  · rw [hnotices]
    exact List.mem_append_left _ (List.mem_append_left _ hn)

lemma Excludes.enterAll {es : List MapEntry} (h : p.Excludes s) (he : p.enterAll es = .ok q) : q.Excludes s :=
  enterAll_keeps (P := fun _ p => p.Excludes s) (d := []) Excludes.enter he h

lemma Excludes.tags {ts : List Tag} (h : p.Excludes s) (ht : p.tags ts = .ok q) : q.Excludes s :=
  tags_keeps (P := fun _ p => p.Excludes s) (d := []) Excludes.enter
    (fun _ h => h.step h.sound id fun _ hn => List.mem_append_left _ hn) ht h

/-- **An unusable entry** takes its pages away, and they are excluded from then on. -/
lemma excludes_of_enter {e : MapEntry} (hp : p.regions.Sound) (he : p.enter e = .ok q) (hu : ¬ e.Available)
    (hne : ¬ (Span.around e.base e.length).IsEmpty) :
    q.Excludes (Span.around e.base e.length) ∧ ∀ n ∈ Span.around e.base e.length, ¬ q.regions.IsAvailable n := by
  obtain ⟨hkind, henter⟩ := enter_of_unusable p.regions hu
  obtain ⟨a, rest, ha, hnotices⟩ := notices_enter he
  rw [henter] at ha hnotices
  have hregions := (regions_enter he).trans (congrArg RegionChange.table henter)
  obtain ⟨htaken, hblocked⟩ := hp.blocked_or_ignored hkind hne ha
  refine ⟨⟨regions_enter he ▸ (enter_sound hp e).1, ?_⟩, hregions ▸ htaken⟩
  refine hblocked.imp (fun hb => hregions ▸ hb) fun hi => ?_
  rw [hnotices]
  exact List.mem_append_left _ (List.mem_append_right _ (List.mem_map_of_mem hi))

lemma enterAll_append (p : Progress) (es es' : List MapEntry) :
    p.enterAll (es ++ es') = p.enterAll es >>= fun q => q.enterAll es' := by
  induction es generalizing p with
  | nil => rfl
  | cons e es ih =>
    show (p.enter e >>= fun q => q.enterAll (es ++ es')) = (p.enter e >>= fun q => q.enterAll es) >>= _
    cases p.enter e with
    | error f => rfl
    | ok p₁ => exact ih p₁

lemma tags_append (p : Progress) (ts us : List Tag) : p.tags (ts ++ us) = p.tags ts >>= fun q => q.tags us := by
  induction ts generalizing p with
  | nil => rfl
  | cons t ts ih =>
    show (p.tag t >>= fun q => q.tags (ts ++ us)) = (p.tag t >>= fun q => q.tags ts) >>= _
    cases p.tag t with
    | error f => rfl
    | ok p₁ => exact ih p₁

/-! ### Carving -/

lemma Excludes.note (h : p.Excludes s) (n : BootNotice) : (p.note n).Excludes s :=
  h.step h.sound id fun _ hn => List.mem_append_left _ hn

lemma Excludes.reserve {start stop : PhysAddr} {k : Nat} (h : p.Excludes s)
    (hr : p.reserve start stop = .ok (q, k)) : q.Excludes s := by
  obtain ⟨-, rfl⟩ := reserve_eq_ok.mp hr
  exact h.step (h.sound.reserve start stop).1 (fun hb => hb.reserve h.sound start stop)
    fun _ hn => List.mem_append_left _ hn

lemma Excludes.finish (h : p.Excludes s) {ts : List Tag} {extra : List PhysRange} {notices : List BootNotice}
    {m : BootMemory} (hf : p.finish ts extra = .ok (notices, m)) : Excludes ⟨m.regions, notices⟩ s :=
  finish_keeps (P := fun _ p => p.Excludes s) (d := []) (fun _ h hr => h.reserve hr) (fun n h => h.note n) h hf

end Progress

/-! ### Unusable pages -/

lemma mem_around_of_shared {base length : UInt64} {p x : Nat} (hx : base.toNat ≤ x ∧ x < base.toNat + length.toNat)
    (hp : pageSize * p ≤ x ∧ x < pageSize * p + pageSize) (hl : p < Span.limit) : p ∈ Span.around base length := by
  rw [Span.around_eq, Word.toNat_addSaturating, Span.mem_def]
  unfold Span.outer Span.pagesUp Span.limit pageSize at *
  dsimp only
  omega

/-- **A page of an unusable entry is not available** after a boot, except where the table of regions had no slot for
the entry, which is reported, and a later entry makes the page available. -/
theorem unusable_unavailable_unless_ignored {i : Information} {extra : List PhysRange} {notices : List BootNotice}
    {m : BootMemory} (boot : readMemory i extra = .ok (notices, .ok m)) {pre post : List Tag} {map : MemoryMap}
    (tags : i.validTags = pre ++ .memoryMap map :: post) {before after : List MapEntry} {e : MapEntry}
    (entries : map.entries = before ++ e :: after) (unusable : ¬ e.Available) {p x : Nat}
    (entry : e.base.toNat ≤ x ∧ x < e.base.toNat + e.length.toNat)
    (page : pageSize * p ≤ x ∧ x < pageSize * p + pageSize) :
    ¬ m.regions.IsAvailable p ∨
      .region (.ignored (Span.around e.base e.length)) ∈ notices ∧ (InEntries after p ∨ InMemoryMaps post p) := by
  by_cases hav : m.regions.IsAvailable p
  swap
  · exact .inl hav
  obtain ⟨-, hwithin⟩ := readMemory_sound boot
  obtain ⟨⟨map', -, e', -, -, hin⟩, -⟩ := hwithin p hav
  have hp : p ∈ Span.around e.base e.length := mem_around_of_shared entry page (bounds_of_mem_within hin).2.2
  have hne : ¬ (Span.around e.base e.length).IsEmpty := Nat.not_le_of_lt (Nat.lt_of_le_of_lt hp.1 hp.2)
  obtain ⟨q, hq, hfinish⟩ := readMemory_eq_ok boot
  -- `p₂` is the progress before the entry, `p₃` behind it, `p₄` behind its memory map
  rw [tags, Progress.tags_append] at hq
  obtain ⟨p₁, hp₁, hq⟩ := checked_bind_eq_ok.mp hq
  obtain ⟨p₄, hp₄, hq⟩ := checked_bind_eq_ok.mp hq
  rw [show p₁.tag (.memoryMap map) = p₁.enterAll map.entries from rfl, entries, Progress.enterAll_append] at hp₄
  obtain ⟨p₂, hp₂, hp₄⟩ := checked_bind_eq_ok.mp hp₄
  obtain ⟨p₃, hp₃, hp₄⟩ := checked_bind_eq_ok.mp hp₄
  have hs₁ := (Progress.tags_sound hp₁ RegionTable.sound_empty).1
  have hs₂ := (Progress.enterAll_sound hp₂ hs₁).1
  obtain ⟨hexcludes, htaken⟩ := Progress.excludes_of_enter hs₂ hp₃ unusable hne
  have hexcludes₄ := hexcludes.enterAll hp₄
  have hdone := (hexcludes₄.tags hq).finish hfinish
  obtain ⟨hsq, hlater⟩ := Progress.tags_sound hq hexcludes₄.sound
  have hfinal := (Progress.finish_sound hsq hfinish).2
  refine .inr ⟨hdone.excluded.resolve_left fun hb => hb.taken p hp hav, ?_⟩
  rcases hlater p (hfinal p hav).1 with hn | hn
  · exact .inl (((Progress.enterAll_sound hp₄ hexcludes.sound).2 p hn).resolve_left (htaken p hp))
  · exact .inr hn

/-! ### Two memory maps -/

def mapInformation (entries : List (Nat × Nat × Nat)) : Information :=
  let rows := entries.flatMap fun (base, length, type) =>
    bytesOf 8 base ++ bytesOf 8 length ++ bytesOf 4 type ++ bytesOf 4 0
  let record :=
    bytesOf 4 memoryMapType ++ bytesOf 4 (16 + rows.length) ++ bytesOf 4 MapEntry.size ++ bytesOf 4 0 ++ rows
  ⟨.ofList (bytesOf 4 (16 + record.length) ++ bytesOf 4 0 ++ record ++ bytesOf 4 0 ++ bytesOf 4 8)⟩

/-- A few reserved bytes keep their page out of the available memory that is entered around them later. -/
theorem unusable_unavailable_unless_ignored_reserved_bytes : ∃ m,
    readMemory (mapInformation [(0x2800, 16, 2), (0, 0x8000, 1)]) [] = .ok ([.noImage], .ok m) ∧
      ¬ m.regions.IsAvailable 2 := by
  have hread : readMemory (mapInformation [(0x2800, 16, 2), (0, 0x8000, 1)]) [] = .ok ([.noImage],
      .ok ⟨⟨[⟨⟨2, 3⟩, .reserved⟩, ⟨⟨0, 2⟩, .available⟩, ⟨⟨3, 8⟩, .available⟩], 7, 0⟩, none, none⟩) := by
    decide +kernel
  have htags : (mapInformation [(0x2800, 16, 2), (0, 0x8000, 1)]).validTags =
      [] ++ .memoryMap ⟨0, [] ++ ⟨0x2800, 16, .reserved⟩ :: [⟨0, 0x8000, .available⟩]⟩ :: [] := by decide +kernel
  refine ⟨_, hread, ?_⟩
  rcases unusable_unavailable_unless_ignored hread htags rfl (by decide) (p := 2) (x := 0x2800)
    (by decide) (by decide) with hp | ⟨hignored, -⟩
  · exact hp
  · exact absurd hignored (by decide)

/-- A map that fills the table of regions: 32 reserved pages split available memory, and there is no slot left for
the last of them. The entry behind them frees slots, and the last entry takes one for the page. -/
def crowdedMap : Information := mapInformation <|
  (0x100000, 0x42000, 1) :: (List.range 32).map (fun k => (0x101000 + 0x2000 * k, 0x1000, 2)) ++
    [(0x100000, 0x3000, 2), (0x13F000, 0x1000, 1)]

/-- In the crowded map a page of a reserved entry is available after the boot. -/
theorem reserved_page_available_in_full_table : ¬ ∀ (i : Information) (extra : List PhysRange)
    (notices : List BootNotice) (m : BootMemory), readMemory i extra = .ok (notices, .ok m) →
      ∀ map, .memoryMap map ∈ i.validTags → ∀ e ∈ map.entries, ¬ e.Available → ∀ p x : Nat,
        e.base.toNat ≤ x ∧ x < e.base.toNat + e.length.toNat →
          pageSize * p ≤ x ∧ x < pageSize * p + pageSize → ¬ m.regions.IsAvailable p := by
  intro hclaim
  have hread : ((readMemory crowdedMap []).toOption.bind fun r =>
      r.2.toOption.map fun m => decide (m.regions.IsAvailable 0x13F)) = some true := by decide +kernel
  have htags : crowdedMap.validTags = [.memoryMap ⟨0, ⟨0x100000, 0x42000, .available⟩ ::
      (List.range 32).map (fun k => ⟨UInt64.ofNat (0x101000 + 0x2000 * k), 0x1000, .reserved⟩) ++
        [⟨0x100000, 0x3000, .reserved⟩, ⟨0x13F000, 0x1000, .available⟩]⟩] := by decide +kernel
  rcases hboot : readMemory crowdedMap [] with f | ⟨notices, e | m⟩ <;> rw [hboot] at hread
  · cases hread
  · cases hread
  · have hav : m.regions.IsAvailable 0x13F := of_decide_eq_true (Option.some.inj hread)
    exact hclaim crowdedMap [] notices m hboot _ (htags ▸ List.mem_singleton_self _) ⟨0x13F000, 0x1000, .reserved⟩
      (by decide) (by decide) 0x13F 0x13F000 (by decide) (by decide) hav

end Nucleus.Boot
