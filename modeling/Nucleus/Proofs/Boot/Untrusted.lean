import Nucleus.Proofs.Boot.MemoryMap
import Nucleus.Proofs.Boot.Slices

/-!
A boot from untrusted bytes. Whatever the bytes and the further ranges are, reading them comes to an end without a
slice out of bounds, and every change of the table of regions fits into words. There are no more tags than eight bytes
each allow, only the last can be an error, and it decides how the boot ends.
-/

namespace Nucleus.Boot

open Memory

/-! ### The calls of a boot -/

/-- The call that enters an entry of a memory map. -/
def MapEntry.call (e : MapEntry) : RegionTable.Call :=
  if e.Available then .addAvailable e.base e.length else .addUnavailable e.base e.length e.type.regionKind

def reserveCall (r : PhysRange) : RegionTable.Call := .reserve r.start r.stop

namespace Progress

open RegionTable (Runs Counted)

variable {p q : Progress}

/-- The table is one of entering the entries `es`, by calls that fit into words. -/
structure Entered (es : List MapEntry) (p : Progress) : Prop where
  entering : Entering p.regions
  runs : Runs .empty (es.map MapEntry.call) p.regions

lemma Entered.enter {es : List MapEntry} {e : MapEntry} (h : Entered es p) (he : p.enter e = .ok q) :
    Entered (es ++ [e]) q := by
  refine ⟨entering_of_enter h.entering he, ?_⟩
  rw [List.map_append]
  refine h.runs.append ?_
  obtain ⟨a, ha, -⟩ := h.entering.enter e
  rw [regions_enter he, List.map_singleton, MapEntry.call]
  by_cases hav : e.Available
  · rw [enter_of_available _ hav] at ha ⊢
    rw [if_pos hav]
    exact .single ⟨a, ha⟩ (by rw [RegionTable.Call.perform, ha]; rfl)
  · obtain ⟨-, henter⟩ := enter_of_unusable p.regions hav
    rw [henter] at ha ⊢
    rw [if_neg hav]
    exact .single (h.entering.balanced.fits_addUnavailable h.entering.inShape h.entering.counted.inWords ..)
      (by rw [RegionTable.Call.perform, ha]; rfl)

lemma entered_empty : Entered [] ⟨.empty, []⟩ := ⟨entering_empty, .nil⟩

lemma Entered.tags {ts : List Tag} (ht : Progress.tags ⟨.empty, []⟩ ts = .ok q) : Entered (entriesOf ts) q :=
  tags_keeps Entered.enter (fun _ h => ⟨h.entering, h.runs⟩) ht entered_empty

/-- The table is one of reserving the ranges `rs` in the table `t`, by calls that fit into words. -/
structure Finished (t : RegionTable) (rs : List PhysRange) (p : Progress) : Prop where
  counted : Counted p.regions
  runs : Runs t (rs.map reserveCall) p.regions

lemma Finished.reserve {t : RegionTable} {rs : List PhysRange} {k : Nat} (r : PhysRange) (h : Finished t rs p)
    (hr : p.reserve r.start r.stop = .ok (q, k)) : Finished t (rs ++ [r]) q := by
  obtain ⟨hanswer, rfl⟩ := reserve_eq_ok.mp hr
  refine ⟨h.counted.reserve r.start r.stop, ?_⟩
  rw [List.map_append]
  refine h.runs.append (.single (h.counted.fits_reserve r.start r.stop) ?_)
  show ((p.regions.reserve r.start r.stop).answer.map fun _ => _) = _
  rw [hanswer]
  rfl

lemma Finished.finish (h : Counted p.regions) {ts : List Tag} {extra : List PhysRange} {notices : List BootNotice}
    {m : BootMemory} (hf : p.finish ts extra = .ok (notices, m)) :
    Finished p.regions (reservedRanges ts extra) ⟨m.regions, notices⟩ :=
  finish_keeps (P := Finished p.regions) (d := []) Finished.reserve (fun _ h => ⟨h.counted, h.runs⟩) ⟨h, .nil⟩ hf

/-- A table that is counted has an answer to every reservation, and is counted afterwards. -/
lemma reserve_ok (h : Counted p.regions) (start stop : PhysAddr) :
    ∃ q n, p.reserve start stop = .ok (q, n) ∧ Counted q.regions := by
  obtain ⟨⟨n, hn⟩, -⟩ := h.fits_reserve start stop
  exact ⟨_, n, reserve_eq_ok.mpr ⟨hn, rfl⟩, h.reserve start stop⟩

lemma foldlM_ok {α : Type} {f : Progress → α → Checked Progress}
    (step : ∀ {p} a, Counted p.regions → ∃ q, f p a = .ok q ∧ Counted q.regions) (h : Counted p.regions)
    (as : List α) : ∃ q, as.foldlM f p = .ok q ∧ Counted q.regions := by
  induction as generalizing p with
  | nil => exact ⟨p, rfl, h⟩
  | cons a as ih =>
    obtain ⟨p₁, hp₁, h₁⟩ := step a h
    rw [List.foldlM_cons, hp₁]
    exact ih h₁

/-- **Finishing ends without a fault.** -/
lemma finish_ok (h : Counted p.regions) (ts : List Tag) (extra : List PhysRange) :
    ∃ notices m, p.finish ts extra = .ok (notices, m) := by
  have hsection : ∀ {p : Progress} (s : ImageSection), Counted p.regions →
      ∃ q, p.carveSection s = .ok q ∧ Counted q.regions := by
    intro p s h
    obtain ⟨q, n, hq, hcounted⟩ := reserve_ok (p := p.note (.imageSection s.kind s.bounds.start s.size)) h
      s.bounds.start s.bounds.stop
    exact ⟨_, checked_bind_eq_ok.mpr ⟨_, hq, rfl⟩, hcounted⟩
  have hrange : ∀ {p : Progress} (r : PhysRange), Counted p.regions →
      ∃ q, (do return (← p.reserve r.start r.stop).1 : Checked Progress) = .ok q ∧ Counted q.regions := by
    intro p r h
    obtain ⟨q, n, hq, hcounted⟩ := reserve_ok h r.start r.stop
    exact ⟨q, checked_bind_eq_ok.mpr ⟨_, hq, rfl⟩, hcounted⟩
  obtain ⟨carved, hcarved, hc⟩ := foldlM_ok hsection h (lastSections ts)
  -- the notice about the image changes no region
  cases hi : hull ((lastSections ts).map (·.bounds)) with
  | none =>
    obtain ⟨done, hdone, -⟩ := foldlM_ok (p := carved.note .noImage) hrange hc extra
    exact ⟨_, _, checked_bind_eq_ok.mpr ⟨carved, hcarved, checked_bind_eq_ok.mpr ⟨done, by rw [hi]; exact hdone, rfl⟩⟩⟩
  | some r =>
    obtain ⟨done, hdone, -⟩ := foldlM_ok (p := carved.note (.image r)) hrange hc extra
    exact ⟨_, _, checked_bind_eq_ok.mpr ⟨carved, hcarved, checked_bind_eq_ok.mpr ⟨done, by rw [hi]; exact hdone, rfl⟩⟩⟩

end Progress

/-! ### The items -/

lemma length_tagsFrom (o : Nat) (b : Blob) : (tagsFrom o b).length ≤ b.size / 8 + 1 := by
  fun_induction tagsFrom o b with
  | case4 o b hlong type size hend hlarge hover t ht ih =>
    have hle := le_padded size
    have hheader : headerSize = 8 := rfl
    have hsize : (b.drop (padded size)).size = b.size - padded size := rfl
    rw [List.length_cons]
    omega
  | case1 => exact Nat.zero_le _
  | _ => exact Nat.le_add_left 1 _

lemma tagsFrom_shape (o : Nat) (b : Blob) :
    ∃ ts : List Tag, tagsFrom o b = ts.map .ok ∨ ∃ e, tagsFrom o b = ts.map .ok ++ [.error e] := by
  fun_induction tagsFrom o b with
  | case4 o b hlong type size hend hlarge hover t ht ih =>
    obtain ⟨ts, hts | ⟨e, hts⟩⟩ := ih
    · exact ⟨t :: ts, .inl (by rw [hts, List.map_cons])⟩
    · exact ⟨t :: ts, .inr ⟨e, by rw [hts, List.map_cons, List.cons_append]⟩⟩
  | case1 => exact ⟨[], .inl rfl⟩
  | _ => exact ⟨[], .inr ⟨_, rfl⟩⟩

namespace Information

variable {i : Information} {ts : List Tag}

lemma tags_shape (i : Information) : ∃ ts : List Tag, i.tags = ts.map .ok ∨ ∃ e, i.tags = ts.map .ok ++ [.error e] :=
  tagsFrom_shape headerSize (i.content.drop headerSize)

lemma error_last (i : Information) (e : ParseError) : .error e ∉ i.tags.dropLast := by
  intro he
  obtain ⟨ts, hts | ⟨e', hts⟩⟩ := i.tags_shape
  · simpa [hts] using List.mem_of_mem_dropLast he
  · simp [hts] at he

lemma filterMap_toOption (ts : List Tag) :
    (ts.map .ok : List (Except ParseError Tag)).filterMap (·.toOption) = ts := by
  rw [List.filterMap_map]
  exact List.filterMap_some

lemma of_tags_ok (h : i.tags = ts.map .ok) : i.validTags = ts ∧ i.error? = none := by
  refine ⟨by rw [validTags, h, filterMap_toOption], ?_⟩
  simp [error?, h]

lemma of_tags_error {e : ParseError} (h : i.tags = ts.map .ok ++ [.error e]) :
    i.validTags = ts ∧ i.error? = some e := by
  refine ⟨?_, ?_⟩
  · rw [validTags, h, List.filterMap_append, filterMap_toOption]
    exact List.append_nil ts
  · rw [error?, h]
    clear h
    induction ts with
    | nil => rfl
    | cons t ts ih => exact ih

end Information

/-! ### The image -/

def Covers (r s : PhysRange) : Prop := r.start ≤ s.start ∧ s.stop ≤ r.stop

/-- `image` is the smallest range around all sections of the image, and nothing if there are none. -/
def Information.ImageIs (i : Information) : Option PhysRange → Prop
  | none => ∀ s, ¬ i.HasSection s
  | some r => (∃ s, i.HasSection s) ∧ (∀ s, i.HasSection s → Covers r s.bounds) ∧
      ∀ r', (∀ s, i.HasSection s → Covers r' s.bounds) → Covers r' r

section Hull

variable {r s u : PhysRange} {rs : List PhysRange}

lemma covers_refl (r : PhysRange) : Covers r r := ⟨Nat.le_refl _, Nat.le_refl _⟩

lemma ofBounds_eq {a b : PhysAddr} (h : a ≤ b) : AddrRange.ofBounds a b = ⟨a, b⟩ := by
  have hlt : ¬ b < a := Nat.not_lt.mpr h
  rw [AddrRange.ofBounds, if_neg hlt]

def join (r s : PhysRange) : PhysRange := .ofBounds (min r.start s.start) (max r.stop s.stop)

lemma join_eq (hr : r.start ≤ r.stop) : join r s = ⟨min r.start s.start, max r.stop s.stop⟩ := by
  refine ofBounds_eq ?_
  rw [Addr.le_def, Addr.toNat_min, Addr.toNat_max]
  rw [Addr.le_def] at hr
  omega

lemma covers_foldl (hr : r.start ≤ r.stop) :
    (rs.foldl join r).start ≤ (rs.foldl join r).stop ∧
      (Covers u (rs.foldl join r) ↔ Covers u r ∧ ∀ s ∈ rs, Covers u s) := by
  induction rs generalizing r with
  | nil => exact ⟨hr, by simp⟩
  | cons s rs ih =>
    have hjoin : (join r s).start ≤ (join r s).stop ∧ (Covers u (join r s) ↔ Covers u r ∧ Covers u s) := by
      rw [join_eq hr]
      simp only [Covers, Addr.le_def, Addr.toNat_min, Addr.toNat_max] at hr ⊢
      omega
    obtain ⟨hproper, hcovers⟩ := ih hjoin.1
    refine ⟨hproper, ?_⟩
    rw [List.foldl_cons, hcovers, hjoin.2, List.forall_mem_cons, and_assoc]

/-- **The hull** of ranges that are not inverted is the smallest range around them. -/
lemma covers_hull (hrs : ∀ r ∈ rs, r.start ≤ r.stop) (h : hull rs = some r) :
    Covers u r ↔ ∀ s ∈ rs, Covers u s := by
  cases rs with
  | nil => cases h
  | cons s rs =>
    have hs := hrs s (List.mem_cons_self ..)
    obtain rfl : rs.foldl join s = r := by
      rw [← Option.some.inj h, ofBounds_eq hs]
      rfl
    rw [(covers_foldl hs).2, List.forall_mem_cons]

lemma start_le_stop (s : ImageSection) : s.bounds.start ≤ s.bounds.stop := by
  have hstop : s.bounds.stop.toNat = min (s.address.toNat + s.size.toNat) 0xFFFFFFFFFFFFFFFF :=
    Word.toNat_addSaturating ..
  have hlt := s.address.toNat_lt
  rw [Addr.le_def, hstop]
  show s.address.toNat ≤ _
  omega

lemma imageIs_hull (i : Information) : i.ImageIs (hull ((lastSections i.validTags).map (·.bounds))) := by
  have hproper : ∀ r ∈ (lastSections i.validTags).map (·.bounds), r.start ≤ r.stop := by
    rintro r hr
    obtain ⟨s, -, rfl⟩ := List.mem_map.mp hr
    exact start_le_stop s
  have hmem : ∀ s, i.HasSection s ↔ s ∈ lastSections i.validTags := fun s => mem_lastSections.symm
  simp only [Information.ImageIs, hmem]
  generalize lastSections i.validTags = ss at hproper
  cases hh : hull (ss.map (·.bounds)) with
  | none =>
    cases ss with
    | nil => exact nofun
    | cons s ss => cases hh
  | some r =>
    have hcovers := fun u => covers_hull (u := u) hproper hh
    simp only [List.forall_mem_map] at hcovers
    refine ⟨?_, (hcovers r).mp (covers_refl r), fun r' => (hcovers r').mpr⟩
    cases ss with
    | nil => cases hh
    | cons s ss => exact ⟨s, List.mem_cons_self ..⟩

end Hull

/-! ### The boot -/

def bootCalls (i : Information) (extra : List PhysRange) : List RegionTable.Call :=
  (entriesOf i.validTags).map MapEntry.call ++ (reservedRanges i.validTags extra).map reserveCall

/-- How a boot with the tags of `i` ends. -/
structure Outcome (i : Information) (t : RegionTable) (result : Except BootMemoryError BootMemory) : Prop where
  malformed : ∀ e, result = .error (.malformed e) ↔ .error e ∈ i.tags
  noMemoryMap : result = .error .noMemoryMap ↔ (∀ e, .error e ∉ i.tags) ∧ ∀ m, .ok (.memoryMap m) ∉ i.tags
  success : ∀ m, result = .ok m → m.regions = t ∧ i.ImageIs m.image

lemma any_isMemoryMap {ts : List Tag} : (ts.any (·.IsMemoryMap) = true) ↔ ∃ m, .memoryMap m ∈ ts := by
  rw [List.any_eq_true]
  refine ⟨?_, fun ⟨m, hm⟩ => ⟨_, hm, rfl⟩⟩
  rintro ⟨t, ht, hmap⟩
  cases t with
  | memoryMap m => exact ⟨m, ht⟩
  | _ => exact False.elim (of_decide_eq_true hmap)

lemma readMemory_eq {i : Information} {p : Progress} (hp : Progress.tags ⟨.empty, []⟩ i.validTags = .ok p)
    {extra : List PhysRange} {notices : List BootNotice} {m : BootMemory}
    (hf : p.finish i.validTags extra = .ok (notices, m)) : readMemory i extra = .ok (match i.error? with
      | some e => (p.notices ++ [.malformed e], .error (.malformed e))
      | none => if i.validTags.any (·.IsMemoryMap) then (notices, .ok m)
          else (p.notices ++ [.noMemoryMap], .error .noMemoryMap)) := by
  unfold readMemory
  rw [hp]
  dsimp only [bind, Except.bind]
  cases i.error? with
  | some e => rfl
  | none =>
    dsimp only
    rw [hf]
    split <;> rfl

/-- **A boot ends.** All of its calls fit into words, and its tags decide how it ends. -/
lemma readMemory_outcome (i : Information) (extra : List PhysRange) : ∃ notices result t,
    readMemory i extra = .ok (notices, result) ∧ RegionTable.Runs .empty (bootCalls i extra) t ∧
      Outcome i t result := by
  obtain ⟨p, hp, hentering⟩ := Progress.tags_ok (p := ⟨.empty, []⟩) entering_empty i.validTags
  obtain ⟨notices, memory, hfinish⟩ := Progress.finish_ok hentering.counted i.validTags extra
  have hruns := (Progress.Entered.tags hp).runs.append (Progress.Finished.finish hentering.counted hfinish).runs
  have himage := imageIs_hull i
  rw [← (Progress.image_sizes_finish hfinish).1] at himage
  have hread := readMemory_eq hp hfinish
  obtain ⟨ts, hts | ⟨e, hts⟩⟩ := i.tags_shape
  · obtain ⟨hvalid, hnone⟩ := Information.of_tags_ok hts
    have hok : ∀ e, .error e ∉ i.tags := by simp [hts]
    have hmaps : ∀ m, .ok (.memoryMap m) ∈ i.tags ↔ .memoryMap m ∈ ts := by simp [hts]
    rw [hnone] at hread
    by_cases hmap : i.validTags.any (·.IsMemoryMap)
    · -- no tag is malformed, and one is a memory map
      rw [if_pos hmap] at hread
      obtain ⟨m, hm⟩ := any_isMemoryMap.mp hmap
      refine ⟨_, _, _, hread, hruns, fun e => ⟨nofun, fun he => absurd he (hok e)⟩, ⟨nofun, fun h => ?_⟩, ?_⟩
      · exact absurd ((hmaps m).mpr (hvalid ▸ hm)) (h.2 m)
      · rintro _ ⟨⟩
        exact ⟨rfl, himage⟩
    · -- there is no memory map
      rw [if_neg hmap] at hread
      refine ⟨_, _, _, hread, hruns, fun e => ⟨nofun, fun he => absurd he (hok e)⟩,
        ⟨fun _ => ⟨hok, fun m hm => hmap (any_isMemoryMap.mpr ⟨m, ?_⟩)⟩, fun _ => rfl⟩, nofun⟩
      rw [hvalid]
      exact (hmaps m).mp hm
  · -- a tag is malformed; its error is the last item, so it is the only one
    obtain ⟨-, herror⟩ := Information.of_tags_error hts
    have herr : ∀ e', .error e' ∈ i.tags ↔ e' = e := by simp [hts]
    rw [herror] at hread
    refine ⟨_, _, _, hread, hruns, fun e' => ?_, ⟨nofun, fun h => absurd ((herr e).mpr rfl) (h.1 e)⟩, nofun⟩
    rw [herr, Except.error.injEq, BootMemoryError.malformed.injEq, eq_comm]

/-- **A boot from untrusted bytes** is free of faults, for all bytes and all further ranges. No slice on the way is out
of bounds. There is at most one tag for every eight bytes and one item more, and an error is the last item. Reading the
memory ends, each change of the table of regions fits into words, and the tags decide how it ends. -/
theorem boot_from_untrusted_bytes (bytes : List UInt8) (extra : List PhysRange) :
    Information.ofBytes? bytes = some (Information.ofBytes bytes) ∧
    ∀ i, Information.ofBytes bytes = .ok i →
      i.tags? = some i.tags ∧
      i.tags.length ≤ (i.totalSize - headerSize) / 8 + 1 ∧
      (∀ before e behind, i.tags = before ++ .error e :: behind → behind = []) ∧
      ∃ notices result t, readMemory i extra = .ok (notices, result) ∧
        RegionTable.Runs .empty (bootCalls i extra) t ∧ Outcome i t result := by
  refine ⟨Information.ofBytes?_eq, fun i hi => ⟨Information.tags?_eq hi, length_tagsFrom .., ?_,
    readMemory_outcome i extra⟩⟩
  intro before e behind h
  by_contra hne
  refine i.error_last e ?_
  rw [h, List.dropLast_append_of_ne_nil (List.cons_ne_nil _ _), List.dropLast_cons_of_ne_nil hne]
  simp

/-- A truncated record ends the boot, also with an inverted range. -/
theorem boot_from_truncated_bytes : ∃ i notices, Information.ofBytes (encode truncated) = .ok i ∧
    readMemory i [⟨⟨0x5000⟩, ⟨0x4000⟩⟩] = .ok (notices, .error (.malformed (.truncatedTag 4 9))) := by
  have hwritable : ∀ r ∈ truncated, r.Writable := by
    unfold Record.Writable
    decide
  obtain ⟨i, hi, htags⟩ := ofBytes_encode hwritable (by decide)
  obtain ⟨-, -, -, notices, result, t, hread, -, houtcome⟩ :=
    (boot_from_untrusted_bytes (encode truncated) [⟨⟨0x5000⟩, ⟨0x4000⟩⟩]).2 i hi
  have htwo : i.tags = [.ok (.other 21 12), .error (.truncatedTag 4 9)] := htags.trans rfl
  obtain rfl := (houtcome.malformed (.truncatedTag 4 9)).mpr (by simp [htwo])
  exact ⟨i, notices, hi, hread⟩

end Nucleus.Boot
