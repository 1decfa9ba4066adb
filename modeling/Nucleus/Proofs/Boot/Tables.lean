import Nucleus.Proofs.Boot.Records

/-!
The tables in the boot information: the entries of the memory map and the section headers of the image. Both are cut
into pieces of a size that the table declares, which may be larger than the known fields. What is written as a table is
read back entry by entry, whatever the bytes between and behind the entries are; and a table is refused only if it is
too short for what it declares or declares entries that are too small, so it has as many entries as announced.
-/

namespace Nucleus.Boot

/-! ### Pieces -/

/-- **Pieces of equal length** are cut off one by one, whatever follows them. -/
lemma pieces_flatMap {α : Type} {f : α → List UInt8} {n : Nat} (hn : 0 < n) {as : List α}
    (h : ∀ a ∈ as, (f a).length = n) (rest : List UInt8) :
    pieces n as.length (as.flatMap f ++ rest) = as.map f := by
  induction as with
  | nil => rfl
  | cons a as ih =>
    have hlen : (f a).length = n := h a (List.mem_cons_self ..)
    rw [List.flatMap_cons, List.append_assoc, List.length_cons, List.map_cons]
    cases hbytes : f a ++ (as.flatMap f ++ rest) with
    | nil =>
      rw [(List.append_eq_nil_iff.mp hbytes).1, List.length_nil] at hlen
      omega
    | cons b bs =>
      rw [pieces, ← hbytes, List.take_left' hlen, List.drop_left' hlen,
        ih fun c hc => h c (List.mem_cons_of_mem a hc)]

lemma length_flatMap_of_length {α : Type} {f : α → List UInt8} {n : Nat} {as : List α}
    (h : ∀ a ∈ as, (f a).length = n) : (as.flatMap f).length = as.length * n := by
  rw [List.length_flatMap, List.map_congr_left h, List.map_const', List.sum_replicate_nat]

/-! ### Fields -/

lemma u32_behind (width n : Nat) (s : List UInt8) (i : Nat) : u32 (bytesOf width n ++ s) (width + i) = u32 s i := by
  have h := u32_append (bytesOf width n) s i
  rwa [length_bytesOf] at h

lemma u64_append (pre s : List UInt8) (i : Nat) : u64 (pre ++ s) (pre.length + i) = u64 s i := by
  rw [u64, List.drop_length_add_append, u64]

lemma u64_behind (width n : Nat) (s : List UInt8) (i : Nat) : u64 (bytesOf width n ++ s) (width + i) = u64 s i := by
  have h := u64_append (bytesOf width n) s i
  rwa [length_bytesOf] at h

lemma u64_bytesOf (w : UInt64) (s : List UInt8) : u64 (bytesOf 8 w.toNat ++ s) 0 = w := by
  rw [u64, List.drop_zero, List.take_left' (length_bytesOf 8 _), number_bytesOf w.toNat_lt]
  exact UInt64.ofNat_toNat

/-! ### The memory map -/

/-- An entry of the memory map as it is written; the bytes behind its fields have no meaning. -/
structure MapRecord where
  base : UInt64
  length : UInt64
  type : UInt32
  rest : List UInt8

namespace MapRecord

def entry (r : MapRecord) : MapEntry := ⟨r.base, r.length, ⟨r.type.toNat⟩⟩

def encode (r : MapRecord) : List UInt8 :=
  bytesOf 8 r.base.toNat ++ (bytesOf 8 r.length.toNat ++ (bytesOf 4 r.type.toNat ++ r.rest))

lemma ofBytes_encode (r : MapRecord) : MapEntry.ofBytes r.encode = r.entry := by
  have hbase : u64 r.encode 0 = r.base := u64_bytesOf ..
  have hlength : u64 r.encode (8 + 0) = r.length := by rw [encode, u64_behind, u64_bytesOf]
  have htype : u32 r.encode (8 + (8 + 0)) = r.type.toNat := by
    rw [encode, u32_behind, u32_behind, u32_bytesOf r.type.toNat_lt]
  unfold MapEntry.ofBytes entry
  rw [hbase, hlength, htype]

end MapRecord

/-- The body of a memory map with entries of the given size, and a fragment that is not a whole entry. -/
def encodeMemoryMap (entrySize version : UInt32) (rs : List MapRecord) (fragment : List UInt8) : List UInt8 :=
  bytesOf 4 entrySize.toNat ++ (bytesOf 4 version.toNat ++ (rs.flatMap MapRecord.encode ++ fragment))

lemma MemoryMap.ofBody_ofList (body : List UInt8) : ofBody (.ofList body) =
    if body.length < 8 then .error (.truncatedTag memoryMapType (body.length + headerSize))
    else if u32 body 0 < 24 then .error (.invalidEntrySize memoryMapType (u32 body 0))
    else .ok ⟨u32 body 4,
      (pieces (u32 body 0) ((body.length - 8) / u32 body 0) (body.drop 8)).map MapEntry.ofBytes⟩ := rfl

/-- **A memory map** that is written is read back. -/
lemma MemoryMap.ofBody_encode {entrySize version : UInt32} {rs : List MapRecord} {fragment : List UInt8}
    (hsize : 24 ≤ entrySize.toNat) (hrs : ∀ r ∈ rs, r.encode.length = entrySize.toNat)
    (hfragment : fragment.length < entrySize.toNat) :
    ofBody (.ofList (encodeMemoryMap entrySize version rs fragment)) =
      .ok ⟨version.toNat, rs.map MapRecord.entry⟩ := by
  have hentry : u32 (encodeMemoryMap entrySize version rs fragment) 0 = entrySize.toNat :=
    u32_bytesOf entrySize.toNat_lt _
  have hversion : u32 (encodeMemoryMap entrySize version rs fragment) 4 = version.toNat :=
    u32_second version.toNat_lt _
  have hdrop : (encodeMemoryMap entrySize version rs fragment).drop 8 = rs.flatMap MapRecord.encode ++ fragment :=
    drop_header [] ..
  have hlength : (encodeMemoryMap entrySize version rs fragment).length =
      8 + (rs.length * entrySize.toNat + fragment.length) := by
    simp only [encodeMemoryMap, List.length_append, length_bytesOf, length_flatMap_of_length hrs]
    omega
  have hcount : (rs.length * entrySize.toNat + fragment.length) / entrySize.toNat = rs.length := by
    rw [Nat.mul_comm, Nat.mul_add_div (by omega), Nat.div_eq_of_lt hfragment, Nat.add_zero]
  have hentries : rs.map (MapEntry.ofBytes ∘ MapRecord.encode) = rs.map MapRecord.entry :=
    List.map_congr_left fun r _ => r.ofBytes_encode
  rw [ofBody_ofList, hentry, hversion, hdrop, hlength, Nat.add_sub_cancel_left, hcount, if_neg (by omega),
    if_neg (by omega), pieces_flatMap (by omega) hrs, List.map_map, hentries]

lemma MemoryMap.refused_iff (body : List UInt8) :
    (∃ e, ofBody (.ofList body) = .error e) ↔ body.length < 8 ∨ u32 body 0 < 24 := by
  rw [ofBody_ofList]
  split_ifs with hshort hsmall
  · simp [hshort]
  · simp [hsmall]
  · simp [hshort, hsmall]

lemma MemoryMap.length_entries {body : List UInt8} {m : MemoryMap} (h : ofBody (.ofList body) = .ok m) :
    m.entries.length = (body.length - 8) / u32 body 0 := by
  rw [ofBody_ofList] at h
  split_ifs at h with hshort hsmall
  cases h
  rw [List.length_map, length_pieces (by omega)]
  rw [List.length_drop]
  exact Nat.div_mul_le_self ..

/-! ### Section headers -/

/-- A section header as it is written; the bytes behind its fields have no meaning. -/
structure SectionRecord where
  name : UInt32
  type : UInt32
  flags : UInt64
  address : UInt64
  offset : UInt64
  size : UInt64
  link : UInt32
  info : UInt32
  alignment : UInt64
  entrySize : UInt64
  rest : List UInt8

namespace SectionRecord

/-- What the header says that the kernel cares about; of the flags the lowest three. -/
def summary (r : SectionRecord) : ImageSection := ⟨r.type.toNat, r.flags &&& 7, r.address, r.size⟩

def encode (r : SectionRecord) : List UInt8 :=
  bytesOf 4 r.name.toNat ++ (bytesOf 4 r.type.toNat ++ (bytesOf 8 r.flags.toNat ++ (bytesOf 8 r.address.toNat ++
    (bytesOf 8 r.offset.toNat ++ (bytesOf 8 r.size.toNat ++ (bytesOf 4 r.link.toNat ++ (bytesOf 4 r.info.toNat ++
      (bytesOf 8 r.alignment.toNat ++ (bytesOf 8 r.entrySize.toNat ++ r.rest)))))))))

lemma ofBytes_encode (r : SectionRecord) : ImageSection.ofBytes r.encode = r.summary := by
  have htype : u32 r.encode (4 + 0) = r.type.toNat := by
    rw [encode, u32_behind, u32_bytesOf r.type.toNat_lt]
  have hflags : u64 r.encode (4 + (4 + 0)) = r.flags := by
    rw [encode, u64_behind, u64_behind, u64_bytesOf]
  have haddress : u64 r.encode (4 + (4 + (8 + 0))) = r.address := by
    rw [encode, u64_behind, u64_behind, u64_behind, u64_bytesOf]
  have hsize : u64 r.encode (4 + (4 + (8 + (8 + (8 + 0))))) = r.size := by
    rw [encode, u64_behind, u64_behind, u64_behind, u64_behind, u64_behind, u64_bytesOf]
  unfold ImageSection.ofBytes summary
  rw [htype, hflags, haddress, hsize]
  rfl

end SectionRecord

/-- The body of a table of section headers of the given size, with bytes behind the table. -/
def encodeSections (entrySize stringTable : UInt32) (rs : List SectionRecord) (behind : List UInt8) : List UInt8 :=
  bytesOf 4 rs.length ++ (bytesOf 4 entrySize.toNat ++ (bytesOf 4 stringTable.toNat ++
    (rs.flatMap SectionRecord.encode ++ behind)))

lemma ImageSections.ofBody_ofList (body : List UInt8) : ofBody (.ofList body) =
    if body.length < 12 then .error (.truncatedTag sectionsType (body.length + headerSize))
    else if u32 body 4 < 64 then .error (.invalidEntrySize sectionsType (u32 body 4))
    else if body.length - 12 < u32 body 0 * u32 body 4 then
      .error (.truncatedTag sectionsType (body.length + headerSize))
    else .ok ⟨u32 body 8, (pieces (u32 body 4) (u32 body 0) (body.drop 12)).map ImageSection.ofBytes⟩ := rfl

/-- **A table of section headers** that is written is read back. -/
lemma ImageSections.ofBody_encode {entrySize stringTable : UInt32} {rs : List SectionRecord} {behind : List UInt8}
    (hsize : 64 ≤ entrySize.toNat) (hcount : rs.length < 0x100000000)
    (hrs : ∀ r ∈ rs, r.encode.length = entrySize.toNat) :
    ofBody (.ofList (encodeSections entrySize stringTable rs behind)) =
      .ok ⟨stringTable.toNat, rs.map SectionRecord.summary⟩ := by
  have hnum : u32 (encodeSections entrySize stringTable rs behind) 0 = rs.length := u32_bytesOf hcount _
  have hentry : u32 (encodeSections entrySize stringTable rs behind) 4 = entrySize.toNat :=
    u32_second entrySize.toNat_lt _
  have hstrings : u32 (encodeSections entrySize stringTable rs behind) 8 = stringTable.toNat := by
    show u32 _ (4 + (4 + 0)) = _
    rw [encodeSections, u32_behind, u32_behind, u32_bytesOf stringTable.toNat_lt]
  have hdrop : (encodeSections entrySize stringTable rs behind).drop 12 = rs.flatMap SectionRecord.encode ++ behind :=
    drop_header (bytesOf 4 rs.length) ..
  have hlength : (encodeSections entrySize stringTable rs behind).length =
      12 + (rs.length * entrySize.toNat + behind.length) := by
    simp only [encodeSections, List.length_append, length_bytesOf, length_flatMap_of_length hrs]
    omega
  have hsections : rs.map (ImageSection.ofBytes ∘ SectionRecord.encode) = rs.map SectionRecord.summary :=
    List.map_congr_left fun r _ => r.ofBytes_encode
  rw [ofBody_ofList, hnum, hentry, hstrings, hdrop, hlength, if_neg (by omega), if_neg (by omega), if_neg (by omega),
    pieces_flatMap (by omega) hrs, List.map_map, hsections]

lemma ImageSections.refused_iff (body : List UInt8) : (∃ e, ofBody (.ofList body) = .error e) ↔
    body.length < 12 ∨ u32 body 4 < 64 ∨ body.length - 12 < u32 body 0 * u32 body 4 := by
  rw [ofBody_ofList]
  split_ifs with hshort hsmall hlong
  · simp [hshort]
  · simp [hsmall]
  · simp [hlong]
  · simp [hshort, hsmall, hlong]

lemma ImageSections.length_sections {body : List UInt8} {s : ImageSections} (h : ofBody (.ofList body) = .ok s) :
    s.sections.length = u32 body 0 := by
  rw [ofBody_ofList] at h
  split_ifs at h with hshort hsmall hlong
  cases h
  rw [List.length_map, length_pieces (by omega)]
  rw [List.length_drop]
  omega

/-- **Tables are read exactly.** The entries of a memory map are read back for every size of an entry, with any bytes
between the entries and a fragment of an entry behind them, and so are section headers with any bytes behind the table.
A body is refused exactly if it is too short for its fields or for the sections that it announces, or if its entries
are too small; otherwise as many entries are read as fit in, and as many sections as are announced. -/
theorem tables_read_exactly :
    (∀ (entrySize version : UInt32) (rs : List MapRecord) (fragment : List UInt8), 24 ≤ entrySize.toNat →
      (∀ r ∈ rs, r.encode.length = entrySize.toNat) → fragment.length < entrySize.toNat →
      MemoryMap.ofBody (.ofList (encodeMemoryMap entrySize version rs fragment)) =
        .ok ⟨version.toNat, rs.map MapRecord.entry⟩) ∧
    (∀ (entrySize stringTable : UInt32) (rs : List SectionRecord) (behind : List UInt8), 64 ≤ entrySize.toNat →
      rs.length < 0x100000000 → (∀ r ∈ rs, r.encode.length = entrySize.toNat) →
      ImageSections.ofBody (.ofList (encodeSections entrySize stringTable rs behind)) =
        .ok ⟨stringTable.toNat, rs.map SectionRecord.summary⟩) ∧
    ∀ body : List UInt8,
      ((∃ e, MemoryMap.ofBody (.ofList body) = .error e) ↔ body.length < 8 ∨ u32 body 0 < 24) ∧
      (∀ m, MemoryMap.ofBody (.ofList body) = .ok m → m.entries.length = (body.length - 8) / u32 body 0) ∧
      ((∃ e, ImageSections.ofBody (.ofList body) = .error e) ↔
        body.length < 12 ∨ u32 body 4 < 64 ∨ body.length - 12 < u32 body 0 * u32 body 4) ∧
      ∀ s, ImageSections.ofBody (.ofList body) = .ok s → s.sections.length = u32 body 0 :=
  ⟨fun _ _ _ _ hsize hrs hfragment => MemoryMap.ofBody_encode hsize hrs hfragment,
    fun _ _ _ _ hsize hcount hrs => ImageSections.ofBody_encode hsize hcount hrs,
    fun body => ⟨MemoryMap.refused_iff body, fun _ => MemoryMap.length_entries, ImageSections.refused_iff body,
      fun _ => ImageSections.length_sections⟩⟩

/-- Two entries of 26 bytes, of which the last six have no meaning. -/
def wideEntries : List MapRecord :=
  [⟨0, 0x9FC00, 1, [1, 2, 3, 4, 5, 6]⟩, ⟨0x100000, 0xFFFFFFFFFFFFFFFF, 7, [0, 0, 0, 0, 9, 9]⟩]

/-- A header with flags beyond the lowest three. -/
def flaggedSections : List SectionRecord :=
  [⟨1, 8, 0xF000000000000032, 0x107000, 0x2000, 0x4000, 0, 0, 16, 0, [255]⟩]

/-- The wide entries are read back in front of three further bytes, and the header in front of one. -/
theorem tables_read_exactly_wide :
    MemoryMap.ofBody (.ofList (encodeMemoryMap 26 0 wideEntries [7, 7, 7])) =
        .ok ⟨0, [⟨0, 0x9FC00, ⟨1⟩⟩, ⟨0x100000, 0xFFFFFFFFFFFFFFFF, ⟨7⟩⟩]⟩ ∧
      ImageSections.ofBody (.ofList (encodeSections 65 3 flaggedSections [1])) =
        .ok ⟨3, [⟨8, 0x2, 0x107000, 0x4000⟩]⟩ :=
  ⟨tables_read_exactly.1 26 0 wideEntries [7, 7, 7] (by decide) (by decide) (by decide),
    tables_read_exactly.2.1 65 3 flaggedSections [1] (by decide) (by decide) (by decide)⟩

end Nucleus.Boot
