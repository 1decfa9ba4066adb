import Nucleus.Proofs.Boot.Records

/-!
Boot information read with checks. Each definition reads as its namesake does, but gives nothing where a slice ends
behind the bytes, a table is cut into pieces without bytes, or an offset does not fit into a word. None of this ever
happens, whatever the bytes are.
-/

namespace Nucleus.Boot

/-! ### Slices -/

/-- The bytes from `lo` on and below `hi`, if there are as many. -/
def slice? (bs : List UInt8) (lo hi : Nat) : Option (List UInt8) :=
  if lo ≤ hi ∧ hi ≤ bs.length then some ((bs.take hi).drop lo) else none

def u32? (bs : List UInt8) (i : Nat) : Option Nat := (slice? bs i (i + 4)).map number

def u64? (bs : List UInt8) (i : Nat) : Option UInt64 := (slice? bs i (i + 8)).map fun s => UInt64.ofNat (number s)

/-- All complete pieces of `n` bytes, unless they have none. -/
def pieces? (n : Nat) (bs : List UInt8) : Option (List (List UInt8)) :=
  if n = 0 then none else some (pieces n (bs.length / n) bs)

def word? (n : Nat) : Option Nat := if n < 0x10000000000000000 then some n else none

variable {bs body : List UInt8} {i n k : Nat}

lemma slice?_eq {lo hi : Nat} (h : lo ≤ hi) (h' : hi ≤ bs.length) : slice? bs lo hi = some ((bs.take hi).drop lo) :=
  if_pos ⟨h, h'⟩

lemma slice?_rest (h : i ≤ bs.length) : slice? bs i bs.length = some (bs.drop i) := by
  rw [slice?_eq h (Nat.le_refl _), List.take_length]

lemma word?_eq (h : n < 0x10000000000000000) : word? n = some n := if_pos h

lemma u32?_eq (h : i + 4 ≤ bs.length) : u32? bs i = some (u32 bs i) := by
  rw [u32?, slice?_eq (by omega) h, u32, List.drop_take, Nat.add_sub_cancel_left]
  rfl

lemma u64?_eq (h : i + 8 ≤ bs.length) : u64? bs i = some (u64 bs i) := by
  rw [u64?, slice?_eq (by omega) h, u64, List.drop_take, Nat.add_sub_cancel_left]
  rfl

lemma length_of_mem_pieces (h : k * n ≤ bs.length) {raw : List UInt8} (hraw : raw ∈ pieces n k bs) : raw.length = n := by
  induction k generalizing bs with
  | zero => cases hraw
  | succ k ih =>
    rw [Nat.succ_mul] at h
    cases bs with
    | nil => cases hraw
    | cons b bs =>
      rcases List.mem_cons.mp hraw with rfl | hraw
      · rw [List.length_take]
        omega
      · exact ih (by rw [List.length_drop]; omega) hraw

lemma take_pieces {m : Nat} (h : k ≤ m) : (pieces n m bs).take k = pieces n k bs := by
  induction k generalizing m bs with
  | zero => rfl
  | succ k ih =>
    obtain ⟨m, rfl⟩ : ∃ l, m = l + 1 := ⟨m - 1, by omega⟩
    cases bs with
    | nil => rfl
    | cons b bs => rw [pieces, pieces, List.take_succ_cons, ih (by omega)]

lemma mapM_eq_map {α β : Type} {f : α → Option β} {g : α → β} {as : List α} (h : ∀ a ∈ as, f a = some (g a)) :
    as.mapM f = some (as.map g) := by
  induction as with
  | nil => rfl
  | cons a as ih =>
    rw [List.mapM_cons, h a (List.mem_cons_self ..), ih fun b hb => h b (List.mem_cons_of_mem _ hb)]
    rfl

/-! ### Records -/

def text? (type : Nat) (body : List UInt8) : Option (Except ParseError String) := do
  let s ← slice? body 0 (body.findIdx (· = 0))
  return match String.fromUTF8? ⟨s.toArray⟩ with
    | some s => .ok s
    | none => .error (.invalidText type)

lemma text?_eq (type : Nat) : text? type body = some (text type (.ofList body)) := by
  have hzero : body.takeWhile (· ≠ 0) = body.take (body.findIdx (· = 0)) := by
    simp [List.takeWhile_eq_take_findIdx_not]
  rw [text?, slice?_eq (Nat.zero_le _) List.findIdx_le_length, text]
  dsimp only [Blob.ofList]
  rw [hzero]
  rfl

def MapEntry.ofBytes? (raw : List UInt8) : Option MapEntry :=
  return ⟨← u64? raw 0, ← u64? raw 8, ⟨← u32? raw 16⟩⟩

lemma MapEntry.ofBytes?_eq {raw : List UInt8} (h : MapEntry.size ≤ raw.length) :
    ofBytes? raw = some (ofBytes raw) := by
  have hsize : MapEntry.size = 24 := rfl
  rw [ofBytes?, u64?_eq (by omega), u64?_eq (by omega), u32?_eq (by omega)]
  rfl

def MemoryMap.ofBody? (body : List UInt8) : Option (Except ParseError MemoryMap) := do
  if body.length < 8 then return .error (.truncatedTag memoryMapType (body.length + headerSize))
  else
    let entrySize ← u32? body 0
    if entrySize < MapEntry.size then return .error (.invalidEntrySize memoryMapType entrySize)
    else
      let version ← u32? body 4
      let raws ← pieces? entrySize (← slice? body 8 body.length)
      return .ok ⟨version, ← raws.mapM MapEntry.ofBytes?⟩

lemma MemoryMap.ofBody?_eq : ofBody? body = some (ofBody (.ofList body)) := by
  have hlength : (Blob.ofList body).size = body.length := rfl
  have hbytes : (Blob.ofList body).bytes = body := rfl
  rw [ofBody?, ofBody, hlength, hbytes, Blob.drop_ofList]
  by_cases hshort : body.length < 8
  · rw [if_pos hshort, if_pos hshort]
    rfl
  rw [if_neg hshort, if_neg hshort, u32?_eq (by omega)]
  dsimp only [Option.bind_some, bind, Option.bind]
  by_cases hentry : u32 body 0 < MapEntry.size
  · rw [if_pos hentry, if_pos hentry]
    rfl
  have hsize : MapEntry.size = 24 := rfl
  rw [if_neg hentry, if_neg hentry, u32?_eq (by omega), slice?_rest (by omega)]
  dsimp only
  rw [pieces?, if_neg (by omega)]
  dsimp only
  rw [mapM_eq_map fun raw hraw => MapEntry.ofBytes?_eq ?_]
  · rfl
  · rw [length_of_mem_pieces (Nat.div_mul_le_self ..) hraw]
    omega

def ImageSection.ofBytes? (raw : List UInt8) : Option ImageSection :=
  return ⟨← u32? raw 4, (← u64? raw 8) &&& flagMask, ← u64? raw 16, ← u64? raw 32⟩

lemma ImageSection.ofBytes?_eq {raw : List UInt8} (h : ImageSection.headerSize ≤ raw.length) :
    ofBytes? raw = some (ofBytes raw) := by
  have hsize : ImageSection.headerSize = 64 := rfl
  rw [ofBytes?, u32?_eq (by omega), u64?_eq (by omega), u64?_eq (by omega), u64?_eq (by omega)]
  rfl

def ImageSections.ofBody? (body : List UInt8) : Option (Except ParseError ImageSections) := do
  if body.length < 12 then return .error (.truncatedTag sectionsType (body.length + headerSize))
  else
    let count ← u32? body 0
    let entrySize ← u32? body 4
    if entrySize < ImageSection.headerSize then return .error (.invalidEntrySize sectionsType entrySize)
    else
      let rest ← slice? body 12 body.length
      if rest.length < count * entrySize then
        return .error (.truncatedTag sectionsType (body.length + headerSize))
      else
        let stringTable ← u32? body 8
        let raws ← pieces? entrySize rest
        return .ok ⟨stringTable, ← (raws.take count).mapM ImageSection.ofBytes?⟩

lemma ImageSections.ofBody?_eq : ofBody? body = some (ofBody (.ofList body)) := by
  have hlength : ∀ bs, (Blob.ofList bs).size = bs.length := fun _ => rfl
  have hbytes : ∀ bs, (Blob.ofList bs).bytes = bs := fun _ => rfl
  rw [ofBody?, ofBody, hlength, hbytes, Blob.drop_ofList]
  by_cases hshort : body.length < 12
  · rw [if_pos hshort, if_pos hshort]
    rfl
  rw [if_neg hshort, if_neg hshort, u32?_eq (by omega), u32?_eq (by omega)]
  dsimp only [bind, Option.bind]
  by_cases hentry : u32 body 4 < ImageSection.headerSize
  · rw [if_pos hentry, if_pos hentry]
    rfl
  have hsize : ImageSection.headerSize = 64 := rfl
  rw [if_neg hentry, if_neg hentry, slice?_rest (by omega), hlength]
  dsimp only
  by_cases hcount : (body.drop 12).length < u32 body 0 * u32 body 4
  · rw [if_pos hcount, if_pos hcount]
    rfl
  rw [if_neg hcount, if_neg hcount, u32?_eq (by omega), pieces?, if_neg (by omega)]
  dsimp only
  rw [take_pieces ((Nat.le_div_iff_mul_le (by omega)).mpr (Nat.le_of_not_lt hcount)),
    mapM_eq_map fun raw hraw => ImageSection.ofBytes?_eq ?_]
  · rfl
  · rw [length_of_mem_pieces (Nat.le_of_not_lt hcount) hraw]
    omega

def Tag.ofBody? (type : Nat) (body : List UInt8) : Option (Except ParseError Tag) :=
  match type with
  | 1 => return (← text? type body).map .commandLine
  | 2 => return (← text? type body).map .loaderName
  | 4 => do
    if body.length < 8 then return .error (.truncatedTag type (body.length + headerSize))
    else return .ok (.memorySizes ⟨← u32? body 0, ← u32? body 4⟩)
  | 6 => return (← MemoryMap.ofBody? body).map .memoryMap
  | 9 => return (← ImageSections.ofBody? body).map .sections
  | _ => return .ok (.other type (body.length + headerSize))

lemma Tag.ofBody?_eq (type : Nat) : ofBody? type body = some (ofBody type (.ofList body)) := by
  fun_cases ofBody type (.ofList body) with
  | case1 | case2 =>
    rw [ofBody?, text?_eq]
    rfl
  | case3 hshort =>
    rw [ofBody?]
    exact if_pos hshort
  | case4 hlong =>
    have hlength : ¬ body.length < 8 := hlong
    rw [ofBody?, u32?_eq (by omega), u32?_eq (by omega)]
    exact if_neg hlong
  | case5 =>
    rw [ofBody?, MemoryMap.ofBody?_eq]
    rfl
  | case6 =>
    rw [ofBody?, ImageSections.ofBody?_eq]
    rfl
  | case7 h₁ h₂ h₄ h₆ h₉ =>
    rw [ofBody?]
    · rfl
    all_goals assumption

/-! ### Boot information -/

/-- The tags of the records from `offset` on; the padding of the last one may be cut off. -/
def tagsFrom? (content : List UInt8) (offset : Nat) : Option (List (Except ParseError Tag)) := do
  let _ ← word? (offset + headerSize)
  if _long : offset + headerSize ≤ content.length then
    let type ← u32? content offset
    let size ← u32? content (offset + 4)
    if type = 0 then return []
    else if _large : headerSize ≤ size then
      if content.length - offset < size then return [.error (.tagOverrun offset size)]
      else
        let _ ← word? (offset + padded size)
        match ← Tag.ofBody? type (← slice? content (offset + headerSize) (offset + size)) with
        | .error e => return [.error e]
        | .ok t => return .ok t :: (← tagsFrom? content (min (offset + padded size) content.length))
    else return [.error (.tagTooSmall offset size)]
  else return [.error .missingEndTag]
termination_by content.length - offset
decreasing_by
  have := le_padded size
  simp only [headerSize] at _long _large
  omega

/-- **No slice ends behind the content** while the tags are read, and no offset is too large for a word. -/
lemma tagsFrom?_eq {content : List UInt8} (hsmall : content.length < 0x100000000) {offset : Nat}
    (h : offset ≤ content.length) :
    tagsFrom? content offset = some (tagsFrom offset (window content content.length offset)) := by
  have hheader : headerSize = 8 := rfl
  have hfits := Nat.le_refl content.length
  induction hn : content.length - offset using Nat.strong_induction_on generalizing offset with
  | _ n ih =>
  rw [tagsFrom?, tagsFrom_window hfits, word?_eq (by omega)]
  dsimp only [bind, Option.bind]
  by_cases hlong : offset + headerSize ≤ content.length
  swap
  · rw [dif_neg hlong, if_neg hlong]
    rfl
  rw [dif_pos hlong, if_pos hlong, u32?_eq (by omega), u32?_eq (by omega)]
  dsimp only
  by_cases hend : u32 content offset = 0
  · rw [if_pos hend, if_pos hend]
    rfl
  rw [if_neg hend, if_neg hend]
  by_cases hlarge : headerSize ≤ u32 content (offset + 4)
  swap
  · rw [dif_neg hlarge, if_neg hlarge]
    rfl
  rw [dif_pos hlarge, if_pos hlarge]
  by_cases hover : content.length - offset < u32 content (offset + 4)
  · rw [if_pos hover, if_pos (by omega)]
    rfl
  have hle := le_padded (u32 content (offset + 4))
  have hpadded : padded (u32 content (offset + 4)) ≤ u32 content (offset + 4) + 7 := Nat.div_mul_le_self ..
  rw [if_neg hover, if_neg (by omega), word?_eq (by omega), slice?_eq (by omega) (by omega)]
  dsimp only
  rw [Tag.ofBody?_eq]
  dsimp only
  have hrecord : (recordAt content offset).tag = Tag.ofBody (u32 content offset)
    (.ofList ((content.take (offset + u32 content (offset + 4))).drop (offset + headerSize))) := rfl
  rw [hrecord]
  generalize Tag.ofBody (u32 content offset) _ = tag
  cases tag with
  | error e => rfl
  | ok t =>
    dsimp only
    rw [ih _ (by omega) (by omega) rfl]
    -- the padding of the last record may be cut off
    by_cases hcut : offset + padded (u32 content (offset + 4)) ≤ content.length
    · rw [Nat.min_eq_left hcut]
      rfl
    · rw [Nat.min_eq_right (by omega), tagsFrom_behind hfits (by omega), tagsFrom_behind hfits (by omega)]
      rfl

namespace Information

def ofBytes? (bs : List UInt8) : Option (Except ParseError Information) := do
  if bs.length < headerSize then return .error (.invalidTotalSize bs.length)
  else
    let size ← u32? bs 0
    if size < headerSize ∨ bs.length < size then return .error (.invalidTotalSize size)
    else return .ok ⟨.ofList (← slice? bs 0 size)⟩

def tags? (i : Information) : Option (List (Except ParseError Tag)) := tagsFrom? i.content.bytes headerSize

lemma ofBytes?_eq : ofBytes? bs = some (ofBytes bs) := by
  have hlength : (Blob.ofList bs).size = bs.length := rfl
  have hbytes : (Blob.ofList bs).bytes = bs := rfl
  rw [ofBytes?, ofBytes, ofBlob, hlength, hbytes]
  by_cases hshort : bs.length < headerSize
  · rw [if_pos hshort, if_pos hshort]
    rfl
  have hheader : headerSize = 8 := rfl
  rw [if_neg hshort, if_neg hshort, u32?_eq (by omega)]
  dsimp only [bind, Option.bind]
  by_cases hsize : u32 bs 0 < headerSize ∨ bs.length < u32 bs 0
  · rw [if_pos hsize, if_pos hsize]
    rfl
  · rw [if_neg hsize, if_neg hsize, slice?_eq (by omega) (by omega), Blob.take_ofList]
    rfl

lemma tags?_eq {i : Information} (h : ofBytes bs = .ok i) : i.tags? = some i.tags := by
  obtain ⟨hlarge, hfits, rfl⟩ := ofBytes_eq_ok.mp h
  have hlength : (bs.take (u32 bs 0)).length = u32 bs 0 := List.length_take_of_le hfits
  have hlt := u32_lt bs 0
  rw [tags?, tags_of_ofBytes h]
  dsimp only [Blob.ofList]
  rw [tagsFrom?_eq (by omega) (by omega), hlength, window, List.take_take, Nat.min_self, window]

end Information

end Nucleus.Boot
