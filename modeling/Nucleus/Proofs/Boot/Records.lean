import Mathlib.Data.Nat.Init
import Mathlib.Tactic.Common
import Mathlib.Tactic.SplitIfs
import Nucleus.Boot.Information

/-!
The grammar of the boot information: records at multiples of eight bytes up to an end record. Reading the tags
accepts what the grammar accepts and gives the decoded records in order, up to the first that cannot be decoded.
What is not part of a record has no influence.
-/

namespace Nucleus.Boot

/-! ### The grammar -/

structure Record where
  type : Nat
  body : List UInt8

def Record.tag (r : Record) : Except ParseError Tag := Tag.ofBody r.type (.ofList r.body)

def Record.Accepted (r : Record) : Prop := ∃ t, r.tag = .ok t

def recordAt (bs : List UInt8) (o : Nat) : Record :=
  ⟨u32 bs o, (bs.take (o + u32 bs (o + 4))).drop (o + headerSize)⟩

/-- The first `total` bytes of `bs` hold the records `rs` from the offset `o` on, and an end record behind them. -/
inductive Stream (bs : List UInt8) (total : Nat) : Nat → List Record → Prop
  | done {o : Nat} (aligned : 8 ∣ o) (fits : o + headerSize ≤ total) (type : u32 bs o = 0) : Stream bs total o []
  | record {o : Nat} {rs : List Record} (aligned : 8 ∣ o) (type : u32 bs o ≠ 0)
      (large : headerSize ≤ u32 bs (o + 4)) (fits : o + u32 bs (o + 4) ≤ total)
      (rest : Stream bs total (o + padded (u32 bs (o + 4))) rs) : Stream bs total o (recordAt bs o :: rs)

def upToError {α : Type} : List (Except ParseError α) → List (Except ParseError α)
  | [] => []
  | .error e :: _ => [.error e]
  | .ok a :: rs => .ok a :: upToError rs

/-- The byte `x` is no part of a record from the offset `o` on: it lies behind the declared size, behind the type of
the end record, or in the padding of a record. -/
inductive Idle (bs : List UInt8) (total : Nat) : Nat → Nat → Prop
  | outside {o x : Nat} (outside : total ≤ x) : Idle bs total o x
  | behind {o x : Nat} (fits : o + headerSize ≤ total) (type : u32 bs o = 0) (behind : o + 4 ≤ x) : Idle bs total o x
  | padding {o x : Nat} (type : u32 bs o ≠ 0) (large : headerSize ≤ u32 bs (o + 4))
      (fits : o + u32 bs (o + 4) ≤ total) (first : o + u32 bs (o + 4) ≤ x) (last : x < o + padded (u32 bs (o + 4))) :
      Idle bs total o x
  | later {o x : Nat} (type : u32 bs o ≠ 0) (large : headerSize ≤ u32 bs (o + 4))
      (fits : o + u32 bs (o + 4) ≤ total) (later : o + padded (u32 bs (o + 4)) ≤ x)
      (idle : Idle bs total (o + padded (u32 bs (o + 4))) x) : Idle bs total o x

/-- The byte `x` has no influence: it is reserved in the header, or no part of a record. -/
def Ignored (bs : List UInt8) (x : Nat) : Prop := 4 ≤ x ∧ x < headerSize ∨ Idle bs (u32 bs 0) headerSize x

/-! ### Reading at an offset -/

lemma le_padded (n : Nat) : n ≤ padded n := by
  unfold padded
  omega

lemma dvd_padded (n : Nat) : 8 ∣ padded n := ⟨(n + 7) / 8, Nat.mul_comm ..⟩

lemma u32_lt (bs : List UInt8) (i : Nat) : u32 bs i < 0x100000000 := by
  have hlt := number_lt ((bs.drop i).take 4)
  have hle : ((bs.drop i).take 4).length ≤ 4 := List.length_take_le ..
  exact Nat.lt_of_lt_of_le hlt (Nat.pow_le_pow_right (by decide : 0 < 256) hle)

def window (bs : List UInt8) (total o : Nat) : Blob := .ofList ((bs.take total).drop o)

variable {bs : List UInt8} {total o : Nat}

lemma size_window (h : total ≤ bs.length) : (window bs total o).size = total - o := by
  simp [window, Blob.ofList, h]

lemma drop_window (n : Nat) : (window bs total o).drop n = window bs total (o + n) := by
  rw [window, Blob.drop_ofList, List.drop_drop, window]

lemma u32_window {i : Nat} (h : o + i + 4 ≤ total) : u32 (window bs total o).bytes i = u32 bs (o + i) := by
  unfold u32 window Blob.ofList
  dsimp only
  rw [List.drop_drop, List.drop_take, List.take_take, Nat.min_eq_left (by omega)]

lemma body_window {n : Nat} (h : o + n ≤ total) : ((window bs total o).take n).drop headerSize =
    .ofList ((bs.take (o + n)).drop (o + headerSize)) := by
  rw [window, Blob.take_ofList, Blob.drop_ofList, List.take_drop, List.take_take, Nat.min_eq_left h, List.drop_drop]

/-- What reading the tags from an offset on does, in terms of the bytes. -/
lemma tagsFrom_window (h : total ≤ bs.length) : tagsFrom o (window bs total o) =
    if o + headerSize ≤ total then
      if u32 bs o = 0 then []
      else if headerSize ≤ u32 bs (o + 4) then
        if total < o + u32 bs (o + 4) then [.error (.tagOverrun o (u32 bs (o + 4)))]
        else
          match (recordAt bs o).tag with
          | .error e => [.error e]
          | .ok t => .ok t :: tagsFrom (o + padded (u32 bs (o + 4))) (window bs total (o + padded (u32 bs (o + 4))))
      else [.error (.tagTooSmall o (u32 bs (o + 4)))]
    else [.error .missingEndTag] := by
  have hheader : headerSize = 8 := rfl
  have hsize := size_window (o := o) h
  rw [tagsFrom, hsize]
  by_cases hlong : o + headerSize ≤ total
  swap
  · rw [dif_neg (by omega), if_neg hlong]
  have htype : u32 (window bs total o).bytes 0 = u32 bs o := u32_window (by omega)
  have hnum : u32 (window bs total o).bytes 4 = u32 bs (o + 4) := u32_window (by omega)
  rw [dif_pos (by omega), if_pos hlong]
  dsimp only
  rw [htype, hnum, drop_window]
  by_cases hend : u32 bs o = 0
  · rw [if_pos hend, if_pos hend]
  rw [if_neg hend, if_neg hend]
  by_cases hlarge : headerSize ≤ u32 bs (o + 4)
  swap
  · rw [dif_neg hlarge, if_neg hlarge]
  rw [dif_pos hlarge, if_pos hlarge]
  by_cases hover : total < o + u32 bs (o + 4)
  · rw [if_pos (by omega), if_pos hover]
  · rw [if_neg (by omega), if_neg hover, body_window (by omega)]
    rfl

lemma tagsFrom_behind (h : total ≤ bs.length) (ho : total < o + headerSize) :
    tagsFrom o (window bs total o) = [.error .missingEndTag] := by
  rw [tagsFrom_window h, if_neg (by omega)]

/-! ### The grammar decides -/

/-- **A stream of records** is read as their tags, up to the first that cannot be decoded. -/
lemma Stream.tags {rs : List Record} (h : Stream bs total o rs) (hb : total ≤ bs.length) :
    tagsFrom o (window bs total o) = upToError (rs.map Record.tag) := by
  induction h with
  | done _ fits type => rw [tagsFrom_window hb, if_pos fits, if_pos type, List.map_nil, upToError]
  | @record o rs _ type large fits rest ih =>
    rw [tagsFrom_window hb, if_pos (by omega), if_neg type, if_pos large, if_neg (by omega), List.map_cons]
    cases (recordAt bs o).tag with
    | error e => rfl
    | ok t => rw [upToError, ih]

lemma stream_of_tags (hb : total ≤ bs.length) (ho : 8 ∣ o)
    (h : ∀ e, .error e ∉ tagsFrom o (window bs total o)) :
    ∃ rs, Stream bs total o rs ∧ ∀ r ∈ rs, r.Accepted := by
  have hheader : headerSize = 8 := rfl
  -- the rest of the bytes gets shorter with every record
  induction hn : total - o using Nat.strong_induction_on generalizing o with
  | _ n ih =>
  rw [tagsFrom_window hb] at h
  split_ifs at h with hlong hend hlarge hover
  · exact ⟨[], .done ho hlong hend, nofun⟩
  · exact absurd (List.mem_singleton_self _) (h _)
  · cases ht : (recordAt bs o).tag with
    | error e =>
      rw [ht] at h
      exact absurd (List.mem_singleton_self _) (h e)
    | ok t =>
      rw [ht] at h
      have hle := le_padded (u32 bs (o + 4))
      obtain ⟨rs, hrs, haccepted⟩ := ih _ (by omega) (Nat.dvd_add ho (dvd_padded _))
        (fun e he => h e (List.mem_cons_of_mem _ he)) rfl
      refine ⟨recordAt bs o :: rs, .record ho hend hlarge (by omega) hrs, fun r hr => ?_⟩
      rcases List.mem_cons.mp hr with rfl | hr
      · exact ⟨t, ht⟩
      · exact haccepted r hr
  · exact absurd (List.mem_singleton_self _) (h _)
  · exact absurd (List.mem_singleton_self _) (h _)

lemma upToError_accepted {rs : List Record} (h : ∀ r ∈ rs, r.Accepted) :
    upToError (rs.map Record.tag) = rs.map Record.tag := by
  induction rs with
  | nil => rfl
  | cons r rs ih =>
    obtain ⟨t, ht⟩ := h r (List.mem_cons_self ..)
    rw [List.map_cons, ht, upToError, ih fun s hs => h s (List.mem_cons_of_mem _ hs)]

lemma ok_of_accepted {rs : List Record} (h : ∀ r ∈ rs, r.Accepted) (e : ParseError) :
    .error e ∉ rs.map Record.tag := by
  intro he
  obtain ⟨r, hr, hre⟩ := List.mem_map.mp he
  obtain ⟨t, ht⟩ := h r hr
  rw [ht] at hre
  cases hre

/-! ### Bytes without influence -/

lemma u32_congr {bs' : List UInt8} {i : Nat} (h : ∀ x, i ≤ x → x < i + 4 → bs'[x]? = bs[x]?) :
    u32 bs' i = u32 bs i := by
  unfold u32
  refine congrArg number (List.ext_getElem? fun k => ?_)
  rw [List.getElem?_take, List.getElem?_take]
  split_ifs with hk
  · rw [List.getElem?_drop, List.getElem?_drop, h (i + k) (by omega) (by omega)]
  · rfl

lemma slice_congr {bs' : List UInt8} {lo hi : Nat} (h : ∀ x, lo ≤ x → x < hi → bs'[x]? = bs[x]?) :
    (bs'.take hi).drop lo = (bs.take hi).drop lo := by
  refine List.ext_getElem? fun k => ?_
  rw [List.getElem?_drop, List.getElem?_drop, List.getElem?_take, List.getElem?_take]
  split_ifs with hk
  · exact h _ (by omega) hk
  · rfl

/-- **Reading depends on the records only.** -/
lemma tagsFrom_congr {bs' : List UInt8} (hb : total ≤ bs.length) (hb' : total ≤ bs'.length)
    (h : ∀ x, o ≤ x → ¬ Idle bs total o x → bs'[x]? = bs[x]?) :
    tagsFrom o (window bs' total o) = tagsFrom o (window bs total o) := by
  induction hn : total - o using Nat.strong_induction_on generalizing o with
  | _ n ih =>
  rw [tagsFrom_window hb, tagsFrom_window hb']
  by_cases hlong : o + headerSize ≤ total
  swap
  · rw [if_neg hlong, if_neg hlong]
  have hheader : headerSize = 8 := rfl
  have hle := le_padded (u32 bs (o + 4))
  -- neither the header of the record nor its body is idle, so both sides read the same record
  have htype : u32 bs' o = u32 bs o := u32_congr fun x hx hx' => h x hx fun hidle => by cases hidle <;> omega
  rw [if_pos hlong, if_pos hlong, htype]
  by_cases hend : u32 bs o = 0
  · rw [if_pos hend, if_pos hend]
  have hnum : u32 bs' (o + 4) = u32 bs (o + 4) :=
    u32_congr fun x hx hx' => h x (by omega) fun hidle => by cases hidle <;> omega
  rw [if_neg hend, if_neg hend, hnum]
  by_cases hlarge : headerSize ≤ u32 bs (o + 4)
  swap
  · rw [if_neg hlarge, if_neg hlarge]
  rw [if_pos hlarge, if_pos hlarge]
  by_cases hover : total < o + u32 bs (o + 4)
  · rw [if_pos hover, if_pos hover]
  rw [if_neg hover, if_neg hover]
  have hrecord : recordAt bs' o = recordAt bs o := by
    unfold recordAt
    rw [htype, hnum, slice_congr fun x hx hx' => h x (by omega) fun hidle => by cases hidle <;> omega]
  have hrest := ih (total - (o + padded (u32 bs (o + 4)))) (by omega) (o := o + padded (u32 bs (o + 4)))
    (fun x hx hidle => h x (by omega) fun hidle' => by
      cases hidle' with
      | later _ _ _ _ hlater => exact hidle hlater
      | outside hout => exact hidle (.outside hout)
      | _ => omega) rfl
  rw [hrecord, hrest]

/-! ### Writing records -/

/-- The bytes of a record, padded to a multiple of eight. -/
def Record.encode (r : Record) : List UInt8 :=
  bytesOf 4 r.type ++ (bytesOf 4 (headerSize + r.body.length) ++
    (r.body ++ List.replicate (padded r.body.length - r.body.length) 0))

def encodeRecords (rs : List Record) : List UInt8 := rs.flatMap Record.encode ++ (bytesOf 4 0 ++ bytesOf 4 headerSize)

def encode (rs : List Record) : List UInt8 :=
  bytesOf 4 (headerSize + (encodeRecords rs).length) ++ (bytesOf 4 0 ++ encodeRecords rs)

/-- The record can be written: its type is not that of the end record and fits its field. -/
def Record.Writable (r : Record) : Prop := r.type ≠ 0 ∧ r.type < 0x100000000

lemma u32_append (pre s : List UInt8) (i : Nat) : u32 (pre ++ s) (pre.length + i) = u32 s i := by
  rw [u32, List.drop_length_add_append, u32]

lemma u32_bytesOf {n : Nat} (h : n < 0x100000000) (s : List UInt8) : u32 (bytesOf 4 n ++ s) 0 = n := by
  rw [u32, List.drop_zero, List.take_left' (length_bytesOf 4 n)]
  exact number_bytesOf h

lemma u32_second {m n : Nat} (h : n < 0x100000000) (s : List UInt8) :
    u32 (bytesOf 4 m ++ (bytesOf 4 n ++ s)) 4 = n := by
  have h4 := u32_append (bytesOf 4 m) (bytesOf 4 n ++ s) 0
  rw [length_bytesOf] at h4
  rw [h4, u32_bytesOf h]

lemma drop_header (pre : List UInt8) (m n : Nat) (s : List UInt8) :
    (pre ++ (bytesOf 4 m ++ (bytesOf 4 n ++ s))).drop (pre.length + headerSize) = s := by
  rw [List.drop_length_add_append, ← List.append_assoc]
  exact List.drop_left' (by simp [length_bytesOf, headerSize])

lemma Record.length_encode (r : Record) : r.encode.length = padded (headerSize + r.body.length) := by
  have hle := le_padded r.body.length
  have hpadded : padded (headerSize + r.body.length) = headerSize + padded r.body.length := by
    unfold padded headerSize
    omega
  have hheader : headerSize = 8 := rfl
  simp only [Record.encode, List.length_append, length_bytesOf, List.length_replicate, hpadded]
  omega

lemma length_encode (rs : List Record) : (encode rs).length = headerSize + (encodeRecords rs).length := by
  simp only [encode, List.length_append, length_bytesOf, headerSize]
  omega

lemma stream_encodeRecords {rs : List Record} (hrs : ∀ r ∈ rs, r.Writable) (pre : List UInt8) (ho : 8 ∣ pre.length)
    (hsmall : (pre ++ encodeRecords rs).length < 0x100000000) :
    Stream (pre ++ encodeRecords rs) (pre ++ encodeRecords rs).length pre.length rs := by
  -- each record joins the bytes before the offset
  induction rs generalizing pre with
  | nil =>
    refine .done ho (by simp [encodeRecords, length_bytesOf, headerSize]) ?_
    rw [← Nat.add_zero pre.length, u32_append]
    exact u32_bytesOf (by decide) _
  | cons r rs ih =>
    obtain ⟨htype, htype'⟩ := hrs r (List.mem_cons_self ..)
    have hsplit : encodeRecords (r :: rs) = r.encode ++ encodeRecords rs := by
      simp only [encodeRecords, List.flatMap_cons, List.append_assoc]
    have hassoc : pre ++ encodeRecords (r :: rs) = (pre ++ r.encode) ++ encodeRecords rs := by
      rw [hsplit, List.append_assoc]
    have hle := le_padded (headerSize + r.body.length)
    have hnext : (pre ++ r.encode).length = pre.length + padded (headerSize + r.body.length) := by
      rw [List.length_append, r.length_encode]
    have hlen : (pre ++ encodeRecords (r :: rs)).length =
        pre.length + padded (headerSize + r.body.length) + (encodeRecords rs).length := by
      rw [hassoc, List.length_append, hnext]
    have hread : u32 (pre ++ encodeRecords (r :: rs)) pre.length = r.type := by
      rw [hsplit, ← Nat.add_zero pre.length, u32_append, Record.encode, List.append_assoc, u32_bytesOf htype']
    have hread' : u32 (pre ++ encodeRecords (r :: rs)) (pre.length + 4) = headerSize + r.body.length := by
      rw [hsplit, u32_append, Record.encode, List.append_assoc, List.append_assoc, u32_second (by omega)]
    have hrecord : recordAt (pre ++ encodeRecords (r :: rs)) pre.length = r := by
      rw [recordAt, hread, hread', List.drop_take, Nat.add_sub_add_left, Nat.add_sub_cancel_left, hsplit,
        Record.encode, List.append_assoc, List.append_assoc, List.append_assoc, drop_header, List.take_left]
    have hrest := ih (fun s hs => hrs s (List.mem_cons_of_mem _ hs)) (pre ++ r.encode)
      (hnext ▸ Nat.dvd_add ho (dvd_padded _)) (hassoc ▸ hsmall)
    rw [← hassoc, hnext] at hrest
    have hstream := Stream.record ho (hread.symm ▸ htype) (by omega) (by omega) (hread'.symm ▸ hrest)
    rwa [hrecord] at hstream

/-! ### The tags of boot information -/

/-- Bytes are boot information if the declared size fits; the tags lie behind the header. -/
lemma ofBytes_eq_ok {i : Information} : Information.ofBytes bs = .ok i ↔
    headerSize ≤ u32 bs 0 ∧ u32 bs 0 ≤ bs.length ∧ i = ⟨.ofList (bs.take (u32 bs 0))⟩ := by
  have hlength : (Blob.ofList bs).size = bs.length := rfl
  have hbytes : (Blob.ofList bs).bytes = bs := rfl
  rw [← Blob.take_ofList, Information.ofBytes, Information.ofBlob, hlength, hbytes]
  dsimp only
  constructor
  · intro h
    split_ifs at h
    exact ⟨by omega, by omega, (Except.ok.inj h).symm⟩
  · rintro ⟨hlarge, hfits, rfl⟩
    rw [if_neg (by omega), if_neg (by omega)]

lemma tags_of_ofBytes {i : Information} (h : Information.ofBytes bs = .ok i) :
    i.tags = tagsFrom headerSize (window bs (u32 bs 0) headerSize) := by
  obtain ⟨-, -, rfl⟩ := ofBytes_eq_ok.mp h
  rw [Information.tags, Blob.drop_ofList, window]

lemma ofBytes_encode {rs : List Record} (hrs : ∀ r ∈ rs, r.Writable) (hsmall : (encode rs).length < 0x100000000) :
    ∃ i, Information.ofBytes (encode rs) = .ok i ∧ i.tags = upToError (rs.map Record.tag) := by
  have hsize : u32 (encode rs) 0 = (encode rs).length := by
    rw [length_encode] at hsmall ⊢
    exact u32_bytesOf hsmall _
  have hi : Information.ofBytes (encode rs) = .ok ⟨.ofList ((encode rs).take (u32 (encode rs) 0))⟩ :=
    ofBytes_eq_ok.mpr ⟨by rw [hsize, length_encode]; omega, Nat.le_of_eq hsize, rfl⟩
  have hpre : (bytesOf 4 (headerSize + (encodeRecords rs).length) ++ bytesOf 4 0).length = headerSize := by
    simp [length_bytesOf, headerSize]
  have hstream := stream_encodeRecords hrs (bytesOf 4 (headerSize + (encodeRecords rs).length) ++ bytesOf 4 0)
    (hpre ▸ Nat.dvd_refl 8) (by rwa [List.append_assoc])
  rw [hpre, List.append_assoc] at hstream
  refine ⟨_, hi, ?_⟩
  rw [tags_of_ofBytes hi, hsize]
  exact hstream.tags (Nat.le_refl _)

/-- **The tags are those of the grammar.** Boot information gives no error exactly if behind its header there is a
stream of records that can all be decoded, and then the tags are the decoded records; the tags of any stream go up to
its first record that cannot be decoded. Bytes that are not part of a record have no influence, and what is written as
records is read back. -/
theorem tags_grammar :
    (∀ (bs : List UInt8) (i : Information), Information.ofBytes bs = .ok i →
      ((∀ e, .error e ∉ i.tags) ↔
        ∃ rs, Stream bs (u32 bs 0) headerSize rs ∧ ∀ r ∈ rs, r.Accepted) ∧
      (∀ rs, Stream bs (u32 bs 0) headerSize rs →
        i.tags = upToError (rs.map Record.tag) ∧ ((∀ r ∈ rs, r.Accepted) → i.tags = rs.map Record.tag)) ∧
      ∀ bs', u32 bs 0 ≤ bs'.length → (∀ x, ¬ Ignored bs x → bs'[x]? = bs[x]?) →
        ∃ i', Information.ofBytes bs' = .ok i' ∧ i'.tags = i.tags) ∧
    ∀ rs : List Record, (∀ r ∈ rs, r.Writable) → (encode rs).length < 0x100000000 →
      ∃ i, Information.ofBytes (encode rs) = .ok i ∧ i.tags = upToError (rs.map Record.tag) := by
  refine ⟨fun bs i hi => ?_, fun rs => ofBytes_encode⟩
  obtain ⟨hlarge, hfits, -⟩ := ofBytes_eq_ok.mp hi
  rw [tags_of_ofBytes hi]
  refine ⟨⟨fun h => stream_of_tags hfits (Nat.dvd_refl 8) h, fun ⟨rs, hrs, hok⟩ e => ?_⟩, fun rs hrs => ?_, fun bs' hle h => ?_⟩
  · rw [hrs.tags hfits, upToError_accepted hok]
    exact ok_of_accepted hok e
  · rw [hrs.tags hfits]
    exact ⟨rfl, fun hok => upToError_accepted hok⟩
  · have hheader : headerSize = 8 := rfl
    have hsize : u32 bs' 0 = u32 bs 0 := u32_congr fun x _ hx => h x fun hx' => by
      rcases hx' with hx' | hx'
      · omega
      · have := le_padded (u32 bs (headerSize + 4))
        cases hx' <;> omega
    have hi' : Information.ofBytes bs' = .ok ⟨.ofList (bs'.take (u32 bs' 0))⟩ :=
      ofBytes_eq_ok.mpr ⟨hsize ▸ hlarge, hsize ▸ hle, rfl⟩
    refine ⟨_, hi', ?_⟩
    rw [tags_of_ofBytes hi', hsize]
    exact tagsFrom_congr hfits hle fun x hx hidle => h x fun hx' => hx'.elim (by omega) hidle

/-- A record without a meaning, a truncated one and one that is not reached. -/
def truncated : List Record := [⟨21, [0, 0, 0, 0]⟩, ⟨4, [1]⟩, ⟨21, []⟩]

theorem tags_grammar_truncated :
    ∃ i, Information.ofBytes (encode truncated) = .ok i ∧
      i.tags = [.ok (.other 21 12), .error (.truncatedTag 4 9)] ∧
      (¬ ∃ rs, Stream (encode truncated) (u32 (encode truncated) 0) headerSize rs ∧ ∀ r ∈ rs, r.Accepted) ∧
      ∃ i', Information.ofBytes (encode truncated ++ [255]) = .ok i' ∧ i'.tags = i.tags := by
  obtain ⟨i, hi, htags⟩ := tags_grammar.2 truncated (by unfold Record.Writable; decide) (by decide)
  obtain ⟨hvalid, -, hignored⟩ := tags_grammar.1 _ i hi
  have htwo : i.tags = [.ok (.other 21 12), .error (.truncatedTag 4 9)] := htags.trans rfl
  refine ⟨i, hi, htwo, fun h => hvalid.mpr h _ (htwo ▸ List.mem_cons_of_mem _ (List.mem_singleton_self _)),
    hignored _ (by decide) fun x hx => List.getElem?_append_left ?_⟩
  by_contra hbehind
  have hsize : u32 (encode truncated) 0 = (encode truncated).length := by decide
  exact hx (.inr (.outside (by omega)))

end Nucleus.Boot
