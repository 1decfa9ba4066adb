import Mathlib.Tactic.Common

/-!
Slices of texts. A slice is a piece of a text with the byte at which it starts; it can be cut at a byte only if a
character starts there or the slice ends. Slices that are cut off one after the other from the front of what is left lie
one behind the other in the text.
-/

namespace Nucleus.Text

/-! ### Bytes of a text -/

def width : List Char → Nat
  | [] => 0
  | c :: cs => c.utf8Size + width cs

/-- The parts of a text before the given byte and from it on, unless the byte is inside of a character or behind the
end. -/
def cut? : Nat → List Char → Option (List Char × List Char)
  | 0, cs => some ([], cs)
  | _ + 1, [] => none
  | n + 1, c :: cs =>
    if c.utf8Size ≤ n + 1 then (cut? (n + 1 - c.utf8Size) cs).map fun p => (c :: p.1, p.2) else none

/-- The byte at which the first character with the property starts. -/
def find? (p : Char → Prop) [DecidablePred p] : List Char → Option Nat
  | [] => none
  | c :: cs => if p c then some 0 else (find? p cs).map (c.utf8Size + ·)

section Bytes

variable {front back cs : List Char} {n : Nat}

lemma width_append (front back : List Char) : width (front ++ back) = width front + width back := by
  induction front with
  | nil => exact (Nat.zero_add _).symm
  | cons c front ih => rw [List.cons_append, width, width, ih, Nat.add_assoc]

lemma width_eq (cs : List Char) : width cs = (String.ofList cs).utf8ByteSize := by
  induction cs with
  | nil => rfl
  | cons c cs ih =>
    rw [width, ih, ← List.singleton_append, String.ofList_append, String.utf8ByteSize_append,
      ← String.singleton_eq_ofList, String.utf8ByteSize_singleton]

lemma width_toList (s : String) : width s.toList = s.utf8ByteSize := by rw [width_eq, String.ofList_toList]

lemma width_pos (h : cs ≠ []) : 0 < width cs := by
  cases cs with
  | nil => exact absurd rfl h
  | cons c cs => exact Nat.add_pos_left c.utf8Size_pos _

lemma cut?_eq_some : cut? n cs = some (front, back) ↔ cs = front ++ back ∧ n = width front := by
  fun_induction cut? n cs generalizing front with
  | case1 cs =>
    cases front with
    | nil => simp [width, eq_comm]
    | cons d front =>
      have hd := d.utf8Size_pos
      refine iff_of_false nofun fun h => ?_
      rw [width] at h
      omega
  | case2 n => cases front <;> simp [width]
  | case3 n c cs hle ih =>
    cases front with
    | nil => simp [width]
    | cons d front =>
      have hmap : (cut? (n + 1 - c.utf8Size) cs).map (fun p => (c :: p.1, p.2)) = some (d :: front, back) ↔
          c = d ∧ cut? (n + 1 - c.utf8Size) cs = some (front, back) := by
        simp [Option.map_eq_some_iff, and_comm]
      rw [hmap, ih, List.cons_append, List.cons.injEq, width, and_assoc]
      refine and_congr_right ?_
      rintro rfl
      exact and_congr_right fun _ => by omega
  | case4 n c cs hgt =>
    cases front with
    | nil => simp [width]
    | cons d front =>
      refine iff_of_false nofun ?_
      rintro ⟨hcs, hn⟩
      rw [List.cons_append, List.cons.injEq] at hcs
      rw [width, ← hcs.1] at hn
      omega

/-- **A text can be cut** at the boundaries of its characters, and only there. -/
lemma isSome_cut?_iff : (cut? n cs).isSome ↔ String.Pos.Raw.IsValid (String.ofList cs) ⟨n⟩ := by
  rw [String.Pos.Raw.isValid_ofList, Option.isSome_iff_exists]
  constructor
  · rintro ⟨⟨front, back⟩, h⟩
    obtain ⟨rfl, rfl⟩ := cut?_eq_some.mp h
    exact ⟨front.length, by rw [List.take_left, width_eq]⟩
  · rintro ⟨i, hi⟩
    refine ⟨(cs.take i, cs.drop i), cut?_eq_some.mpr ⟨(List.take_append_drop i cs).symm, ?_⟩⟩
    rw [width_eq]
    exact hi

lemma find?_eq (p : Char → Prop) [DecidablePred p] (cs : List Char) : ∃ front back, cs = front ++ back ∧
    (∀ c ∈ front, ¬ p c) ∧ (∀ c ∈ back.head?, p c) ∧ find? p cs = if back = [] then none else some (width front) := by
  induction cs with
  | nil => exact ⟨[], [], rfl, nofun, nofun, rfl⟩
  | cons c cs ih =>
    by_cases hc : p c
    · refine ⟨[], c :: cs, rfl, nofun, ?_, if_pos hc⟩
      rintro d ⟨⟩
      exact hc
    · obtain ⟨front, back, rfl, hfront, hback, hfind⟩ := ih
      refine ⟨c :: front, back, rfl, List.forall_mem_cons.mpr ⟨hc, hfront⟩, hback, ?_⟩
      rw [find?, if_neg hc, hfind]
      split <;> rfl

end Bytes

/-! ### Slices -/

/-- A piece of a text: the byte at which it starts, and its characters. -/
structure Slice where
  start : Nat
  text : List Char
  deriving DecidableEq, Repr

namespace Slice

def stop (a : Slice) : Nat := a.start + width a.text

def whole (s : String) : Slice := ⟨0, s.toList⟩

def tail (a : Slice) : Slice := ⟨a.stop, []⟩

/-- The parts of a slice before the given byte of it and from it on, if it can be cut there. -/
def cut? (a : Slice) (n : Nat) : Option (Slice × Slice) :=
  (Text.cut? n a.text).map fun p => (⟨a.start, p.1⟩, ⟨a.start + n, p.2⟩)

/-- What is behind the character, if the slice starts with it. -/
def behind? (c : Char) : Slice → Option Slice
  | ⟨_, []⟩ => none
  | ⟨n, d :: ds⟩ => if d = c then some ⟨n + c.utf8Size, ds⟩ else none

/-- The slice `b` is what is left of `a` behind some characters. -/
def EndOf (b a : Slice) : Prop := ∃ front, a.text = front ++ b.text ∧ b.start = a.start + width front

/-- The slices `ws` lie in `a` one behind the other, and `b` is left of `a` behind them. -/
inductive Yields : Slice → List Slice → Slice → Prop
  | rest {a b} (h : EndOf b a) : Yields a [] b
  | word {a w ws b back} (h : EndOf ⟨w.start, w.text ++ back⟩ a) (hrest : Yields ⟨w.stop, back⟩ ws b) :
    Yields a (w :: ws) b

/-- The slice is where it says in the text: it starts and stops at boundaries of characters, and the bytes between them
are those of its characters. -/
structure PartOf (w : Slice) (s : String) : Prop where
  start : String.Pos.Raw.IsValid s ⟨w.start⟩
  stop : String.Pos.Raw.IsValid s ⟨w.stop⟩
  bytes : s.toByteArray.extract w.start w.stop = (String.ofList w.text).toByteArray

variable {a b c w : Slice} {us ws : List Slice} {s : String} {front back : List Char}

lemma cut?_append (n : Nat) (front back : List Char) :
    cut? ⟨n, front ++ back⟩ (width front) = some (⟨n, front⟩, ⟨n + width front, back⟩) := by
  rw [cut?, cut?_eq_some.mpr ⟨rfl, rfl⟩]
  rfl

lemma behind?_of_head? {c : Char} (h : a.text.head? ≠ some c) : a.behind? c = none := by
  obtain ⟨n, _ | ⟨d, ds⟩⟩ := a
  · rfl
  · exact if_neg fun hd => h (congrArg some hd)

namespace EndOf

lemma refl (a : Slice) : EndOf a a := ⟨[], rfl, rfl⟩

lemma trans (h : EndOf c b) (h' : EndOf b a) : EndOf c a := by
  obtain ⟨front, hb, hc⟩ := h
  obtain ⟨before, ha, hstart⟩ := h'
  refine ⟨before ++ front, by rw [ha, hb, List.append_assoc], ?_⟩
  rw [hc, hstart, width_append, Nat.add_assoc]

lemma behind (w : Slice) (back : List Char) : EndOf ⟨w.stop, back⟩ ⟨w.start, w.text ++ back⟩ := ⟨w.text, rfl, rfl⟩

lemma start_le (h : EndOf b a) : a.start ≤ b.start := by
  obtain ⟨front, -, hstart⟩ := h
  omega

lemma isSuffix (h : EndOf b a) : b.text <:+ a.text := by
  obtain ⟨front, hfront, -⟩ := h
  exact ⟨front, hfront.symm⟩

lemma width_lt (h : EndOf b a) (hlt : b.text.length < a.text.length) : width b.text < width a.text := by
  obtain ⟨front, ha, -⟩ := h
  have hne : front ≠ [] := by
    rintro rfl
    rw [ha] at hlt
    exact Nat.lt_irrefl _ hlt
  rw [ha, width_append]
  have hpos := width_pos hne
  omega

end EndOf

lemma partOf_of_eq (hs : s.toList = front ++ (w.text ++ back)) (hstart : w.start = width front) : w.PartOf s := by
  obtain rfl : s = String.ofList front ++ (String.ofList w.text ++ String.ofList back) := by
    rw [← String.ofList_append, ← String.ofList_append, ← hs, String.ofList_toList]
  have hfront : w.start = (String.ofList front).utf8ByteSize := hstart.trans (width_eq front)
  have hstop : w.stop = (String.ofList front ++ String.ofList w.text).utf8ByteSize := by
    rw [Slice.stop, String.utf8ByteSize_append, hfront, width_eq]
  refine ⟨?_, ?_, ?_⟩
  · exact String.Pos.Raw.isValid_iff_exists_append.mpr ⟨_, _, rfl, congrArg String.Pos.Raw.mk hfront⟩
  · rw [← String.append_assoc]
    exact String.Pos.Raw.isValid_iff_exists_append.mpr ⟨_, _, rfl, congrArg String.Pos.Raw.mk hstop⟩
  · have hbehind := ByteArray.extract_append_size_add' (hfront.trans String.size_toByteArray.symm)
      (b := (String.ofList w.text ++ String.ofList back).toByteArray) (i := 0) (j := width w.text)
    rw [String.toByteArray_append]
    refine hbehind.trans ?_
    rw [String.toByteArray_append]
    exact ByteArray.extract_append_eq_left ((width_eq w.text).trans String.size_toByteArray.symm)

namespace Yields

lemma single (back : List Char) (h : EndOf ⟨w.start, w.text ++ back⟩ a) (h' : EndOf b ⟨w.stop, back⟩) :
    Yields a [w] b := .word h (.rest h')

lemma endOf (h : Yields a ws b) : EndOf b a := by
  induction h with
  | rest h => exact h
  | @word a w ws b back h _ ih => exact (ih.trans (.behind w back)).trans h

lemma of_endOf (h : Yields b ws c) (h' : EndOf b a) : Yields a ws c := by
  cases h with
  | rest h => exact .rest (h.trans h')
  | word h hrest => exact .word (h.trans h') hrest

lemma append (h : Yields a us b) (h' : Yields b ws c) : Yields a (us ++ ws) c := by
  induction h with
  | rest h => exact h'.of_endOf h
  | word h _ ih => exact .word h (ih h')

lemma start_le (h : Yields a ws b) : ∀ w ∈ ws, a.start ≤ w.start := by
  induction h with
  | rest => nofun
  | @word a w ws b back h _ ih =>
    have hw : a.start ≤ w.start := h.start_le
    intro u hu
    obtain rfl | hu := List.mem_cons.mp hu
    · exact hw
    · exact Nat.le_trans hw (Nat.le_trans (Nat.le_add_right _ _) (ih u hu))

/-- **The slices are disjoint** and in order. -/
lemma pairwise (h : Yields a ws b) : ws.Pairwise (·.stop ≤ ·.start) := by
  induction h with
  | rest => exact .nil
  | word _ hrest ih => exact .cons hrest.start_le ih

lemma partOf (h : Yields a ws b) (ha : EndOf a (.whole s)) : ∀ w ∈ ws, w.PartOf s := by
  induction h with
  | rest => nofun
  | @word a w ws b back h _ ih =>
    have hw := h.trans ha
    intro u hu
    obtain rfl | hu := List.mem_cons.mp hu
    · obtain ⟨front, htext, hstart⟩ := hw
      exact partOf_of_eq htext (hstart.trans (Nat.zero_add _))
    · exact ih ((EndOf.behind w back).trans hw) u hu

end Yields

end Slice

end Nucleus.Text
