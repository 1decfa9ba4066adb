import Nucleus.Proofs.Boot.CommandLine
import Nucleus.Proofs.Text.Slices

/-!
The scanner of command lines on slices of the text, which are cut at bytes. All its cuts are at boundaries of
characters. Each token leaves a shorter end of the text, so the scanner comes to the end and stays there, and the words
of the tokens lie in the text one behind the other.
-/

namespace Nucleus.Boot.CommandLine

open Text

/-! ### The scanner on slices -/

def skipBlanks (a : Slice) : Slice := ⟨a.start + width (a.text.takeWhile (Blank ·)), trim a.text⟩

/-- The word at the start of the slice and the slice behind it. There is no answer if a cut is not possible. -/
def takeWord (stopAtEquals : Bool) (a : Slice) : Option (Option Slice × Slice) :=
  if a.text = [] then return (none, a)
  else
    match a.behind? '"' with
    | some quoted =>
      match find? (· = '"') quoted.text with
      | some n => do
        let (word, _) ← quoted.cut? n
        let (_, rest) ← quoted.cut? (n + 1)
        return (some word, rest)
      | none => return (some quoted, quoted.tail)
    | none => do
      let (word, rest) ← a.cut? ((find? (Ends stopAtEquals) a.text).getD (width a.text))
      return (some word, rest)

def takeValue (a : Slice) : Option (Slice × Slice) := do
  let (word, rest) ← takeWord false a
  return (word.getD a.tail, rest)

/-- A token as slices of the text. -/
inductive Place where
  | flag (word : Slice)
  | pair (key value : Slice)
  deriving DecidableEq, Repr

def Place.token : Place → Token
  | flag w => .flag (String.ofList w.text)
  | pair k v => .pair (String.ofList k.text) (String.ofList v.text)

def Place.slices : Place → List Slice
  | flag w => [w]
  | pair k v => [k, v]

/-- The token at the start of the slice, if there is one, and the slice behind it. There is no answer if a cut is not
possible. -/
def takeToken (a : Slice) : Option (Option Place × Slice) := do
  match ← takeWord true (skipBlanks a) with
  | (none, rest) => return (none, rest)
  | (some key, rest) =>
    match rest.behind? '=' with
    | none => return (some (.flag key), rest)
    | some after =>
      let (value, rest) ← takeValue after
      return (some (.pair key value), rest)

/-- The answers to `n` calls, each about the slice that the one before left. -/
def calls : Nat → Slice → Option (List (Option Place))
  | 0, _ => return []
  | n + 1, a => do
    let (t, b) ← takeToken a
    return t :: (← calls n b)

/-! ### Words -/

section Words

variable {a b : Slice}

lemma endOf_skipBlanks (a : Slice) : (skipBlanks a).EndOf a :=
  ⟨a.text.takeWhile (Blank ·), List.takeWhile_append_dropWhile.symm, rfl⟩

/-- The slice gives the word `w` and leaves `b`, and so do its characters. -/
structure FindsWord (stopAtEquals : Bool) (a w b : Slice) : Prop where
  taken : takeWord stopAtEquals a = some (some w, b)
  characters : word? stopAtEquals a.text = some (w.text, b.text)
  yields : a.Yields [w] b

lemma findsWord_quoted (stopAtEquals : Bool) (n : Nat) (cs : List Char) :
    ∃ w b, FindsWord stopAtEquals ⟨n, '"' :: cs⟩ w b := by
  have hbehind : Slice.behind? '"' ⟨n, '"' :: cs⟩ = some ⟨n + 1, cs⟩ := rfl
  obtain ⟨front, back, rfl, hfront, hback, hfind⟩ := find?_eq (· = '"') cs
  cases back with
  | nil =>
    -- the quote is never closed
    have hword : ∀ c ∈ front, decide (c ≠ '"') = true := fun c hc => decide_eq_true (hfront c hc)
    have hend : ∀ c ∈ ([] : List Char).head?, ¬ decide (c ≠ '"') = true := nofun
    obtain ⟨htake, hdrop⟩ := span_append hword hend
    refine ⟨⟨n + 1, front⟩, Slice.tail ⟨n + 1, front⟩, ?_, ?_, .single [] ⟨['"'], rfl, rfl⟩ (.refl _)⟩
    · rw [takeWord, if_neg (List.cons_ne_nil _ _), hbehind]
      dsimp only
      rw [hfind, List.append_nil]
      rfl
    · rw [word?, if_pos rfl, htake, hdrop]
      rfl
  | cons c back =>
    obtain rfl : c = '"' := hback c rfl
    have hword := Slice.cut?_append (n + 1) front ('"' :: back)
    have hrest := Slice.cut?_append (n + 1) (front ++ ['"']) back
    rw [List.append_assoc, List.singleton_append, width_append, show width ['"'] = 1 from rfl] at hrest
    refine ⟨⟨n + 1, front⟩, ⟨n + 1 + (width front + 1), back⟩, ?_, word?_quoted fun hq => hfront _ hq rfl, ?_⟩
    · rw [takeWord, if_neg (List.cons_ne_nil _ _), hbehind]
      dsimp only
      rw [hfind, if_neg (List.cons_ne_nil _ _)]
      dsimp only
      rw [hword, hrest]
      rfl
    · exact .single ('"' :: back) ⟨['"'], rfl, rfl⟩ ⟨['"'], rfl, (Nat.add_assoc ..).symm⟩

lemma findsWord_bare (stopAtEquals : Bool) (n : Nat) {c : Char} (hc : c ≠ '"') (cs : List Char) :
    ∃ w b, FindsWord stopAtEquals ⟨n, c :: cs⟩ w b := by
  have hbehind : Slice.behind? '"' ⟨n, c :: cs⟩ = none := if_neg hc
  obtain ⟨front, back, hcs, hfront, hback, hfind⟩ := find?_eq (Ends stopAtEquals) (c :: cs)
  have hcount : (find? (Ends stopAtEquals) (c :: cs)).getD (width (c :: cs)) = width front := by
    rw [hfind, hcs]
    split
    · next hnil => rw [hnil, List.append_nil]; rfl
    · rfl
  have hcut := Slice.cut?_append n front back
  rw [← hcs] at hcut
  have hword : ∀ c ∈ front, decide (¬ Ends stopAtEquals c) = true := fun c hc => decide_eq_true (hfront c hc)
  have hstop : ∀ c ∈ back.head?, ¬ decide (¬ Ends stopAtEquals c) = true := fun c hc => by simpa using hback c hc
  obtain ⟨htake, hdrop⟩ := span_append hword hstop
  refine ⟨⟨n, front⟩, ⟨n + width front, back⟩, ?_, ?_, .single back ⟨[], hcs, rfl⟩ (.refl _)⟩
  · rw [takeWord, if_neg (List.cons_ne_nil _ _), hbehind]
    dsimp only
    rw [hcount, hcut]
    rfl
  · rw [word?, if_neg hc, hcs, htake, hdrop]

/-- **A word** is found where the characters have it, and no cut fails. -/
lemma takeWord_eq (stopAtEquals : Bool) (a : Slice) :
    (a.text = [] ∧ takeWord stopAtEquals a = some (none, a)) ∨ ∃ w b, FindsWord stopAtEquals a w b := by
  obtain ⟨n, _ | ⟨c, cs⟩⟩ := a
  · exact .inl ⟨rfl, rfl⟩
  right
  by_cases hc : c = '"'
  · subst hc
    exact findsWord_quoted stopAtEquals n cs
  · exact findsWord_bare stopAtEquals n hc cs

lemma takeValue_eq (a : Slice) :
    ∃ w b, takeValue a = some (w, b) ∧ value a.text = (w.text, b.text) ∧ a.Yields [w] b := by
  obtain ⟨hnil, hword⟩ | ⟨w, b, hfinds⟩ := takeWord_eq false a
  · refine ⟨a.tail, a, ?_, ?_, ?_⟩
    · rw [takeValue, hword]
      rfl
    · rw [value, hnil]
      rfl
    · have hstop : a.stop = a.start := by rw [Slice.stop, hnil]; rfl
      exact .single [] ⟨[], hnil, hstop⟩ ⟨[], hnil.symm, by rw [Slice.tail, Slice.stop, hstop]; rfl⟩
  · refine ⟨w, b, ?_, ?_, hfinds.yields⟩
    · rw [takeValue, hfinds.taken]
      rfl
    · rw [value, hfinds.characters]
      rfl

end Words

/-! ### Tokens -/

section Tokens

variable {a b : Slice}

/-- A call gives the token `t`, or none at the end, and leaves `b`, and so do the characters. -/
structure FindsToken (a : Slice) (t : Option Place) (b : Slice) : Prop where
  taken : takeToken a = some (t, b)
  characters : next? a.text = t.map fun t => (t.token, b.text)
  yields : a.Yields (t.elim [] Place.slices) b
  last : t = none → b.text = []

lemma FindsWord.flag {key : Slice} (h : FindsWord true (skipBlanks a) key b) (hequals : b.text.head? ≠ some '=') :
    FindsToken a (some (.flag key)) b where
  taken := by
    rw [takeToken, h.taken]
    dsimp only [bind, Option.bind]
    rw [Slice.behind?_of_head? hequals]
    rfl
  characters := by
    have hword : word? true (trim a.text) = some (key.text, b.text) := h.characters
    unfold next?
    rw [hword]
    split
    · next h => cases h
    · next h =>
      obtain ⟨-, hrest⟩ := Prod.mk.inj (Option.some.inj h)
      rw [hrest] at hequals
      exact absurd rfl hequals
    · next h =>
      cases h
      rfl
  yields := h.yields.of_endOf (endOf_skipBlanks a)
  last := fun h => absurd h (Option.some_ne_none _)

lemma FindsWord.pair {key : Slice} {n : Nat} {rest : List Char}
    (h : FindsWord true (skipBlanks a) key ⟨n, '=' :: rest⟩) : ∃ v b, FindsToken a (some (.pair key v)) b := by
  have hbehind : Slice.behind? '=' ⟨n, '=' :: rest⟩ = some ⟨n + 1, rest⟩ := rfl
  have hword : word? true (trim a.text) = some (key.text, '=' :: rest) := h.characters
  obtain ⟨v, b, htaken, hchars, hyields⟩ := takeValue_eq ⟨n + 1, rest⟩
  refine ⟨v, b, ?_, ?_, ?_, fun h => absurd h (Option.some_ne_none _)⟩
  · rw [takeToken, h.taken]
    dsimp only [bind, Option.bind]
    rw [hbehind]
    dsimp only
    rw [htaken]
    rfl
  · rw [next?, hword]
    show some (Token.pair _ (String.ofList (value rest).1), (value rest).2) = _
    rw [hchars]
    rfl
  · exact (h.yields.of_endOf (endOf_skipBlanks a)).append (hyields.of_endOf ⟨['='], rfl, rfl⟩)

/-- **A call** finds the token where the characters have it, and no cut fails. -/
lemma takeToken_eq (a : Slice) : ∃ t b, FindsToken a t b := by
  obtain ⟨hnil, hword⟩ | ⟨key, ⟨n, cs⟩, hfinds⟩ := takeWord_eq true (skipBlanks a)
  · have htrim : trim a.text = [] := hnil
    refine ⟨none, skipBlanks a, ?_, ?_, .rest (endOf_skipBlanks a), fun _ => hnil⟩
    · rw [takeToken, hword]
      rfl
    · rw [next?, htrim]
      rfl
  · by_cases hequals : cs.head? = some '='
    · obtain ⟨rest, rfl⟩ := List.head?_eq_some_iff.mp hequals
      obtain ⟨v, b, h⟩ := hfinds.pair
      exact ⟨some (.pair key v), b, h⟩
    · exact ⟨some (.flag key), ⟨n, cs⟩, hfinds.flag hequals⟩

lemma takeToken_of_nil (h : a.text = []) : takeToken a = some (none, a) := by
  obtain ⟨n, _⟩ := a
  cases h
  rfl

/-- **A token leaves a shorter text**, which is an end of the one before. -/
lemma FindsToken.shorter {t : Place} (h : FindsToken a (some t) b) :
    b.text <:+ a.text ∧ width b.text < width a.text := by
  have hend := h.yields.endOf
  exact ⟨hend.isSuffix, hend.width_lt (next?_shorter h.characters)⟩

lemma calls_of_nil (h : a.text = []) (n : Nat) : calls n a = some (List.replicate n none) := by
  induction n with
  | zero => rfl
  | succ n ih =>
    rw [calls, takeToken_of_nil h]
    dsimp only [bind, Option.bind]
    rw [ih]
    rfl

/-- **A run of calls** gives the tokens of the text and after them nothing any more. -/
lemma calls_eq (a : Slice) : ∃ ts : List Place, ts.map Place.token = tokensOf a.text ∧
    (∃ b, a.Yields (ts.flatMap Place.slices) b) ∧ ts.length ≤ width a.text ∧
    ∀ n, calls n a = some ((List.range n).map (ts[·]?)) := by
  induction hn : width a.text using Nat.strongRecOn generalizing a with
  | _ n ih =>
  obtain ⟨t, b, h⟩ := takeToken_eq a
  cases t with
  | none =>
    have hnone : next? a.text = none := h.characters
    refine ⟨[], (tokensOf_of_none hnone).symm, ⟨b, h.yields⟩, Nat.zero_le _, fun k => ?_⟩
    cases k with
    | zero => rfl
    | succ k =>
      rw [calls, h.taken]
      dsimp only [bind, Option.bind]
      rw [calls_of_nil (h.last rfl)]
      show some (none :: List.replicate k none) = some ((List.range (k + 1)).map fun _ => none)
      rw [List.map_const', List.length_range, List.replicate_succ]
  | some t =>
    have hlt := h.shorter.2
    obtain ⟨ts, htokens, ⟨c, hyields⟩, hlength, hcalls⟩ := ih _ (hn ▸ hlt) b rfl
    refine ⟨t :: ts, ?_, ⟨c, h.yields.append hyields⟩, ?_, fun k => ?_⟩
    · rw [List.map_cons, htokens, tokensOf_of_some h.characters]
    · rw [List.length_cons]
      omega
    · cases k with
      | zero => rfl
      | succ k =>
        rw [calls, h.taken]
        dsimp only [bind, Option.bind]
        rw [hcalls, List.range_succ_eq_map]
        simp

end Tokens

/-- **The scanner makes progress** on every text. A slice can be cut exactly at the boundaries of its characters, and a
call never fails to cut one: it finds the token that the characters have and leaves an end of the text, with fewer bytes
if there was a token, and if there was none, there will be none the next time. A run of calls gives the tokens of the
text, not more than it has bytes, and nothing any more after them. The keys and values are parts of the text, which lie
in it one behind the other. -/
theorem scanner_makes_progress (s : String) :
    (∀ (a : Slice) (n : Nat), (a.cut? n).isSome ↔ String.Pos.Raw.IsValid (String.ofList a.text) ⟨n⟩) ∧
    (∀ a : Slice, ∃ t b, takeToken a = some (t, b) ∧ next? a.text = t.map (fun t => (t.token, b.text)) ∧
      (t.isSome → b.text <:+ a.text ∧ width b.text < width a.text) ∧ (t = none → takeToken b = some (none, b))) ∧
    ∃ ts : List Place, ts.map Place.token = tokens s ∧ ts.length ≤ s.utf8ByteSize ∧
      (∀ n, calls n (.whole s) = some ((List.range n).map (ts[·]?))) ∧
      (∀ w ∈ ts.flatMap Place.slices, w.PartOf s) ∧ (ts.flatMap Place.slices).Pairwise (·.stop ≤ ·.start) := by
  refine ⟨fun a n => ?_, fun a => ?_, ?_⟩
  · rw [Slice.cut?, Option.isSome_map]
    exact isSome_cut?_iff
  · obtain ⟨t, b, h⟩ := takeToken_eq a
    refine ⟨t, b, h.taken, h.characters, fun ht => ?_, fun ht => takeToken_of_nil (h.last ht)⟩
    obtain ⟨t, rfl⟩ := Option.isSome_iff_exists.mp ht
    exact h.shorter
  · obtain ⟨ts, htokens, ⟨b, hyields⟩, hlength, hcalls⟩ := calls_eq (.whole s)
    refine ⟨ts, htokens, ?_, hcalls, hyields.partOf (.refl _), hyields.pairwise⟩
    rwa [← width_toList]

/-- Slices count bytes, of which some characters take two. -/
example : calls 3 (.whole "\u00e4=\"\u00f6 x\"y") =
    some [some (.pair ⟨0, ['\u00e4']⟩ ⟨4, ['\u00f6', ' ', 'x']⟩), some (.flag ⟨9, ['y']⟩), none] := by decide

end Nucleus.Boot.CommandLine
