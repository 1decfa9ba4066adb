import Mathlib.Tactic.Common
import Nucleus.Boot.CommandLine

/-!
Writing command lines and reading them back. Each side of a token can be written in quotes, or bare if it has no
character that would end it; tokens are separated by blanks. Whatever forms are chosen, the scanner finds the tokens
that were written, and the options say which of them occur.
-/

namespace Nucleus.Boot

open Text

namespace CommandLine

/-! ### Written forms -/

def InKey (c : Char) : Prop := ¬ Blank c ∧ c ≠ '='

def InValue (c : Char) : Prop := ¬ Blank c

instance : DecidablePred InKey := fun c => inferInstanceAs (Decidable (¬ Blank c ∧ c ≠ '='))

instance : DecidablePred InValue := fun c => inferInstanceAs (Decidable (¬ Blank c))

/-- The text is a form of a word: the word in quotes, or bare if all its characters may stand so. No form has a quote
inside of the word. -/
inductive WordForm (Bare : Char → Prop) (w : String) : List Char → Prop
  | quoted (hq : '"' ∉ w.toList) : WordForm Bare w ('"' :: (w.toList ++ ['"']))
  | bare (hq : '"' ∉ w.toList) (hb : ∀ c ∈ w.toList, Bare c) : WordForm Bare w w.toList

/-- The text is a form of a token. A flag leaves at least one character. -/
inductive TokenForm : Token → List Char → Prop
  | flag {k cs} (hk : WordForm InKey k cs) (hne : cs ≠ []) : TokenForm (.flag k) cs
  | pair {k v cs ds} (hk : WordForm InKey k cs) (hv : WordForm InValue v ds) : TokenForm (.pair k v) (cs ++ '=' :: ds)

/-- The text is a form of a list of tokens: forms of the tokens in order, with blanks in front of each and at the end,
at least one between two tokens. -/
inductive LineForm : List Token → List Char → Prop
  | nil {gap} (hg : ∀ c ∈ gap, Blank c) : LineForm [] gap
  | cons {t ts gap cs rest} (hg : ∀ c ∈ gap, Blank c) (ht : TokenForm t cs) (hr : ∀ c ∈ rest.head?, Blank c)
      (hrest : LineForm ts rest) : LineForm (t :: ts) (gap ++ (cs ++ rest))

/-! ### Scanning a form -/

section Scanning

variable {stop : Bool} {Bare : Char → Prop} {w k v : String} {t : Token} {cs rest gap : List Char}

lemma span_append {p : Char → Bool} (hcs : ∀ c ∈ cs, p c) (hrest : ∀ c ∈ rest.head?, ¬ p c) :
    (cs ++ rest).takeWhile p = cs ∧ (cs ++ rest).dropWhile p = rest := by
  rw [List.takeWhile_append_of_pos hcs, List.dropWhile_append_of_pos hcs]
  cases rest with
  | nil => exact ⟨List.append_nil cs, rfl⟩
  | cons c rest =>
    have hc : ¬ p c := hrest c rfl
    rw [List.takeWhile_cons_of_neg hc, List.dropWhile_cons_of_neg hc]
    exact ⟨List.append_nil cs, rfl⟩

lemma word?_quoted (hq : '"' ∉ cs) : word? stop ('"' :: (cs ++ '"' :: rest)) = some (cs, rest) := by
  have hcs : ∀ c ∈ cs, decide (c ≠ '"') = true := fun c hc => decide_eq_true fun h => hq (h ▸ hc)
  have hquote : ∀ c ∈ ('"' :: rest).head?, ¬ decide (c ≠ '"') = true := by simp
  obtain ⟨htake, hdrop⟩ := span_append hcs hquote
  rw [word?, if_pos rfl, htake, hdrop]
  rfl

lemma word?_bare (hne : cs ++ rest ≠ []) (hq : '"' ∉ cs) (hcs : ∀ c ∈ cs, ¬ Ends stop c)
    (hrest : ∀ c ∈ rest.head?, Ends stop c) : word? stop (cs ++ rest) = some (cs, rest) := by
  have hquote : (cs ++ rest).head? ≠ some '"' := by
    cases cs with
    | nil =>
      intro h
      obtain hb | ⟨-, he⟩ := hrest '"' h
      · exact not_blank_quote hb
      · exact absurd he (by decide)
    | cons c cs =>
      intro h
      exact hq (Option.some.inj h ▸ List.mem_cons_self ..)
  have hstop : ∀ c ∈ rest.head?, ¬ decide (¬ Ends stop c) = true := fun c hc => by simpa using hrest c hc
  obtain ⟨htake, hdrop⟩ := span_append (fun c hc => decide_eq_true (hcs c hc)) hstop
  cases hall : cs ++ rest with
  | nil => exact absurd hall hne
  | cons c all =>
    rw [hall] at htake hdrop hquote
    rw [word?, if_neg fun hc => hquote (congrArg some hc), htake, hdrop]

/-- The scanner takes a form as the word that was written, if the text behind it ends a bare word. -/
lemma WordForm.word?_append (h : WordForm Bare w cs) (hbare : ∀ c, Bare c → ¬ Ends stop c)
    (hrest : ∀ c ∈ rest.head?, Ends stop c) (hne : cs ++ rest ≠ []) :
    word? stop (cs ++ rest) = some (w.toList, rest) := by
  cases h with
  | quoted hq =>
    rw [List.cons_append, List.append_assoc]
    exact word?_quoted hq
  | bare hq hb => exact word?_bare hne hq (fun c hc => hbare c (hb c hc)) hrest

lemma WordForm.head_not_blank (h : WordForm InKey k cs) : ∀ c ∈ cs.head?, ¬ Blank c := by
  cases h with
  | quoted hq =>
    rintro c ⟨⟩
    exact not_blank_quote
  | bare hq hb => exact fun c hc => (hb c (List.mem_of_mem_head? hc)).1

lemma InKey.not_ends {c : Char} (h : InKey c) : ¬ Ends true c := fun he => he.elim h.1 fun ⟨_, he⟩ => h.2 he

lemma InValue.not_ends {c : Char} (h : InValue c) : ¬ Ends false c := fun he => he.elim h fun ⟨hf, _⟩ => nomatch hf

/-- The value of a pair may be empty, with nothing behind it. -/
lemma WordForm.value_append (h : WordForm InValue v cs) (hrest : ∀ c ∈ rest.head?, Blank c) :
    value (cs ++ rest) = (v.toList, rest) := by
  unfold value
  by_cases hne : cs ++ rest = []
  · obtain ⟨rfl, rfl⟩ := List.append_eq_nil_iff.mp hne
    generalize hcs : ([] : List Char) = cs at h
    cases h with
    | quoted hq => cases hcs
    | bare hq hb =>
      rw [← hcs]
      rfl
  · rw [h.word?_append (fun c => InValue.not_ends) (fun c hc => .inl (hrest c hc)) hne]
    rfl

lemma trim_append (hg : ∀ c ∈ gap, Blank c) (hcs : ∀ c ∈ cs.head?, ¬ Blank c) : trim (gap ++ cs) = cs :=
  (span_append (fun c hc => decide_eq_true (hg c hc)) fun c hc => by simpa using hcs c hc).2

/-- **The scanner takes a form of a token** behind blanks as that token. -/
lemma TokenForm.next?_append (h : TokenForm t cs) (hg : ∀ c ∈ gap, Blank c) (hrest : ∀ c ∈ rest.head?, Blank c) :
    next? (gap ++ (cs ++ rest)) = some (t, rest) := by
  cases h with
  | @flag k cs hk hne =>
    have hhead : ∀ c ∈ (cs ++ rest).head?, ¬ Blank c := by
      rw [List.head?_append, Option.or_of_isSome (List.isSome_head?.mpr hne)]
      exact hk.head_not_blank
    have hword := hk.word?_append (fun c => InKey.not_ends) (fun c hc => .inl (hrest c hc))
      fun h => hne (List.append_eq_nil_iff.mp h).1
    -- a blank follows the flag, so it is not taken for the key of a pair
    have hequals : ∀ r, rest ≠ '=' :: r := by
      rintro r rfl
      exact not_blank_equals (hrest '=' rfl)
    unfold next?
    rw [trim_append hg hhead, hword]
    split
    · next h => cases h
    · next h =>
      cases h
      exact absurd rfl (hequals _)
    · next h =>
      cases h
      rw [String.ofList_toList]
  | @pair k v cs ds hk hv =>
    rw [List.append_assoc, List.cons_append]
    have hhead : ∀ c ∈ (cs ++ '=' :: (ds ++ rest)).head?, ¬ Blank c := by
      intro c hc
      rw [List.head?_append, Option.mem_def, Option.or_eq_some_iff] at hc
      obtain hc | ⟨-, ⟨⟩⟩ := hc
      · exact hk.head_not_blank c hc
      · exact not_blank_equals
    have hequals : ∀ c ∈ ('=' :: (ds ++ rest)).head?, Ends true c := by
      rintro c ⟨⟩
      exact .inr ⟨rfl, rfl⟩
    have hword := hk.word?_append (fun c => InKey.not_ends) hequals (by simp)
    unfold next?
    rw [trim_append hg hhead, hword]
    simp only [hv.value_append hrest, String.ofList_toList]

lemma next?_blanks (hg : ∀ c ∈ gap, Blank c) : next? gap = none := by
  have hnone : ∀ c ∈ ([] : List Char).head?, ¬ Blank c := by simp
  have h := trim_append hg hnone
  rw [List.append_nil] at h
  rw [next?, h]
  rfl

lemma tokensOf_of_none (h : next? cs = none) : tokensOf cs = [] := by
  rw [tokensOf]
  split
  · rfl
  · next h' => rw [h] at h'; cases h'

lemma tokensOf_of_some (h : next? cs = some (t, rest)) : tokensOf cs = t :: tokensOf rest := by
  rw [tokensOf]
  split
  · next h' => rw [h] at h'; cases h'
  · next h' => rw [h] at h'; cases h'; rfl

lemma LineForm.tokensOf_eq {ts : List Token} (h : LineForm ts cs) : tokensOf cs = ts := by
  induction h with
  | nil hg => exact tokensOf_of_none (next?_blanks hg)
  | cons hg ht hr hrest ih => rw [tokensOf_of_some (ht.next?_append hg hr), ih]

end Scanning

end CommandLine

/-! ### Options of a list of tokens -/

namespace Options

/-- The name of a filter in a command line. -/
def nameOf : Log.Filter → String
  | .off => "off"
  | .upTo .error => "error"
  | .upTo .warn => "warn"
  | .upTo .info => "info"
  | .upTo .debug => "debug"
  | .upTo .trace => "trace"

lemma filter?_nameOf (f : Log.Filter) : filter? (nameOf f) = some f := by
  rcases f with _ | ⟨_ | _ | _ | _ | _⟩ <;> rfl

lemma eq_nameOf_of_filter? {v : String} {f : Log.Filter} (h : filter? v = some f) : v = nameOf f := by
  unfold filter? at h
  split at h <;> cases h <;> rfl

section Apply

variable (o : Options) (ts : List Token) (t : Token)

lemma memoryMap_apply : (o.apply t).memoryMap = true ↔ o.memoryMap = true ∨ t = .flag "memmap" := by
  unfold apply
  split <;> simp_all

lemma selfTest_apply : (o.apply t).selfTest = true ↔ o.selfTest = true ∨ t = .flag "selftest" := by
  unfold apply
  split <;> simp_all

def NamesFilter (t : Token) : Prop := ∃ f, t = .pair "loglevel" (nameOf f)

lemma logLevel_apply_pair (f : Log.Filter) : (o.apply (.pair "loglevel" (nameOf f))).logLevel = f := by
  simp only [apply, filter?_nameOf, Option.getD_some]

variable {t} in
lemma logLevel_apply_of_not (h : ¬ NamesFilter t) : (o.apply t).logLevel = o.logLevel := by
  unfold apply
  split
  · next v =>
    cases hv : filter? v with
    | none => rfl
    | some f => exact absurd ⟨f, congrArg _ (eq_nameOf_of_filter? hv)⟩ h
  · rfl
  · rfl
  · rfl

/-- A setting that only one token turns on is on after tokens among which it occurs. -/
lemma foldl_apply_iff {on : Options → Bool} {u : Token} (h : ∀ o t, on (o.apply t) = true ↔ on o = true ∨ t = u) :
    on (ts.foldl apply o) = true ↔ on o = true ∨ u ∈ ts := by
  induction ts generalizing o with
  | nil => simp
  | cons t ts ih => rw [List.foldl_cons, ih, h, List.mem_cons, or_assoc, @eq_comm _ t]

variable {ts} in
lemma logLevel_foldl_of_not (h : ∀ t ∈ ts, ¬ NamesFilter t) : (ts.foldl apply o).logLevel = o.logLevel := by
  induction ts generalizing o with
  | nil => rfl
  | cons t ts ih =>
    rw [List.foldl_cons, ih _ fun u hu => h u (List.mem_cons_of_mem t hu),
      logLevel_apply_of_not o (h t (List.mem_cons_self ..))]

end Apply

end Options

/-! ### Round trip -/

open CommandLine
open Options (nameOf NamesFilter ofCommandLine)

/-- **Command lines round-trip.** In whatever form a list of tokens is written, exactly these tokens are read back. The
flags among the options say whether the token of their name occurs, and the filter is the one that the last token with
the name of a filter asks for, or that of the default if there is none. -/
theorem command_lines_round_trip {ts : List Token} {s : String} (h : LineForm ts s.toList) :
    tokens s = ts ∧
    ((ofCommandLine s).memoryMap = true ↔ .flag "memmap" ∈ ts) ∧
    ((ofCommandLine s).selfTest = true ↔ .flag "selftest" ∈ ts) ∧
    (∀ earlier f later, ts = earlier ++ .pair "loglevel" (nameOf f) :: later → (∀ t ∈ later, ¬ NamesFilter t) →
      (ofCommandLine s).logLevel = f) ∧
    ((∀ t ∈ ts, ¬ NamesFilter t) → (ofCommandLine s).logLevel = .upTo .info) := by
  have hts : tokens s = ts := h.tokensOf_eq
  unfold ofCommandLine
  rw [hts]
  refine ⟨rfl, ?_, ?_, ?_, ?_⟩
  · exact (Options.foldl_apply_iff _ ts Options.memoryMap_apply).trans (or_iff_right (by decide))
  · exact (Options.foldl_apply_iff _ ts Options.selfTest_apply).trans (or_iff_right (by decide))
  · rintro earlier f later rfl hlater
    rw [List.foldl_append, List.foldl_cons, Options.logLevel_foldl_of_not _ hlater, Options.logLevel_apply_pair]
  · intro hnone
    rw [Options.logLevel_foldl_of_not _ hnone]
    rfl

/-- A line with both forms of words, an empty key, an equals sign inside of a value and two tokens for the filter, the
first of which names none. -/
theorem command_lines_round_trip_both_forms :
    let s := "loglevel=loud \"memmap\"\t=\"a b=\" loglevel=\"debug\" "
    let ts : List Token := [.pair "loglevel" "loud", .flag "memmap", .pair "" "a b=", .pair "loglevel" "debug"]
    LineForm ts s.toList ∧ tokens s = ts ∧ (ofCommandLine s).memoryMap = true ∧ (ofCommandLine s).selfTest = false ∧
      (ofCommandLine s).logLevel = .upTo .debug := by
  intro s ts
  have hnone : ∀ c ∈ ([] : List Char), Blank c := nofun
  have hblank : ∀ c ∈ [' '], Blank c := List.forall_mem_singleton.mpr (by decide)
  have htab : ∀ c ∈ ['\t'], Blank c := List.forall_mem_singleton.mpr (by decide)
  have hword : ∀ {Bare : Char → Prop} [DecidablePred Bare] {w : String},
      '"' ∉ w.toList → w.toList.all (Bare ·) = true → WordForm Bare w w.toList := fun hq hb =>
    .bare hq (by simpa using hb)
  have hloud : TokenForm (.pair "loglevel" "loud") ("loglevel".toList ++ '=' :: "loud".toList) :=
    .pair (hword (by decide) (by decide)) (hword (by decide) (by decide))
  have hflag : TokenForm (.flag "memmap") ('"' :: ("memmap".toList ++ ['"'])) :=
    .flag (.quoted (by decide)) (by decide)
  have hkey : TokenForm (.pair "" "a b=") ("".toList ++ '=' :: '"' :: ("a b=".toList ++ ['"'])) :=
    .pair (hword (by decide) (by decide)) (.quoted (by decide))
  have hdebug : TokenForm (.pair "loglevel" "debug") ("loglevel".toList ++ '=' :: '"' :: ("debug".toList ++ ['"'])) :=
    .pair (hword (by decide) (by decide)) (.quoted (by decide))
  have hline := LineForm.cons hnone hloud (by rintro c ⟨⟩; decide) (.cons hblank hflag (by rintro c ⟨⟩; decide)
    (.cons htab hkey (by rintro c ⟨⟩; decide) (.cons hblank hdebug (by rintro c ⟨⟩; decide) (.nil hblank))))
  have h : LineForm ts s.toList := cast (congrArg (LineForm ts) (by decide)) hline
  obtain ⟨htokens, hmemory, hself, hlevel, -⟩ := command_lines_round_trip h
  refine ⟨h, htokens, hmemory.mpr (by decide), ?_, hlevel (ts.take 3) (.upTo .debug) [] rfl (by simp)⟩
  exact Bool.eq_false_iff.mpr fun hs => absurd (hself.mp hs) (by decide)

end Nucleus.Boot
