import Nucleus.Log
import Nucleus.Text.Blank
import Nucleus.Text.Quoted

/-!
The boot command line: words separated by blanks, each a flag or a pair `key=value`. Either side may stand
in double quotes to include blanks or `=`. The scanner gets shorter with each word it takes.
-/

namespace Nucleus.Boot

/-- A word of the command line. -/
inductive Token where
  | flag (word : String)
  | pair (key value : String)
  deriving DecidableEq, Repr

namespace CommandLine

/-! ### Scanning -/

/-- The character ends an unquoted word. -/
def Ends (stopAtEquals : Bool) (c : Char) : Prop := Text.Blank c ∨ (stopAtEquals ∧ c = '=')

instance (b : Bool) (c : Char) : Decidable (Ends b c) := inferInstanceAs (Decidable (_ ∨ _))

/-- The word at the start of the text and the text behind it; a quote that is never closed takes all. -/
def word? (stopAtEquals : Bool) : List Char → Option (List Char × List Char)
  | [] => none
  | c :: cs =>
    if c = '"' then some (cs.takeWhile (· ≠ '"'), (cs.dropWhile (· ≠ '"')).drop 1)
    else some ((c :: cs).takeWhile (¬ Ends stopAtEquals ·), (c :: cs).dropWhile (¬ Ends stopAtEquals ·))

/-- The text without the blanks in front. -/
def trim (cs : List Char) : List Char := cs.dropWhile (Text.Blank ·)

/-- The value behind an equals sign and the text behind the value. -/
def value (cs : List Char) : List Char × List Char := (word? false cs).getD ([], cs)

/-- The first token of the text and the text behind it. -/
def next? (cs : List Char) : Option (Token × List Char) :=
  match word? true (trim cs) with
  | none => none
  | some (key, '=' :: rest) =>
    some (.pair (String.ofList key) (String.ofList (value rest).1), (value rest).2)
  | some (key, rest) => some (.flag (String.ofList key), rest)

/-! ### Progress -/

theorem length_dropWhile_le (p : Char → Bool) (cs : List Char) : (cs.dropWhile p).length ≤ cs.length :=
  (List.dropWhile_sublist p).length_le

theorem length_value_le (cs : List Char) : (value cs).2.length ≤ cs.length := by
  unfold value word?
  split
  · exact Nat.le_refl _
  · next c cs =>
    split
    · have := length_dropWhile_le (· ≠ '"') cs
      simp only [Option.getD_some, List.length_drop, List.length_cons]
      omega
    · exact length_dropWhile_le _ _

/-- Behind a word the text is shorter, unless the word is empty and an equals sign follows. -/
theorem word?_shorter {cs key rest : List Char} (h : word? true cs = some (key, rest))
    (hb : ∀ c ∈ cs.head?, ¬ Text.Blank c) : rest.length < cs.length ∨ ∃ r, rest = '=' :: r ∧ rest = cs := by
  unfold word? at h
  split at h
  · cases h
  · next c cs =>
    split at h
    · cases h
      have := length_dropWhile_le (· ≠ '"') cs
      simp only [List.length_drop, List.length_cons]
      omega
    · cases h
      by_cases he : c = '='
      · subst he
        right
        simp [Ends]
      · left
        have hc : ¬ Ends true c := by
          simp only [Ends, he, and_false, or_false]
          exact hb c (by simp)
        have := length_dropWhile_le (fun c => decide ¬ Ends true c) cs
        simp only [List.dropWhile_cons, hc, not_false_eq_true, decide_true, if_true, List.length_cons]
        omega

theorem head_trim (cs : List Char) : ∀ c ∈ (trim cs).head?, ¬ Text.Blank c := by
  intro c hc
  have h := List.head?_dropWhile_not (fun c => decide (Text.Blank c)) cs
  rw [show (cs.dropWhile fun c => decide (Text.Blank c)).head? = some c from hc] at h
  simpa using h

theorem next?_shorter {cs rest : List Char} {t : Token} (h : next? cs = some (t, rest)) :
    rest.length < cs.length := by
  have ht : (trim cs).length ≤ cs.length := length_dropWhile_le _ _
  unfold next? at h
  split at h
  · cases h
  · next key r hw =>
    cases h
    have hv := length_value_le r
    rcases word?_shorter hw (head_trim cs) with hlt | ⟨r', hr, hrest⟩
    · simp only [List.length_cons] at hlt
      omega
    · rw [← hrest] at ht
      simp only [List.length_cons] at ht
      omega
  · next key r hne hw =>
    cases h
    rcases word?_shorter hw (head_trim cs) with hlt | ⟨r', hr, _⟩
    · omega
    · exact absurd hr (hne r')

def tokensOf (cs : List Char) : List Token :=
  match _step : next? cs with
  | none => []
  | some (t, rest) => t :: tokensOf rest
termination_by cs.length
decreasing_by exact next?_shorter _step

def tokens (s : String) : List Token := tokensOf s.toList

end CommandLine

/-! ### Options -/

def Token.describe : Token → String
  | flag w => "Flag(" ++ Text.quoted w ++ ")"
  | pair k v => "KeyValuePair(" ++ Text.quoted k ++ ", " ++ Text.quoted v ++ ")"

/-- What the command line can choose. -/
structure Options where
  logLevel : Log.Filter
  /-- Print the memory map and the region table. -/
  memoryMap : Bool
  /-- Exercise the memory core once it is up. -/
  selfTest : Bool
  deriving DecidableEq, Repr

namespace Options

def default : Options := ⟨.upTo .info, false, false⟩

def filter? : String → Option Log.Filter
  | "off" => some .off
  | "error" => some (.upTo .error)
  | "warn" => some (.upTo .warn)
  | "info" => some (.upTo .info)
  | "debug" => some (.upTo .debug)
  | "trace" => some (.upTo .trace)
  | _ => none

def apply (o : Options) : Token → Options
  | .pair "loglevel" v => { o with logLevel := (filter? v).getD o.logLevel }
  | .flag "memmap" => { o with memoryMap := true }
  | .flag "selftest" => { o with selfTest := true }
  | _ => o

/-- The record that reports a token without a meaning, if it has none. -/
def complaint? : Token → Option Log.Record
  | .pair "loglevel" v =>
    match filter? v with
    | some _ => none
    | none => some ⟨.warn, "kcore::cmdline", "[cmdline] unknown log level " ++ Text.quoted v⟩
  | .flag "memmap" => none
  | .flag "selftest" => none
  | t => some ⟨.debug, "kcore::cmdline", "[cmdline] ignoring " ++ t.describe⟩

def ofCommandLine (s : String) : Options := (CommandLine.tokens s).foldl apply default

def complaints (s : String) : List Log.Record := (CommandLine.tokens s).filterMap complaint?

end Options

end Nucleus.Boot
