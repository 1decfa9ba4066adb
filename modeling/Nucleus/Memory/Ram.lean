import Std.Data.TreeMap.Lemmas
import Nucleus.Address

/-!
Random access memory as a total map from byte addresses to bytes, kept in words of eight bytes, the least
significant byte first. Words that were never written show the background.
-/

namespace Nucleus.Memory

/-- The contents of memory. -/
structure Ram where
  /-- The word at eight times the given number before anything is written. -/
  background : Nat → UInt64
  /-- The words that were written, by their number. -/
  written : Std.TreeMap Nat UInt64

namespace Ram

def ofBackground (background : Nat → UInt64) : Ram := ⟨background, ∅⟩

/-! ### Whole words -/

/-- The word number `i`, which starts at the address `8 * i`. -/
def word (r : Ram) (i : Nat) : UInt64 := r.written.getD i (r.background i)

def setWord (r : Ram) (i : Nat) (w : UInt64) : Ram := { r with written := r.written.insert i w }

theorem word_setWord (r : Ram) (i j : Nat) (w : UInt64) :
    (r.setWord i w).word j = if i = j then w else r.word j := by
  simp only [word, setWord, Std.TreeMap.getD_insert, Std.compare_eq_iff_eq]

/-! ### Access at any address -/

/-- The eight bytes from `a` on. -/
def load (r : Ram) (a : Nat) : UInt64 :=
  if a % 8 = 0 then r.word (a / 8)
  else
    let low := UInt64.ofNat (8 * (a % 8))
    (r.word (a / 8) >>> low) ||| (r.word (a / 8 + 1) <<< (64 - low))

/-- Memory after writing the eight bytes from `a` on. -/
def store (r : Ram) (a : Nat) (w : UInt64) : Ram :=
  if a % 8 = 0 then r.setWord (a / 8) w
  else
    let low := UInt64.ofNat (8 * (a % 8))
    let kept := (1 <<< low) - 1
    let first := (r.word (a / 8) &&& kept) ||| (w <<< low)
    let second := (r.word (a / 8 + 1) &&& ~~~kept) ||| (w >>> (64 - low))
    (r.setWord (a / 8) first).setWord (a / 8 + 1) second

/-- Memory after writing zero to the `n` words from `a` on. -/
def clear (r : Ram) (a : Nat) : Nat → Ram
  | 0 => r
  | n + 1 => (r.store a 0).clear (a + 8) n

/-- The byte at `a`. -/
def byte (r : Ram) (a : Nat) : UInt8 :=
  (r.word (a / 8) >>> UInt64.ofNat (8 * (a % 8))).toUInt8

def setByte (r : Ram) (a : Nat) (b : UInt8) : Ram :=
  let low := UInt64.ofNat (8 * (a % 8))
  r.setWord (a / 8) ((r.word (a / 8) &&& ~~~(0xFF <<< low)) ||| (b.toUInt64 <<< low))

/-- The `n` bytes from `a` on. -/
def bytes (r : Ram) (a n : Nat) : List UInt8 := (List.range' a n).map r.byte

def place (r : Ram) (a : Nat) : List UInt8 → Ram
  | [] => r
  | b :: bs => (r.setByte a b).place (a + 1) bs

/-! ### Words of aligned addresses -/

theorem load_eq_word {r : Ram} {a : Nat} (h : a % 8 = 0) : r.load a = r.word (a / 8) := if_pos h

theorem load_store {r : Ram} {a b : Nat} (ha : a % 8 = 0) (hb : b % 8 = 0) (w : UInt64) :
    (r.store a w).load b = if a = b then w else r.load b := by
  rw [load_eq_word hb, store, if_pos ha, word_setWord, load_eq_word hb]
  split <;> split <;> first | rfl | omega

theorem load_clear {r : Ram} {a b : Nat} (ha : a % 8 = 0) (hb : b % 8 = 0) (n : Nat) :
    (r.clear a n).load b = if a ≤ b ∧ b < a + 8 * n then 0 else r.load b := by
  induction n generalizing r a with
  | zero => rw [clear, if_neg (by omega)]
  | succ n ih =>
    rw [clear, ih (by omega), load_store ha hb]
    by_cases h : a = b
    · rw [if_neg (by omega), if_pos h, if_pos (by omega)]
    · rw [if_neg h]
      by_cases h' : a + 8 ≤ b ∧ b < a + 8 + 8 * n
      · rw [if_pos h', if_pos (by omega)]
      · rw [if_neg h', if_neg (by omega)]

end Ram

end Nucleus.Memory
