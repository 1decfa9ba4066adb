/-!
The written forms of numbers in messages: hexadecimal digits in lower case, filled up with zeros to a
fixed count where a column asks for it, and texts filled up with blanks on either side.
-/

namespace Nucleus.Text

/-! ### Digits -/

/-- The hexadecimal digits of `n` in lower case, without leading zeros; zero is the single digit `0`. -/
def hexDigits (n : Nat) : List Char := Nat.toDigits 16 n

def hex (n : Nat) : String := String.ofList (hexDigits n)

def hexFilled (width n : Nat) : String := String.ofList ((hexDigits n).leftpad width '0')

def hexMarked (n : Nat) : String := "0x" ++ hex n

def hexMarkedFilled (width n : Nat) : String := "0x" ++ hexFilled width n

/-- A 64 bit word in all of its 16 digits. -/
def word (w : UInt64) : String := hexFilled 16 w.toNat

/-- A byte as two digits behind the mark `0x`. -/
def byte (b : UInt8) : String := hexMarkedFilled 2 b.toNat

def decimal (n : Nat) : String := String.ofList (Nat.toDigits 10 n)

/-! ### Columns -/

def blanks (n : Nat) : String := String.ofList (List.replicate n ' ')

def left (width : Nat) (s : String) : String := s ++ blanks (width - s.length)

def right (width : Nat) (s : String) : String := blanks (width - s.length) ++ s

/-- `s` in the middle of a column of `width` characters; an odd blank goes to the right. -/
def centre (width : Nat) (s : String) : String :=
  let spare := width - s.length
  blanks (spare / 2) ++ s ++ blanks (spare - spare / 2)

end Nucleus.Text
