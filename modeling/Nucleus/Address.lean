import Nucleus.Alignment

/-!
Addresses of physical and of virtual memory, which cannot be confused, and half-open ranges of them.
-/

namespace Nucleus

/-- Which memory an address points into. -/
inductive Space where
  | physical
  | virtual
  deriving DecidableEq, Repr

/-- An address of the given space. -/
structure Addr (space : Space) where
  word : UInt64
  deriving DecidableEq, Repr

/-- An address that the memory bus understands. -/
abbrev PhysAddr := Addr .physical

/-- An address that goes through the page tables first. -/
abbrev VirtAddr := Addr .virtual

/-- Bytes of a page and of a page table. -/
def pageSize : Nat := 4096

namespace Addr

variable {space : Space}

def toNat (a : Addr space) : Nat := a.word.toNat

/-- The address with the given number, which must fit into 64 bits. -/
def ofNat (n : Nat) : Addr space := ⟨UInt64.ofNat n⟩

instance : LT (Addr space) := ⟨fun a b => a.toNat < b.toNat⟩
instance : LE (Addr space) := ⟨fun a b => a.toNat ≤ b.toNat⟩
instance (a b : Addr space) : Decidable (a < b) := inferInstanceAs (Decidable (a.toNat < b.toNat))
instance (a b : Addr space) : Decidable (a ≤ b) := inferInstanceAs (Decidable (a.toNat ≤ b.toNat))
instance : Max (Addr space) := ⟨fun a b => if a ≤ b then b else a⟩
instance : Min (Addr space) := ⟨fun a b => if a ≤ b then a else b⟩

theorem lt_def {a b : Addr space} : a < b ↔ a.toNat < b.toNat := Iff.rfl

theorem le_def {a b : Addr space} : a ≤ b ↔ a.toNat ≤ b.toNat := Iff.rfl

theorem toNat_lt (a : Addr space) : a.toNat < 0x10000000000000000 := a.word.toNat_lt

theorem toNat_max (a b : Addr space) : (max a b).toNat = max a.toNat b.toNat := by
  show (if a ≤ b then b else a).toNat = _
  simp only [le_def]
  split <;> omega

theorem toNat_min (a b : Addr space) : (min a b).toNat = min a.toNat b.toNat := by
  show (if a ≤ b then a else b).toNat = _
  simp only [le_def]
  split <;> omega

theorem ext_toNat {a b : Addr space} (h : a.toNat = b.toNat) : a = b := by
  cases a; cases b
  exact congrArg _ (UInt64.toNat_inj.mp h)

theorem toNat_ofNat {n : Nat} (h : n < 0x10000000000000000) : (ofNat n : Addr space).toNat = n :=
  UInt64.toNat_ofNat_of_lt' h

/-! ### Arithmetic -/

/-- The address `n` bytes further up. -/
def add (a : Addr space) (n : UInt64) : Checked (Addr space) := return ⟨← Word.add a.word n⟩

/-- The address `n` bytes further down. -/
def sub (a : Addr space) (n : UInt64) : Checked (Addr space) := return ⟨← Word.sub a.word n⟩

/-- How far `a` lies above `b`. -/
def distance (a b : Addr space) : Checked UInt64 := Word.sub a.word b.word

/-- The address rounded down to a multiple of `n`. -/
def alignDown (a : Addr space) (n : UInt64) : Checked (Addr space) :=
  return ⟨⟨← Alignment.down a.word.toBitVec n.toBitVec⟩⟩

/-- The address rounded up to a multiple of `n`. -/
def alignUp (a : Addr space) (n : UInt64) : Checked (Addr space) :=
  return ⟨⟨← Alignment.up a.word.toBitVec n.toBitVec⟩⟩

def isAligned (a : Addr space) (n : UInt64) : Checked Bool :=
  Alignment.isAligned a.word.toBitVec n.toBitVec

/-- The first address of the page around `a`. -/
def pageBase (a : Addr space) : Addr space := ⟨a.word &&& ~~~0xFFF⟩

/-- The first address of a page at or above `a`. -/
def pageAbove (a : Addr space) : Checked (Addr space) := a.alignUp (UInt64.ofNat pageSize)

/-- The number of the page around `a`. -/
def page (a : Addr space) : Nat := a.toNat / pageSize

/-- The address is the first of a page. -/
def PageAligned (a : Addr space) : Prop := a.toNat % pageSize = 0

instance (a : Addr space) : Decidable a.PageAligned := inferInstanceAs (Decidable (_ = _))

def null : Addr space := ⟨0⟩

def compare (a b : Addr space) : Ordering := Ord.compare a.toNat b.toNat

/-! ### Written forms -/

/-- The letter that tells the spaces apart in the long written form. -/
def tag : Space → String
  | .physical => "P"
  | .virtual => "V"

/-- The long written form: all digits and the letter of the space. -/
def pretty (a : Addr space) : String := "0x" ++ Text.word a.word ++ "_" ++ tag space

/-- The name of the kind of address, in its descriptive form. -/
def kindName : Space → String
  | .physical => "PhysAddr"
  | .virtual => "VirtAddr"

/-- The descriptive form: kind and decimal number. -/
def describe (a : Addr space) : String := kindName space ++ "(" ++ Text.decimal a.toNat ++ ")"

/-- The upper 16 bits repeat bit 47. -/
def Canonical (a : VirtAddr) : Prop := a.word >>> 47 = 0 ∨ a.word >>> 47 = 0x1FFFF

instance (a : VirtAddr) : Decidable a.Canonical := inferInstanceAs (Decidable (_ ∨ _))

end Addr

/-! ### Ranges -/

/-- The addresses from `start` on and below `stop`. -/
structure AddrRange (space : Space) where
  start : Addr space
  stop : Addr space
  deriving DecidableEq, Repr

abbrev PhysRange := AddrRange .physical

abbrev VirtRange := AddrRange .virtual

namespace AddrRange

variable {space : Space}

/-- `length` bytes from `start` on. -/
def new (start : Addr space) (length : UInt64) : Checked (AddrRange space) :=
  return ⟨start, ← start.add length⟩

/-- The range with these bounds; inverted bounds give an empty range at `start`. -/
def ofBounds (start stop : Addr space) : AddrRange space :=
  ⟨start, if stop < start then start else stop⟩

/-- The number of bytes, a fault for inverted bounds. -/
def length (r : AddrRange space) : Checked UInt64 := r.stop.distance r.start

def IsEmpty (r : AddrRange space) : Prop := r.stop ≤ r.start

instance (r : AddrRange space) : Decidable r.IsEmpty :=
  inferInstanceAs (Decidable (r.stop ≤ r.start))

instance : Membership (Addr space) (AddrRange space) := ⟨fun r a => r.start ≤ a ∧ a < r.stop⟩

instance (a : Addr space) (r : AddrRange space) : Decidable (a ∈ r) :=
  inferInstanceAs (Decidable (r.start ≤ a ∧ a < r.stop))

/-- Each range starts before the other ends. -/
def Overlaps (r s : AddrRange space) : Prop := r.start < s.stop ∧ s.start < r.stop

instance (r s : AddrRange space) : Decidable (r.Overlaps s) :=
  inferInstanceAs (Decidable (r.start < s.stop ∧ s.start < r.stop))

def intersection (r s : AddrRange space) : Option (AddrRange space) :=
  let start := max r.start s.start
  let stop := min r.stop s.stop
  if start < stop then some ⟨start, stop⟩ else none

theorem mem_def {a : Addr space} {r : AddrRange space} : a ∈ r ↔ r.start ≤ a ∧ a < r.stop := Iff.rfl

end AddrRange

end Nucleus
