import Nucleus.Address
import Nucleus.Text.Flags

/-!
Entries of page tables: a word that holds the address of a page or of a table in bits 12 to 51, and flags
around it. The address and the flags can be set independently of each other.
-/

namespace Nucleus.Paging

/-! ### Masking -/

theorem or_and (a b c : UInt64) : (a ||| b) &&& c = (a &&& c) ||| (b &&& c) := by
  apply UInt64.eq_of_toBitVec_eq
  simp only [UInt64.toBitVec_and, UInt64.toBitVec_or, BitVec.and_or_distrib_right]

/-! ### Flags -/

/-- The bits of an entry that have a meaning as flags. -/
def flagMask : UInt64 := 0x80000000000003FF

structure Flags where
  bits : UInt64
  bits_and_mask : bits &&& flagMask = bits
  deriving DecidableEq, Repr

namespace Flags

/-- The flags among the given bits; bits without a meaning are dropped. -/
def ofBits (bits : UInt64) : Flags := ⟨bits &&& flagMask, by rw [UInt64.and_assoc, UInt64.and_self]⟩

/-- The entry points to a page or a table. -/
def present : Flags := ⟨0x1, by decide⟩
/-- Writing is allowed below this entry. -/
def writable : Flags := ⟨0x2, by decide⟩
/-- The entry maps a large page instead of pointing to a table. -/
def huge : Flags := ⟨0x80, by decide⟩
/-- There is no frame yet; the first access brings one. -/
def demand : Flags := ⟨0x200, by decide⟩

def union (f g : Flags) : Flags :=
  ⟨f.bits ||| g.bits, by rw [or_and, f.bits_and_mask, g.bits_and_mask]⟩

instance : Union Flags := ⟨union⟩

def remove (f g : Flags) : Flags := ofBits (f.bits &&& ~~~g.bits)

def Contains (f g : Flags) : Prop := f.bits &&& g.bits = g.bits

instance (f g : Flags) : Decidable (f.Contains g) := inferInstanceAs (Decidable (_ = _))

/-- The names of the flags, lowest bit first. -/
def names : List (String × UInt64) :=
  [("PRESENT", 0x1), ("WRITABLE", 0x2), ("USER", 0x4), ("PWT", 0x8), ("PCD", 0x10),
   ("ACCESSED", 0x20), ("DIRTY", 0x40), ("HUGE", 0x80), ("GLOBAL", 0x100),
   ("DEMAND", 0x200), ("NO_EXECUTE", 0x8000000000000000)]

def describe (f : Flags) : String := Text.flags names f.bits

end Flags

/-! ### Entries -/

/-- The bits of an entry that hold an address. -/
def baseMask : UInt64 := 0x000FFFFFFFFFF000

/-- One slot of a page table. -/
structure Entry where
  raw : UInt64
  deriving DecidableEq, Repr

namespace Entry

def empty : Entry := ⟨0⟩

/-- The entry that points to the page around `base`. -/
def make (base : PhysAddr) (flags : Flags) : Entry := ⟨(base.word &&& baseMask) ||| flags.bits⟩

/-- The entry has never been written, or was cleared. -/
def Unused (e : Entry) : Prop := e.raw = 0

instance (e : Entry) : Decidable e.Unused := inferInstanceAs (Decidable (_ = _))

def flags (e : Entry) : Flags := Flags.ofBits e.raw

def base (e : Entry) : PhysAddr := ⟨e.raw &&& baseMask⟩

/-- The entry with other flags; bits that are neither flags nor address become zero. -/
def setFlags (e : Entry) (flags : Flags) : Entry := ⟨(e.raw &&& baseMask) ||| flags.bits⟩

/-- The entry with another address; all other bits stay. -/
def setBase (e : Entry) (base : PhysAddr) : Entry :=
  ⟨(e.raw &&& ~~~baseMask) ||| (base.word &&& baseMask)⟩

def Present (e : Entry) : Prop := e.flags.Contains .present
def Huge (e : Entry) : Prop := e.flags.Contains .huge
def Demand (e : Entry) : Prop := e.flags.Contains .demand
def Writable (e : Entry) : Prop := e.flags.Contains .writable

instance (e : Entry) : Decidable e.Present := inferInstanceAs (Decidable (Flags.Contains _ _))
instance (e : Entry) : Decidable e.Huge := inferInstanceAs (Decidable (Flags.Contains _ _))
instance (e : Entry) : Decidable e.Demand := inferInstanceAs (Decidable (Flags.Contains _ _))
instance (e : Entry) : Decidable e.Writable := inferInstanceAs (Decidable (Flags.Contains _ _))

def describe (e : Entry) : String :=
  "PageTableEntry(" ++ Text.hexMarked e.base.toNat ++ ", " ++ e.flags.describe ++ ")"

/-! ### What the constructors leave to be read -/

theorem base_make (b : PhysAddr) (f : Flags) : (make b f).base = ⟨b.word &&& baseMask⟩ := by
  have : f.bits &&& baseMask = 0 := by
    rw [← f.bits_and_mask, UInt64.and_assoc, show flagMask &&& baseMask = 0 by decide, UInt64.and_zero]
  simp only [make, base, or_and, this, UInt64.or_zero, UInt64.and_assoc, UInt64.and_self]

theorem flags_make (b : PhysAddr) (f : Flags) : (make b f).flags = f := by
  obtain ⟨bits, h⟩ := f
  simp only [flags, Flags.ofBits, make, Flags.mk.injEq]
  rw [or_and, h, UInt64.and_assoc, show baseMask &&& flagMask = 0 by decide, UInt64.and_zero,
    UInt64.zero_or]

end Entry

end Nucleus.Paging
