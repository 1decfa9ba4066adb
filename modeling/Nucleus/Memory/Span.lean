import Nucleus.Address

/-!
Spans of whole pages, and the two ways of rounding a range of bytes to one: inwards to the pages that lie
completely in the range, and outwards to the pages that share a byte with it.
-/

namespace Nucleus.Memory

/-- The pages from `first` on and below `last`, counted from address zero. -/
structure Span where
  first : Nat
  last : Nat
  deriving DecidableEq, Repr

namespace Span

/-- The page after the last one that a span can end with. -/
def limit : Nat := 0xFFFFFFFFFFFFF

/-- The number of pages. -/
def pages (s : Span) : Nat := s.last - s.first

/-- The number of pages of some spans together. -/
def pagesOf (spans : List Span) : Nat := spans.foldr (fun s n => s.pages + n) 0

def IsEmpty (s : Span) : Prop := s.last ≤ s.first

instance (s : Span) : Decidable s.IsEmpty := inferInstanceAs (Decidable (_ ≤ _))

instance : Membership Nat Span := ⟨fun s p => s.first ≤ p ∧ p < s.last⟩

instance (p : Nat) (s : Span) : Decidable (p ∈ s) :=
  inferInstanceAs (Decidable (s.first ≤ p ∧ p < s.last))

theorem mem_def {p : Nat} {s : Span} : p ∈ s ↔ s.first ≤ p ∧ p < s.last := Iff.rfl

def Meets (s t : Span) : Prop := s.first < t.last ∧ t.first < s.last

instance (s t : Span) : Decidable (s.Meets t) :=
  inferInstanceAs (Decidable (s.first < t.last ∧ t.first < s.last))

/-- The common pages of two spans. -/
def meet (s t : Span) : Span := ⟨max s.first t.first, min s.last t.last⟩

/-- Address of the first byte. -/
def start (s : Span) : Nat := pageSize * s.first

/-- Address behind the last byte. -/
def stop (s : Span) : Nat := pageSize * s.last

/-! ### Rounding -/

/-- The pages that lie completely in `length` bytes from `base` on. -/
def within (base length : UInt64) : Span :=
  let stop : PhysAddr := ⟨Word.addSaturating base length⟩
  match Addr.pageAbove (⟨base⟩ : PhysAddr) with
  | .ok start => ⟨start.page, stop.pageBase.page⟩
  -- no page starts at or above `base`
  | .error _ => ⟨limit + 1, stop.pageBase.page⟩

/-- The first page boundary at or above `stop`, or the last boundary there is. -/
def boundary (stop : PhysAddr) : PhysAddr :=
  match stop.pageAbove with
  | .ok a => a
  | .error _ => Addr.pageBase ⟨0xFFFFFFFFFFFFFFFF⟩

/-- The pages around `start` and up to `stop`; the last page of the address space is left out. -/
def covering (start stop : PhysAddr) : Span := ⟨start.pageBase.page, (boundary stop).page⟩

/-- The pages that share a byte with `length` bytes from `base` on. -/
def around (base length : UInt64) : Span := covering ⟨base⟩ ⟨Word.addSaturating base length⟩

def describe (s : Span) : String := Text.hexMarked s.start ++ "-" ++ Text.hexMarked s.stop

end Span

end Nucleus.Memory
