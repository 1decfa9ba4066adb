import Nucleus.Memory.Span

/-!
The window through which physical memory is visible at virtual addresses, and the numbers of page frames.
-/

namespace Nucleus.Memory

/-- Physical memory that is mapped linearly to virtual addresses. -/
structure DirectMapping where
  /-- The physical memory that is reachable. -/
  frames : PhysRange
  /-- Where its first byte is visible. -/
  window : VirtAddr
  deriving DecidableEq, Repr

namespace DirectMapping

/-- Maps `size` bytes from `physical` on to `virtual` on. -/
def new («virtual» : VirtAddr) (physical : PhysAddr) (size : UInt64) : Checked DirectMapping :=
  return ⟨← AddrRange.new physical size, «virtual»⟩

/-- Where the byte at `a` is visible, if it is. -/
def visible? (m : DirectMapping) (a : PhysAddr) : Checked (Option VirtAddr) :=
  if a ∈ m.frames then return some (← m.window.add (← a.distance m.frames.start)) else .ok none

/-- Where the byte at `a` is visible; a fault if it is not. -/
def visible (m : DirectMapping) (a : PhysAddr) : Checked VirtAddr := do
  match ← m.visible? a with
  | some v => return v
  | none => throw (.unreachable a.word)

end DirectMapping

/-- A direct mapping whose window ends in the address space, so that every byte of it is visible. -/
structure Window extends DirectMapping where
  fits : window.toNat + (frames.stop.toNat - frames.start.toNat) ≤ 0x10000000000000000
  deriving DecidableEq, Repr

namespace Window

/-- Where the byte at `a` is visible, if it is reachable. -/
def visible? (w : Window) (a : PhysAddr) : Option VirtAddr :=
  if a ∈ w.frames then some ⟨w.window.word + (a.word - w.frames.start.word)⟩ else none

/-- The window in which physical memory is visible at its own addresses. -/
def identity (r : PhysRange) : Window where
  frames := r
  window := ⟨r.start.word⟩
  fits := by
    have hstart := r.start.toNat_lt
    have hstop := r.stop.toNat_lt
    show r.start.toNat + (r.stop.toNat - r.start.toNat) ≤ _
    omega

theorem visible?_of_mem {w : Window} {a : PhysAddr} (h : a ∈ w.frames) :
    w.visible? a = some ⟨w.window.word + (a.word - w.frames.start.word)⟩ := if_pos h

theorem visible?_of_not_mem {w : Window} {a : PhysAddr} (h : a ∉ w.frames) : w.visible? a = none := if_neg h

theorem isSome_visible? {w : Window} {a : PhysAddr} : (w.visible? a).isSome ↔ a ∈ w.frames := by
  unfold visible?
  split <;> simp [*]

end Window

/-- The number of a page frame, counted from address zero. -/
structure PageFrame where
  number : UInt64
  deriving DecidableEq, Repr

namespace PageFrame

/-- The first frame that starts at or above `a`. -/
def above (a : PhysAddr) : Checked PageFrame := return ⟨UInt64.ofNat (← a.pageAbove).page⟩

/-- The frame around `a`. -/
def around (a : PhysAddr) : PageFrame := ⟨UInt64.ofNat a.page⟩

/-- The address of the first byte; bits beyond a word are lost. -/
def start (f : PageFrame) : PhysAddr := ⟨f.number <<< 12⟩

/-- The address behind the last byte. -/
def stop (f : PageFrame) : Checked PhysAddr := f.start.add (UInt64.ofNat pageSize)

/-- The frame `n` frames further up. -/
def add (f : PageFrame) (n : UInt64) : Checked PageFrame := return ⟨← Word.add f.number n⟩

end PageFrame

end Nucleus.Memory
