import Nucleus.Descriptor.Selector
import Nucleus.Descriptor.TaskState

/-!
The global descriptor table: the flat code and data segments of the kernel and, in two slots, the task state
segment.
-/

namespace Nucleus.Descriptor

/-- A field of a descriptor that starts at the given bit. -/
def field (value bit : UInt64) : UInt64 := value <<< bit

/-- A descriptor that spans all memory; its base and limit count for nothing in 64 bit code. -/
def flatSegment (access flags : UInt8) : UInt64 :=
  field 0xFFFF 0 ||| field 0xF 48 ||| field access.toUInt64 40 ||| field (flags.toUInt64 &&& 0xF0) 48

/-- Present, kernel ring, executable and readable 64 bit code. -/
def kernelCode : UInt64 := flatSegment 0x9A 0xA0

/-- Present, kernel ring, writable data. -/
def kernelData : UInt64 := flatSegment 0x92 0xC0

/-- The low slot of an available task state segment. -/
def taskLow (base : UInt64) (limit : UInt32) : UInt64 :=
  let limit := limit.toUInt64
  field (limit &&& 0xFFFF) 0 ||| field (base &&& 0xFFFFFF) 16 ||| field 0x89 40 |||
    field (limit >>> 16 &&& 0xF) 48 ||| field (base >>> 24 &&& 0xFF) 56

/-- The high slot of a task state segment. -/
def taskHigh (base : UInt64) : UInt64 := base >>> 32

def segmentSlots : Nat := 5

/-- The selector of the kernel's code. -/
def codeSelector : Selector := .new 1 .kernel
/-- The selector of the task state segment. -/
def taskSelector : Selector := .new 3 .kernel

/-- The global descriptor table. -/
structure SegmentTable where
  slots : Vector UInt64 segmentSlots
  deriving DecidableEq, Repr

namespace SegmentTable

/-- The table with the segments of the kernel and no task state segment. -/
def new : SegmentTable := ⟨#v[0, kernelCode, kernelData, 0, 0]⟩

def setTask (t : SegmentTable) (base : UInt64) : SegmentTable :=
  ⟨(t.slots.set 3 (taskLow base (UInt32.ofNat (taskStateSize - 1))) (by decide)).set 4 (taskHigh base)
    (by decide)⟩

/-- Bytes that the table takes, a multiple of sixteen. -/
def size : Nat := 48

end SegmentTable

end Nucleus.Descriptor
