/-!
The exceptions that the processor raises on the vectors 0 to 31.
-/

namespace Nucleus.Trap

/-- An exception, named by its vector. -/
structure Exception where
  vector : UInt8
  deriving DecidableEq, Repr

namespace Exception

/-- A fault while another one was delivered. -/
def doubleFault : Exception := ⟨8⟩
/-- A violation of segmentation or privilege rules. -/
def generalProtection : Exception := ⟨13⟩
/-- A mapping that is absent or forbids the access. -/
def pageFault : Exception := ⟨14⟩

def count : UInt8 := 32

/-- The exception on a vector, if the vector belongs to one. -/
def ofVector? (v : UInt8) : Option Exception := if v < count then some ⟨v⟩ else none

def HasErrorCode (e : Exception) : Prop := e.vector ∈ [8, 10, 11, 12, 13, 14, 17, 21, 29, 30]

instance (e : Exception) : Decidable e.HasErrorCode := inferInstanceAs (Decidable (_ ∈ _))

def name (e : Exception) : String :=
  match e.vector.toNat with
  | 0 => "Divide Error"
  | 1 => "Debug"
  | 2 => "Non-Maskable Interrupt"
  | 3 => "Breakpoint"
  | 4 => "Overflow"
  | 5 => "Bound Range Exceeded"
  | 6 => "Invalid Opcode"
  | 7 => "Device Not Available"
  | 8 => "Double Fault"
  | 9 => "Coprocessor Segment Overrun"
  | 10 => "Invalid TSS"
  | 11 => "Segment Not Present"
  | 12 => "Stack-Segment Fault"
  | 13 => "General Protection Fault"
  | 14 => "Page Fault"
  | 16 => "x87 Floating-Point Exception"
  | 17 => "Alignment Check"
  | 18 => "Machine Check"
  | 19 => "SIMD Floating-Point Exception"
  | 20 => "Virtualization Exception"
  | 21 => "Control Protection Exception"
  | 28 => "Hypervisor Injection Exception"
  | 29 => "VMM Communication Exception"
  | 30 => "Security Exception"
  | _ => "Reserved"

end Exception

end Nucleus.Trap
