import Nucleus.Text.Number

/-!
The state of the processor at a trap: the general registers and the words that the processor saves itself.
A trap frame is all of it together with the vector and the error code, as it lies on the stack.
-/

namespace Nucleus.Trap

/-- The general registers apart from the stack pointer. -/
inductive Register where
  | rax | rbx | rcx | rdx | rsi | rdi | r8 | r9 | r10 | r11 | r12 | r13 | r14 | r15 | rbp
  deriving DecidableEq, Repr

structure Registers where
  rax : UInt64
  rbx : UInt64
  rcx : UInt64
  rdx : UInt64
  rsi : UInt64
  rdi : UInt64
  r8 : UInt64
  r9 : UInt64
  r10 : UInt64
  r11 : UInt64
  r12 : UInt64
  r13 : UInt64
  r14 : UInt64
  r15 : UInt64
  rbp : UInt64
  deriving DecidableEq, Repr

namespace Registers

def zero : Registers := ⟨0, 0, 0, 0, 0, 0, 0, 0, 0, 0, 0, 0, 0, 0, 0⟩

def get (r : Registers) : Register → UInt64
  | .rax => r.rax | .rbx => r.rbx | .rcx => r.rcx | .rdx => r.rdx | .rsi => r.rsi | .rdi => r.rdi
  | .r8 => r.r8 | .r9 => r.r9 | .r10 => r.r10 | .r11 => r.r11 | .r12 => r.r12 | .r13 => r.r13
  | .r14 => r.r14 | .r15 => r.r15 | .rbp => r.rbp

def set (r : Registers) (w : UInt64) : Register → Registers
  | .rax => { r with rax := w } | .rbx => { r with rbx := w } | .rcx => { r with rcx := w }
  | .rdx => { r with rdx := w } | .rsi => { r with rsi := w } | .rdi => { r with rdi := w }
  | .r8 => { r with r8 := w } | .r9 => { r with r9 := w } | .r10 => { r with r10 := w }
  | .r11 => { r with r11 := w } | .r12 => { r with r12 := w } | .r13 => { r with r13 := w }
  | .r14 => { r with r14 := w } | .r15 => { r with r15 := w } | .rbp => { r with rbp := w }

end Registers

/-- The words that the processor saves at a trap and takes back at the return from it. -/
structure Interrupted where
  rip : UInt64
  cs : UInt64
  rflags : UInt64
  rsp : UInt64
  ss : UInt64
  deriving DecidableEq, Repr

/-- Everything saved at a trap. -/
structure Frame where
  registers : Registers
  vector : UInt64
  errorCode : UInt64
  interrupted : Interrupted
  deriving DecidableEq, Repr

namespace Frame

def vectorNumber (f : Frame) : UInt8 := f.vector.toUInt8

def item (name : String) (w : UInt64) : String := name ++ "=" ++ Text.word w

/-- The lines that show a frame, without a line feed at the end. -/
def describe (f : Frame) : String :=
  let r := f.registers
  let i := f.interrupted
  let line (items : List String) : String := " ".intercalate items
  "\n".intercalate [
    line [item "RIP" i.rip, "CS=" ++ Text.hexFilled 4 i.cs.toNat, item "RFLAGS" i.rflags],
    line [item "RSP" i.rsp, "SS=" ++ Text.hexFilled 4 i.ss.toNat, item "ERR" f.errorCode],
    line [item "RAX" r.rax, item "RBX" r.rbx, item "RCX" r.rcx, item "RDX" r.rdx],
    line [item "RSI" r.rsi, item "RDI" r.rdi, item "RBP" r.rbp, item "R8 " r.r8],
    line [item "R9 " r.r9, item "R10" r.r10, item "R11" r.r11, item "R12" r.r12],
    line [item "R13" r.r13, item "R14" r.r14, item "R15" r.r15]]

end Frame

end Nucleus.Trap
