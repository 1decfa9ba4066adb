import Nucleus.Trap.Exception
import Nucleus.Trap.Frame

/-!
The way into a trap handler and back. The processor saves what it was doing on the stack, with an error code
on some vectors; the entry code of the vector adds what is missing and saves the general registers. The way
back undoes it. The stack is a list of words, the last one saved first.
-/

namespace Nucleus.Trap

/-- What runs when a trap arrives. -/
structure Processor where
  registers : Registers
  interrupted : Interrupted
  deriving DecidableEq, Repr

/-! ### Entry -/

/-- The words that the processor saves, for the vectors that have one with an error code on top. -/
def processorSaves (vector : UInt8) (errorCode : UInt64) (i : Interrupted) : List UInt64 :=
  (if (Exception.mk vector).HasErrorCode then [errorCode] else []) ++ [i.rip, i.cs, i.rflags, i.rsp, i.ss]

/-- The entry code of the vector leaves the error code to the processor. -/
def LeavesErrorCode (vector : UInt8) : Prop :=
  vector = 8 ∨ (10 ≤ vector ∧ vector ≤ 14) ∨ vector = 17 ∨ vector = 21 ∨ vector = 29 ∨ vector = 30

instance (vector : UInt8) : Decidable (LeavesErrorCode vector) := inferInstanceAs (Decidable (_ ∨ _))

/-- The entry code of a vector supplies a zero where the processor saves no error code, then the vector. -/
def stubSaves (vector : UInt8) (stack : List UInt64) : List UInt64 :=
  vector.toUInt64 :: if LeavesErrorCode vector then stack else 0 :: stack

def saveOrder : List Register :=
  [.rbp, .r15, .r14, .r13, .r12, .r11, .r10, .r9, .r8, .rdi, .rsi, .rdx, .rcx, .rbx, .rax]

def saveRegisters (r : Registers) (order : List Register) (stack : List UInt64) : List UInt64 :=
  order.foldl (fun s x => r.get x :: s) stack

/-- The stack when the handler of a trap starts. -/
def enter (p : Processor) (vector : UInt8) (errorCode : UInt64) : List UInt64 :=
  saveRegisters p.registers saveOrder (stubSaves vector (processorSaves vector errorCode p.interrupted))

def frameOn? : List UInt64 → Option Frame
  | rax :: rbx :: rcx :: rdx :: rsi :: rdi :: r8 :: r9 :: r10 :: r11 :: r12 :: r13 :: r14 :: r15 :: rbp ::
      vector :: errorCode :: rip :: cs :: rflags :: rsp :: ss :: _ =>
    some ⟨⟨rax, rbx, rcx, rdx, rsi, rdi, r8, r9, r10, r11, r12, r13, r14, r15, rbp⟩, vector, errorCode,
      ⟨rip, cs, rflags, rsp, ss⟩⟩
  | _ => none

/-! ### Return -/

def restoreOrder : List Register :=
  [.rax, .rbx, .rcx, .rdx, .rsi, .rdi, .r8, .r9, .r10, .r11, .r12, .r13, .r14, .r15, .rbp]

def restoreRegisters (r : Registers) : List Register → List UInt64 → Option (Registers × List UInt64)
  | [], stack => some (r, stack)
  | x :: xs, w :: stack => restoreRegisters (r.set w x) xs stack
  | _ :: _, [] => none

/-- What goes on when the handler returns with the given stack: the registers are taken back, vector and
error code are dropped, and the processor takes the rest. -/
def leave? (stack : List UInt64) : Option Processor :=
  match restoreRegisters .zero restoreOrder stack with
  | some (r, _ :: _ :: rip :: cs :: rflags :: rsp :: ss :: _) => some ⟨r, ⟨rip, cs, rflags, rsp, ss⟩⟩
  | _ => none

end Nucleus.Trap
