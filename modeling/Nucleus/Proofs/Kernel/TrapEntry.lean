import Mathlib.Tactic.Common
import Nucleus.Kernel.Traps

/-!
The way into a trap handler and back changes nothing of the interrupted code. Registers are taken back in the reverse
order in which they were saved, and the entry code supplies an error code exactly where the processor saves none, so
that the frame has one layout on all vectors.
-/

namespace Nucleus.Trap

/-! ### Registers -/

namespace Registers

lemma get_set (r : Registers) (w : UInt64) (x y : Register) :
    (r.set w x).get y = if x = y then w else r.get y := by
  cases x <;> cases y <;> rfl

lemma ext_get {r s : Registers} (h : ∀ x, r.get x = s.get x) : r = s := by
  cases r
  cases s
  rw [mk.injEq]
  exact ⟨h .rax, h .rbx, h .rcx, h .rdx, h .rsi, h .rdi, h .r8, h .r9, h .r10, h .r11, h .r12, h .r13, h .r14, h .r15,
    h .rbp⟩

end Registers

section SaveRestore

variable (r s : Registers) (order : List Register) (stack : List UInt64)

lemma saveRegisters_eq : saveRegisters s order stack = order.reverse.map s.get ++ stack := by
  unfold saveRegisters
  induction order generalizing stack with
  | nil => rfl
  | cons x xs ih => rw [List.foldl_cons, ih, List.reverse_cons, List.map_append, List.append_assoc]; rfl

/-- Registers whose words lie on the stack in the order given are taken back, and the others keep what they hold. -/
lemma restoreRegisters_map : ∃ r', restoreRegisters r order (order.map s.get ++ stack) = some (r', stack) ∧
    ∀ x, r'.get x = if x ∈ order then s.get x else r.get x := by
  induction order generalizing r with
  | nil => exact ⟨r, rfl, fun x => by simp⟩
  | cons y ys ih =>
    obtain ⟨r', hrestore, hget⟩ := ih (r.set (s.get y) y)
    refine ⟨r', hrestore, fun x => ?_⟩
    rw [hget, Registers.get_set]
    by_cases hmem : x ∈ ys
    · rw [if_pos hmem, if_pos (List.mem_cons_of_mem y hmem)]
    by_cases heq : y = x
    · rw [if_neg hmem, if_pos heq, if_pos (heq ▸ List.mem_cons_self ..), heq]
    · rw [if_neg hmem, if_neg heq, if_neg (by simp [hmem, Ne.symm heq])]

lemma reverse_saveOrder : saveOrder.reverse = restoreOrder := rfl

lemma mem_restoreOrder (x : Register) : x ∈ restoreOrder := by
  cases x <;> decide

/-- **Saved registers are taken back**, whatever they hold when the way back begins. -/
lemma restoreRegisters_saveRegisters :
    restoreRegisters r restoreOrder (saveRegisters s saveOrder stack) = some (s, stack) := by
  obtain ⟨r', hrestore, hget⟩ := restoreRegisters_map r s restoreOrder stack
  have heq : r' = s := Registers.ext_get fun x => (hget x).trans (if_pos (mem_restoreOrder x))
  rw [saveRegisters_eq, reverse_saveOrder, hrestore, heq]

end SaveRestore

/-! ### Error codes -/

/-- The entry code and the processor agree on the vectors with an error code. -/
lemma leavesErrorCode_iff (v : UInt8) : LeavesErrorCode v ↔ (Exception.mk v).HasErrorCode := by
  unfold LeavesErrorCode Exception.HasErrorCode
  simp only [List.mem_cons, List.not_mem_nil, or_false, UInt8.le_iff_toNat_le, ← UInt8.toNat_inj, UInt8.reduceToNat]
  omega

/-- The error code in the frame of a trap: that of the processor, or zero where it has none. -/
def errorWord (v : UInt8) (errorCode : UInt64) : UInt64 :=
  if (Exception.mk v).HasErrorCode then errorCode else 0

/-- What lies on the stack below the general registers. -/
lemma stubSaves_processorSaves (v : UInt8) (errorCode : UInt64) (i : Interrupted) (below : List UInt64) :
    stubSaves v (processorSaves v errorCode i) ++ below =
      v.toUInt64 :: errorWord v errorCode :: i.rip :: i.cs :: i.rflags :: i.rsp :: i.ss :: below := by
  unfold stubSaves processorSaves errorWord
  simp only [leavesErrorCode_iff]
  split <;> rfl

/-! ### Frames -/

/-- The frame of a trap: each register and each word of the processor in its field, the vector and the error code. -/
def frameOf (p : Processor) (v : UInt8) (errorCode : UInt64) : Frame :=
  ⟨p.registers, v.toUInt64, errorWord v errorCode, p.interrupted⟩

variable (p : Processor) (v : UInt8) (errorCode : UInt64) (below : List UInt64)

lemma enter_append : enter p v errorCode ++ below = saveRegisters p.registers saveOrder
    (v.toUInt64 :: errorWord v errorCode :: p.interrupted.rip :: p.interrupted.cs :: p.interrupted.rflags ::
      p.interrupted.rsp :: p.interrupted.ss :: below) := by
  rw [enter, saveRegisters_eq, List.append_assoc, stubSaves_processorSaves, saveRegisters_eq]

/-- The fields of a frame lie on the stack in the order in which the registers are taken back. -/
lemma frameOn?_enter : frameOn? (enter p v errorCode ++ below) = some (frameOf p v errorCode) := by
  rw [enter_append, saveRegisters_eq, reverse_saveOrder]
  rfl

lemma leave?_enter : leave? (enter p v errorCode ++ below) = some p := by
  unfold leave?
  rw [enter_append, restoreRegisters_saveRegisters]

end Nucleus.Trap

namespace Nucleus.Kernel

open Trap

/-- The machine when the handler of a trap starts: a page fault reports its address, and the stack of the gate is in
use. -/
def Machine.entering (m : Machine) (t : TrapRequest) : Machine :=
  { m with
    faultAddress := if t.vector = Exception.pageFault.vector then t.faultAddress else m.faultAddress
    stacksInUse := (m.gates.get t.vector).stackIndex :: m.stacksInUse }

/-- The processor runs the handler on the frame of the trap, and goes on as before if the handler returns. -/
lemma take_eq (t : TrapRequest) (i : Interrupting) (m : Machine) :
    take t i m = match trapEntry (frameOf t.processor t.vector t.errorCode) i (m.entering t) with
      | .ok outcome m' =>
        let slot := (m.gates.get t.vector).stackIndex
        .ok ⟨slot, outcome, true⟩ { m' with stacksInUse := m'.stacksInUse.erase slot }
      | .error e m' => .error e m' := by
  have hframe := frameOn?_enter t.processor t.vector t.errorCode []
  have hleave := leave?_enter t.processor t.vector t.errorCode []
  rw [List.append_nil] at hframe hleave
  unfold take
  simp only [hframe, hleave, decide_true]
  show EStateM.bind (trapEntry _ i) _ (m.entering t) = _
  unfold EStateM.bind
  cases trapEntry (frameOf t.processor t.vector t.errorCode) i (m.entering t) <;> rfl

/-- **Trap entry is transparent.** On every vector and whatever the processor was doing, the handler gets the frame with
each register in its field, the vector, and the error code of the processor or zero. The way back finds all registers,
whatever the handler left in them, and under them the vector, the error code and exactly the words that the processor
saved, with the rest of the stack untouched. So the kernel runs the handler on this frame, and if the handler returns,
the interrupted code goes on as it was. -/
theorem trap_entry_transparent (t : TrapRequest) (below : List UInt64) :
    frameOn? (enter t.processor t.vector t.errorCode ++ below) = some (frameOf t.processor t.vector t.errorCode) ∧
    (∀ r, restoreRegisters r restoreOrder (enter t.processor t.vector t.errorCode ++ below) =
      some (t.processor.registers, t.vector.toUInt64 :: errorWord t.vector t.errorCode ::
        t.processor.interrupted.rip :: t.processor.interrupted.cs :: t.processor.interrupted.rflags ::
        t.processor.interrupted.rsp :: t.processor.interrupted.ss :: below)) ∧
    leave? (enter t.processor t.vector t.errorCode ++ below) = some t.processor ∧
    ∀ i m, take t i m = match trapEntry (frameOf t.processor t.vector t.errorCode) i (m.entering t) with
      | .ok outcome m' =>
        let slot := (m.gates.get t.vector).stackIndex
        .ok ⟨slot, outcome, true⟩ { m' with stacksInUse := m'.stacksInUse.erase slot }
      | .error e m' => .error e m' := by
  refine ⟨frameOn?_enter .., fun r => ?_, leave?_enter .., take_eq t⟩
  rw [enter_append, restoreRegisters_saveRegisters]

end Nucleus.Kernel
