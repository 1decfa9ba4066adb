import Nucleus.Log

/-!
The handlers of the 16 interrupt lines.
-/

namespace Nucleus.Trap

def handlerSlots : Nat := 16

/-- Why a handler is not registered. -/
inductive RegisterError where
  | lineOutOfRange (line : UInt8)
  deriving DecidableEq, Repr

def RegisterError.message : RegisterError → String
  | lineOutOfRange l => "IRQ line " ++ Text.decimal l.toNat ++ " out of range (0-" ++
      Text.decimal (handlerSlots - 1) ++ ")"

/-- What is reported while handlers change. -/
inductive HandlerNotice where
  | refused (line : UInt8)
  | replaced (line : UInt8)
  deriving DecidableEq, Repr

def HandlerNotice.record : HandlerNotice → Log.Record
  | refused l => ⟨.warn, "interrupts::irq",
      "[IRQ] refusing to register handler for line " ++ Text.decimal l.toNat⟩
  | replaced l => ⟨.debug, "interrupts::irq", "[IRQ] replacing handler of line " ++ Text.decimal l.toNat⟩

/-- The handlers by line. -/
structure HandlerTable (η : Type) where
  slots : Vector (Option η) handlerSlots

namespace HandlerTable

variable {η : Type}

def empty : HandlerTable η := ⟨Vector.replicate _ none⟩

def get? (t : HandlerTable η) (line : UInt8) : Option η := (t.slots[line.toNat]?).join

/-- The table with a handler for a line in place of the one it had, and what is reported about it. -/
def register (t : HandlerTable η) (line : UInt8) (handler : η) :
    List HandlerNotice × Except RegisterError (HandlerTable η) :=
  if h : line.toNat < handlerSlots then
    let notices := match t.get? line with
      | some _ => [.replaced line]
      | none => []
    (notices, .ok ⟨t.slots.set line.toNat (some handler) h⟩)
  else ([.refused line], .error (.lineOutOfRange line))

/-- The table without the handler of a line, and that handler. -/
def unregister (t : HandlerTable η) (line : UInt8) : HandlerTable η × Option η :=
  if h : line.toNat < handlerSlots then (⟨t.slots.set line.toNat none h⟩, t.get? line) else (t, none)

def lines (t : HandlerTable η) : List UInt8 :=
  ((List.range handlerSlots).map UInt8.ofNat).filter fun l => (t.get? l).isSome

end HandlerTable

end Nucleus.Trap
