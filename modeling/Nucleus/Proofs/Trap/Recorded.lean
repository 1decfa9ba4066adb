import Mathlib.Tactic.Common
import Nucleus.Trap.Dispatch

/-!
Dispatching with a record of what it did: the calls of the policy and of handlers, and the port accesses, in order.
The policy and the surroundings still act, in a monad of their own, and the record is kept beside it.
-/

namespace Nucleus.Trap

open Device

/-! ### Records -/

/-- Something that is done in the course of a dispatch. -/
inductive Effect (η : Type) where
  | pageFault (f : Frame)
  | generalProtection (f : Frame)
  | report (e : Exception) (f : Frame)
  | unknown (f : Frame)
  | handle (handler : η) (line : UInt8) (errorCode : UInt64)
  | unhandled (line : UInt8)
  | access (a : PortAccess)

variable {n : Type → Type} [Monad n] {η α β : Type}

/-- Actions of `n` that keep a record, the latest effect last. -/
abbrev Recorded (η : Type) (n : Type → Type) := StateT (List (Effect η)) n

def recording (e : Effect η) (x : n α) : Recorded η n α := fun past => (·, past ++ [e]) <$> x

def Policy.recorded (p : Policy n) : Policy (Recorded η n) where
  pageFault f := recording (.pageFault f) (p.pageFault f)
  generalProtection f := recording (.generalProtection f) (p.generalProtection f)
  report e f := recording (.report e f) (p.report e f)
  unknown f := recording (.unknown f) (p.unknown f)

def Surroundings.recorded (env : Surroundings n η) : Surroundings (Recorded η n) η where
  handle h line errorCode := recording (.handle h line errorCode) (env.handle h line errorCode)
  unhandled line := recording (.unhandled line) (env.unhandled line)
  access a := recording (.access a) (env.access a)

/-- `x` does what `y` does, and records that these were the effects. -/
def Traces (x : Recorded η n α) (y : n α) (effects : List (Effect η)) : Prop :=
  ∀ past, x past = (·, past ++ effects) <$> y

section Rules

lemma traces_recording (e : Effect η) (x : n α) : Traces (recording e x) x [e] := fun _ => rfl

variable [LawfulMonad n]

lemma traces_pure (a : α) : Traces (pure a : Recorded η n α) (pure a) [] := by
  intro past
  rw [map_pure, List.append_nil]
  rfl

lemma Traces.bind {x : Recorded η n α} {y : n α} {f : α → Recorded η n β} {g : α → n β} {es fs : List (Effect η)}
    (h : Traces x y es) (k : ∀ a, Traces (f a) (g a) fs) : Traces (x >>= f) (y >>= g) (es ++ fs) := by
  intro past
  show x past >>= (fun p => f p.1 p.2) = _
  rw [h past, bind_map_left, map_bind]
  refine bind_congr fun a => ?_
  rw [k a, List.append_assoc]

lemma Traces.map {x : Recorded η n α} {y : n α} {es : List (Effect η)} (h : Traces x y es) (g : α → β) :
    Traces (g <$> x) (g <$> y) es := by
  rw [map_eq_pure_bind, map_eq_pure_bind, ← List.append_nil es]
  exact h.bind fun a => traces_pure _

end Rules

/-! ### Dispatching -/

section Dispatch

variable [LawfulMonad n] {d : Dispatcher η} (env : Surroundings n η) (policy : Policy n) {f : Frame}

lemma traces_accessAll (as : List PortAccess) :
    Traces (accessAll env.recorded.access as) (accessAll env.access as) (as.map .access) := by
  induction as with
  | nil => exact traces_pure _
  | cons a as ih => exact (traces_recording _ _).bind fun _ => ih

def handlerEffect (handler? : Option η) (line : UInt8) (errorCode : UInt64) : Effect η :=
  match handler? with
  | some h => .handle h line errorCode
  | none => .unhandled line

/-- What an interrupt on a line does, with the handler that the line has. -/
def interruptEffects (handler? : Option η) (line : UInt8) (errorCode : UInt64) : List (Effect η) :=
  handlerEffect handler? line errorCode :: (Controllers.acknowledgement line).map .access

lemma interruptEffects_eq (handler? : Option η) (line : UInt8) (errorCode : UInt64) :
    interruptEffects handler? line errorCode =
      handlerEffect handler? line errorCode ::
        if 8 ≤ line then [.access (.write slaveCommand 0x20), .access (.write masterCommand 0x20)]
        else [.access (.write masterCommand 0x20)] := by
  unfold interruptEffects Controllers.acknowledgement
  split <;> rfl

lemma traces_interrupt (line : UInt8) (errorCode : UInt64) :
    Traces (d.interrupt env.recorded line errorCode) (d.interrupt env line errorCode)
      (interruptEffects (d.handlers.get? line) line errorCode) := by
  unfold Dispatcher.interrupt interruptEffects
  cases d.handlers.get? line <;> exact (traces_recording _ _).bind fun _ => traces_accessAll env _

lemma ofVector?_eq_some {v : UInt8} (h : v < 32) : Exception.ofVector? v = some ⟨v⟩ := if_pos h

lemma ofVector?_eq_none {v : UInt8} (h : 32 ≤ v) : Exception.ofVector? v = none := if_neg (UInt8.not_lt.mpr h)

lemma classify_of_le {v : UInt8} {c : Controllers} (h : 32 ≤ v) :
    classify v c = match c.line? v with
      | some l => .interrupt l
      | none => .unknown v := by
  cases hl : c.line? v <;> simp only [classify, ofVector?_eq_none h, hl]

lemma dispatch_of_line {l : UInt8} (hv : 32 ≤ f.vectorNumber) (hl : d.controllers.line? f.vectorNumber = some l) :
    d.dispatch env policy f = (fun _ => .resume) <$> d.interrupt env l f.errorCode := by
  unfold Dispatcher.dispatch
  rw [classify_of_le hv, hl, map_eq_pure_bind]

lemma dispatch_of_no_line (hv : 32 ≤ f.vectorNumber) (hl : d.controllers.line? f.vectorNumber = none) :
    d.dispatch env policy f = (fun _ => .resume) <$> policy.unknown f := by
  unfold Dispatcher.dispatch
  rw [classify_of_le hv, hl, map_eq_pure_bind]

omit [LawfulMonad n] in
/-- Exceptions do not go through the controllers, even where their vectors are those of lines. -/
lemma dispatch_of_exception (hv : f.vectorNumber < 32) :
    d.dispatch env policy f = dispatchException policy ⟨f.vectorNumber⟩ f := by
  unfold Dispatcher.dispatch classify
  rw [ofVector?_eq_some hv]

end Dispatch

/-! ### Exceptions -/

def policyCall (f : Frame) : Effect η :=
  if f.vectorNumber = 14 then .pageFault f
  else if f.vectorNumber = 13 then .generalProtection f
  else .report ⟨f.vectorNumber⟩ f

/-- What a policy does about an exception. -/
def reactionOf (policy : Policy n) (f : Frame) : n Outcome :=
  if f.vectorNumber = 14 then policy.pageFault f
  else if f.vectorNumber = 13 then policy.generalProtection f
  else (fun _ => .halt) <$> policy.report ⟨f.vectorNumber⟩ f

section Exceptions

variable [LawfulMonad n] (policy : Policy n) (f : Frame)

lemma dispatchException_eq : dispatchException policy ⟨f.vectorNumber⟩ f = reactionOf policy f := by
  unfold dispatchException reactionOf Exception.doubleFault Exception.pageFault Exception.generalProtection
  simp only [Exception.mk.injEq, map_eq_pure_bind]
  by_cases hd : f.vectorNumber = 8
  · simp [hd]
  · simp [hd]

lemma traces_dispatchException :
    Traces (η := η) (dispatchException policy.recorded ⟨f.vectorNumber⟩ f) (dispatchException policy ⟨f.vectorNumber⟩ f)
      [policyCall f] := by
  rw [dispatchException_eq, dispatchException_eq]
  unfold reactionOf policyCall
  split
  · exact traces_recording _ _
  split
  · exact traces_recording _ _
  · exact (traces_recording _ _).map _

end Exceptions

end Nucleus.Trap
