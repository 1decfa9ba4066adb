import Nucleus.Proofs.Device.Pic
import Nucleus.Proofs.Trap.Recorded

/-!
Runs of a dispatcher. Whatever handlers were registered and removed and wherever the vectors of the lines were moved
before, an interrupt runs the handler that was registered last and is acknowledged after that, in any case.
-/

namespace Nucleus.Trap

open Device

variable {σ η : Type}

/-! ### The handlers -/

namespace HandlerTable

variable {t : HandlerTable η} {h : η} {k l : UInt8}

lemma get?_eq_none (hk : lineCount ≤ k) : t.get? k = none := by
  have hk : handlerSlots ≤ k.toNat := hk
  unfold get?
  rw [Vector.getElem?_eq_none hk]
  rfl

lemma get?_set (o : Option η) (hl : l.toNat < handlerSlots) :
    (⟨t.slots.set l.toNat o hl⟩ : HandlerTable η).get? k = if l = k then o else t.get? k := by
  unfold get?
  dsimp only
  rw [Vector.getElem?_set]
  by_cases heq : l = k
  · rw [if_pos heq, if_pos (congrArg UInt8.toNat heq)]
    rfl
  · rw [if_neg heq, if_neg fun h => heq (UInt8.toNat.inj h)]

/-- Registering is refused for lines that do not exist, and seen on its line only otherwise. -/
lemma register_cases (t : HandlerTable η) (l : UInt8) (h : η) :
    (lineCount ≤ l ∧ (t.register l h).2 = .error (.lineOutOfRange l)) ∨
    l < lineCount ∧ ∃ t', (t.register l h).2 = .ok t' ∧ ∀ k, t'.get? k = if l = k then some h else t.get? k := by
  unfold register
  split
  · next hl => exact .inr ⟨hl, _, rfl, fun k => get?_set _ hl⟩
  · next hl => exact .inl ⟨Nat.le_of_not_lt hl, rfl⟩

lemma get?_unregister (t : HandlerTable η) (l k : UInt8) :
    (t.unregister l).1.get? k = if l = k then none else t.get? k := by
  unfold unregister
  split
  · next hl => exact get?_set _ hl
  · next hl =>
    split
    · next heq => exact get?_eq_none (heq ▸ Nat.le_of_not_lt hl)
    · rfl

end HandlerTable

/-! ### Calls -/

/-- A call of a dispatcher. Each dispatch comes with a policy of its own. -/
inductive DispatcherCall (σ η : Type) where
  | register (line : UInt8) (handler : η)
  | unregister (line : UInt8)
  | controllers (call : PicCall)
  | dispatch (policy : Policy (StateM σ)) (f : Frame)

def accessesOf (effects : List (Effect η)) : List PortAccess := effects.filterMap fun
  | .access a => some a
  | _ => none

namespace Dispatcher

/-- The dispatcher after effects: the mask registers see the port accesses. -/
def after (d : Dispatcher η) (effects : List (Effect η)) : Dispatcher η :=
  { d with controllers := d.controllers.after (accessesOf effects) }

def call (env : Surroundings (StateM σ) η) (d : Dispatcher η) (w : σ) : DispatcherCall σ η → Dispatcher η × σ
  | .register l h =>
    match (d.handlers.register l h).2 with
    | .ok t => ({ d with handlers := t }, w)
    | .error _ => (d, w)
  | .unregister l => ({ d with handlers := (d.handlers.unregister l).1 }, w)
  | .controllers k =>
    let step := d.controllers.call k
    ({ d with controllers := step.controllers }, (accessAll env.access step.accesses w).2)
  | .dispatch policy f =>
    let ((_, effects), w') := d.dispatch env.recorded policy.recorded f [] w
    (d.after effects, w')

/-- The dispatcher and the world after a run of calls, the latest first, on controllers that started up with the given
masks and without handlers. -/
def afterCalls (env : Surroundings (StateM σ) η) (masks : MaskRegisters) (w : σ) :
    List (DispatcherCall σ η) → Dispatcher η × σ
  | [] => (⟨.powerOn masks, .empty⟩, w)
  | k :: past => (afterCalls env masks w past).1.call env (afterCalls env masks w past).2 k

/-! ### What the history tells -/

variable (env : Surroundings (StateM σ) η) (masks : MaskRegisters) (w : σ)

/-- The handler that was registered last and not removed since. Refused calls do not count. -/
def handlerOf (line : UInt8) : List (DispatcherCall σ η) → Option η
  | [] => none
  | .register l h :: past =>
    match ((afterCalls env masks w past).1.handlers.register l h).2 with
    | .ok _ => if l = line then some h else handlerOf line past
    | .error _ => handlerOf line past
  | .unregister l :: past => if l = line then none else handlerOf line past
  | _ :: past => handlerOf line past

def windowsOf : List (DispatcherCall σ η) → UInt8 × UInt8
  | [] => powerOnWindows
  | .controllers k :: past =>
    match ((afterCalls env masks w past).1.controllers.call k).answer with
    | .ok _ => k.windows?.getD (windowsOf past)
    | .error _ => windowsOf past
  | _ :: past => windowsOf past

lemma get?_afterCalls (l : UInt8) (past : List (DispatcherCall σ η)) :
    (afterCalls env masks w past).1.handlers.get? l = handlerOf env masks w l past := by
  induction past with
  | nil =>
    show HandlerTable.empty.get? l = none
    unfold HandlerTable.get? HandlerTable.empty
    rw [Vector.getElem?_replicate]
    split <;> rfl
  | cons k past ih =>
    cases k with
    | register k h =>
      unfold afterCalls call handlerOf
      obtain ⟨-, he⟩ | ⟨-, t, ht, hget⟩ := (afterCalls env masks w past).1.handlers.register_cases k h
      · simp only [he, ih]
      · simp only [ht, hget, ih]
    | unregister k =>
      unfold afterCalls call handlerOf
      simp only [HandlerTable.get?_unregister, ih]
    | controllers k => exact ih
    | dispatch policy f => exact ih

lemma windows_afterCalls (past : List (DispatcherCall σ η)) :
    (afterCalls env masks w past).1.controllers.windows = windowsOf env masks w past ∧
      Apart (windowsOf env masks w past) := by
  induction past with
  | nil => exact ⟨rfl, apart_powerOnWindows⟩
  | cons k past ih =>
    cases k with
    | register k h =>
      unfold afterCalls call
      obtain ⟨-, he⟩ | ⟨-, t, ht, -⟩ := (afterCalls env masks w past).1.handlers.register_cases k h
      · simp only [he]
        exact ih
      · simp only [ht]
        exact ih
    | unregister k => exact ih
    | dispatch policy f => exact ih
    | controllers k =>
      show ((afterCalls env masks w past).1.controllers.call k).controllers.windows = _ ∧ _
      unfold windowsOf
      obtain h | h := Controllers.call_cases (afterCalls env masks w past).1.controllers k
      · -- the call is accepted, so new windows were checked
        rw [h.windows, h.answer, ih.1]
        refine ⟨rfl, ?_⟩
        have habove := h.above
        cases hk : k.windows? with
        | none => exact ih.2
        | some ws => exact (habove ws hk).toApart
      · -- a call that is refused moves no window
        obtain ⟨e, he⟩ := h.answer
        rw [h.controllers, he]
        exact ih

lemma after_interruptEffects (d : Dispatcher η) (o : Option η) (l : UInt8) (code : UInt64) :
    d.after (interruptEffects o l code) = d := by
  have hacc : accessesOf (interruptEffects o l code) = Controllers.acknowledgement l := by
    unfold interruptEffects handlerEffect accessesOf
    cases o <;> simp
  have hsame := d.controllers.controllers_acknowledge l
  unfold Controllers.acknowledge Controllers.perform at hsame
  unfold after
  rw [hacc]
  exact congrArg (Dispatcher.mk · d.handlers) hsame

/-- Whatever the policy and the surroundings are, the dispatch resumes, does exactly this, and leaves the dispatcher as
it is. -/
def Resumes (d : Dispatcher η) (f : Frame) (effects : List (Effect η)) : Prop :=
  (∀ {n : Type → Type} [Monad n] [LawfulMonad n] (env : Surroundings n η) (policy : Policy n),
    (∃ y : n Unit, d.dispatch env policy f = (fun _ => .resume) <$> y) ∧
    Traces (d.dispatch env.recorded policy.recorded f) (d.dispatch env policy f) effects) ∧
  d.after effects = d

/-- **Runs of a dispatcher.** After any calls, an interrupt on a vector above the exceptions that the latest accepted
remap gave to a line resumes. It runs the handler that was registered last for the line and not removed since, once and
with its line and error code, and then acknowledges the line, at the slave first for the upper lines. The policy is not
asked, and nothing changes. Other vectors above the exceptions are told about, and no more. A handler for a line that
does not exist is refused, which changes nothing. -/
theorem interrupts_over_runs (past : List (DispatcherCall σ η)) :
    (∀ f l, 32 ≤ f.vectorNumber → l < lineCount → f.vectorNumber = vectorOf (windowsOf env masks w past) l →
      (afterCalls env masks w past).1.Resumes f
        (handlerEffect (handlerOf env masks w l past) l f.errorCode ::
          if 8 ≤ l then [.access (.write slaveCommand 0x20), .access (.write masterCommand 0x20)]
          else [.access (.write masterCommand 0x20)])) ∧
    (∀ f, 32 ≤ f.vectorNumber → (∀ l < lineCount, f.vectorNumber ≠ vectorOf (windowsOf env masks w past) l) →
      (afterCalls env masks w past).1.Resumes f [.unknown f]) ∧
    ∀ l h w', lineCount ≤ l →
      ((afterCalls env masks w past).1.handlers.register l h).2 = .error (.lineOutOfRange l) ∧
      (afterCalls env masks w past).1.call env w' (.register l h) = ((afterCalls env masks w past).1, w') := by
  obtain ⟨hw, hapart⟩ := windows_afterCalls env masks w past
  rw [← hw] at hapart ⊢
  refine ⟨fun f l hv hl hvec => ?_, fun f hv hnone => ?_, fun l h w' hl => ?_⟩
  · -- the vector of a line
    have hline := (Controllers.line?_eq_some_iff hapart).mpr ⟨hl, hvec⟩
    rw [← get?_afterCalls, ← interruptEffects_eq]
    refine ⟨fun env policy => ?_, after_interruptEffects _ _ _ _⟩
    rw [dispatch_of_line env policy hv hline, dispatch_of_line env.recorded policy.recorded hv hline]
    exact ⟨⟨_, rfl⟩, (traces_interrupt _ _ _).map _⟩
  · -- a vector outside of the windows belongs to no line
    have hline : (afterCalls env masks w past).1.controllers.line? f.vectorNumber = none :=
      Option.eq_none_iff_forall_ne_some.mpr fun l hl =>
        have ⟨hlt, hvec⟩ := (Controllers.line?_eq_some_iff hapart).mp hl
        hnone l hlt hvec
    refine ⟨fun env policy => ?_, rfl⟩
    rw [dispatch_of_no_line env policy hv hline, dispatch_of_no_line env.recorded policy.recorded hv hline]
    exact ⟨⟨_, rfl⟩, (traces_recording _ _).map _⟩
  · obtain ⟨-, he⟩ | ⟨hlt, -⟩ := (afterCalls env masks w past).1.handlers.register_cases l h
    · refine ⟨he, ?_⟩
      show (match ((afterCalls env masks w past).1.handlers.register l h).2 with
        | .ok t => _
        | .error _ => _) = _
      rw [he]
    · exact absurd hlt (UInt8.not_lt.mpr hl)

/-- Line 9 gets a handler, the windows are moved, and an interrupt arrives. -/
theorem interrupts_over_runs_line_nine :
    let env : Surroundings (StateM Unit) Nat := ⟨fun _ _ _ => pure (), fun _ => pure (), fun _ => pure ()⟩
    (afterCalls env ⟨0, 0⟩ () [.controllers (.remap 0x20 0x28), .register 9 7]).1.Resumes
      ⟨.zero, 0x29, 5, ⟨0, 8, 0x202, 0, 0x10⟩⟩
      [.handle 7 9 5, .access (.write slaveCommand 0x20), .access (.write masterCommand 0x20)] := by
  intro env
  exact (interrupts_over_runs env ⟨0, 0⟩ () [.controllers (.remap 0x20 0x28), .register 9 7]).1 _ 9
    (by decide) (by decide) rfl

end Dispatcher

end Nucleus.Trap
