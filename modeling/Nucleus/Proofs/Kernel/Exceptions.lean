import Nucleus.Proofs.Kernel.PageFault
import Nucleus.Proofs.Trap.Recorded

/-!
Exceptions go past the dispatcher: the entry code gives them the reaction that the dispatcher would give them, whatever
state the dispatcher is in and whoever uses it. Only the reactions to page faults and general protection faults can
resume the interrupted code.
-/

namespace Nucleus.Kernel

open Device Memory Paging Trap

/-! ### Indifference -/

/-- The machine with another dispatcher, which is in use or not. -/
def Machine.dispatching (m : Machine) (d : Dispatcher Handler) (busy : Bool) : Machine :=
  { m with dispatcher := d, dispatcherBusy := busy }

/-- The same result, on a machine with another dispatcher. -/
def dispatching {α : Type} (d : Dispatcher Handler) (busy : Bool) :
    EStateM.Result Stop Machine α → EStateM.Result Stop Machine α
  | .ok a m => .ok a (m.dispatching d busy)
  | .error e m => .error e (m.dispatching d busy)

/-- Traps in between neither see nor change the dispatcher. -/
def Interrupting.Indifferent (i : Interrupting) : Prop :=
  ∀ t m d busy, i t (m.dispatching d busy) = dispatching d busy (i t m)

/-- On the machine `m`, `x` neither sees nor changes the dispatcher. -/
def IndifferentAt {α : Type} (i : Interrupting) (x : KernelM α) (m : Machine) : Prop :=
  ∀ d busy, x i (m.dispatching d busy) = dispatching d busy (x i m)

def Indifferent {α : Type} (i : Interrupting) (x : KernelM α) : Prop := ∀ m, IndifferentAt i x m

section Rules

variable {α β : Type} {i : Interrupting} {x : KernelM α} {f : α → KernelM β} {m : Machine}

lemma indifferent_pure (a : α) : Indifferent i (pure a) := fun _ _ _ => rfl

lemma indifferent_throw (e : Stop) : Indifferent i (throw e : KernelM α) := fun _ _ _ => rfl

lemma IndifferentAt.bind (h : IndifferentAt i x m) (k : ∀ a, Indifferent i (f a)) :
    IndifferentAt i (x >>= f) m := by
  intro d busy
  show EStateM.bind (x i) (fun a => f a i) _ = dispatching d busy (EStateM.bind (x i) (fun a => f a i) m)
  unfold EStateM.bind
  rw [h d busy]
  cases x i m with
  | ok a m' => exact k a m' d busy
  | error e m' => rfl

lemma Indifferent.bind (h : Indifferent i x) (k : ∀ a, Indifferent i (f a)) : Indifferent i (x >>= f) :=
  fun m => (h m).bind k

lemma IndifferentAt.get {f : Machine → KernelM β} (hf : ∀ d busy, f (m.dispatching d busy) = f m)
    (h : IndifferentAt i (f m) m) : IndifferentAt i (get >>= f) m := by
  intro d busy
  show f (m.dispatching d busy) i (m.dispatching d busy) = _
  rw [hf]
  exact h d busy

lemma indifferent_modify {g : Machine → Machine} (h : ∀ m d busy, g (m.dispatching d busy) = (g m).dispatching d busy) :
    Indifferent i (modify g) := fun m d busy => congrArg (EStateM.Result.ok _) (h m d busy)

end Rules

/-! ### Code without the dispatcher -/

section Code

variable {i : Interrupting}

lemma indifferent_output (o : Output) : Indifferent i (output o) := by
  refine indifferent_modify fun m d busy => ?_
  show (if m.halted ∧ ¬ o.IsAccount then _ else _) = _
  split <;> rfl

lemma indifferent_check {α : Type} (c : Checked α) : Indifferent i (check c) := by
  cases c with
  | ok a => exact indifferent_pure a
  | error f => exact indifferent_throw _

variable (hi : i.Indifferent)
include hi

lemma indifferent_writePiece (sink : Sink) (piece : List Char) : Indifferent i (writePiece sink piece) := by
  refine (indifferent_output _).bind fun _ => ?_
  dsimp only
  split
  · exact indifferent_pure _
  split
  · exact indifferent_pure _
  split
  · exact indifferent_pure _
  · have hraise (t : TrapRequest) : Indifferent i (read >>= fun i => liftM (i t)) := fun m => hi t m
    exact (hraise _).bind fun _ => (indifferent_output _).bind fun _ => indifferent_pure _

lemma indifferent_writePieces (sink : Sink) (ps : List (List Char)) : Indifferent i (writePieces sink ps) := by
  induction ps generalizing sink with
  | nil => exact indifferent_pure _
  | cons p ps ih => exact (indifferent_writePiece hi sink p).bind ih

lemma indifferent_write (s : String) : Indifferent i (write s) := by
  intro m
  refine .get (fun _ _ => rfl) ?_
  split
  · exact indifferent_output _ m
  split
  · exact indifferent_output _ m
  · refine ((indifferent_modify ?_).bind fun _ => (indifferent_writePieces hi _ _).bind fun _ =>
      indifferent_modify ?_) m <;> exact fun _ _ _ => rfl

lemma indifferent_log (r : Log.Record) : Indifferent i (log r) := by
  intro m
  refine .get (fun _ _ => rfl) ?_
  split
  · exact indifferent_write hi _ m
  · exact indifferent_pure _ m

lemma indifferent_perform (e : Event) : Indifferent i (perform e) := by
  unfold perform
  split
  · exact indifferent_log hi _
  split
  · exact indifferent_output _
  · exact indifferent_pure _

lemma indifferent_performAll (es : List Event) : Indifferent i (performAll es) := by
  induction es with
  | nil => exact indifferent_pure _
  | cons e es ih => exact (indifferent_perform hi e).bind fun _ => ih

/-- The memory core works without the dispatcher. -/
lemma indifferent_withCore {α : Type} (op : CoreOp α) : Indifferent i (withCore op) := by
  have hrest (es : List Event) (c : Checked α) : Indifferent i (performAll es >>= fun _ =>
      (modify fun m => { m with memoryBusy := false }) >>= fun _ => check c >>= fun a => pure (some a)) :=
    (indifferent_performAll hi es).bind fun _ => (indifferent_modify fun _ _ _ => rfl).bind fun _ =>
      (indifferent_check c).bind fun _ => indifferent_pure _
  intro m d busy
  unfold withCore
  show (if m.memoryBusy = true then _ else _ : KernelM _) i (m.dispatching d busy) =
    dispatching d busy ((if m.memoryBusy = true then _ else _ : KernelM _) i m)
  split
  · rfl
  have hmemory : (m.dispatching d busy).memory = m.memory := rfl
  rw [hmemory]
  cases m.memory with
  | none => rfl
  | some core =>
    let step := core.step m.ram m.root op
    exact hrest step.events step.answer { m with ram := step.ram, memory := some step.core, memoryBusy := true } d busy

lemma indifferent_tryResolve (a : VirtAddr) : Indifferent i (tryResolve a) := by
  intro m
  refine .get (fun _ _ => rfl) ?_
  split
  · exact indifferent_pure _ m
  · exact indifferent_withCore hi _ m

lemma indifferent_report (fault : PageFault) (f : Frame) : Indifferent i (reportPageFault fault f) :=
  (indifferent_log hi _).bind fun _ => (indifferent_log hi _).bind fun _ => indifferent_pure _

lemma indifferent_handlePageFault (f : Frame) : Indifferent i (handlePageFault f) := by
  intro m
  refine .get (fun _ _ => rfl) ?_
  dsimp only
  split
  · refine ((indifferent_tryResolve hi _).bind fun r => ?_) m
    split
    · exact (indifferent_log hi _).bind fun _ => indifferent_pure _
    · exact (indifferent_log hi _).bind fun _ => indifferent_report hi _ _
    · exact (indifferent_log hi _).bind fun _ => indifferent_report hi _ _
  · exact indifferent_report hi _ _ m

lemma indifferent_handleGeneralProtection (f : Frame) : Indifferent i (handleGeneralProtection f) := by
  refine (indifferent_log hi _).bind fun _ => ?_
  dsimp only
  split <;>
    exact (indifferent_log hi _).bind fun _ => (indifferent_log hi _).bind fun _ => indifferent_pure _

lemma indifferent_dispatchException (e : Exception) (f : Frame) : Indifferent i (dispatchException policy e f) := by
  have hreport : Indifferent i (policy.report e f) :=
    (indifferent_log hi _).bind fun _ => indifferent_log hi _
  unfold dispatchException
  split
  · exact hreport.bind fun _ => indifferent_pure _
  split
  · exact indifferent_handlePageFault hi f
  split
  · exact indifferent_handleGeneralProtection hi f
  · exact hreport.bind fun _ => indifferent_pure _

end Code

/-! ### Outcomes -/

section Outcomes

variable {i : Interrupting} {m m' : Machine} {f : Frame} {o : Outcome}

/-- A frame can be put behind the page of the fault. -/
def Machine.Resolves (m : Machine) (f : Frame) : Prop :=
  f.errorCode &&& 1 = 0 ∧ ∃ core g s, m.memory = some core ∧ m.memoryBusy = false ∧
    resolveFault m.root m.faultAddress (m.store core) = .ok (.ok g) s

lemma resume_iff_resolves (h : handlePageFault f i m = .ok o m') : o = .resume ↔ m.Resolves f := by
  by_cases hu : m.Unavailable
  · -- without a memory core that is free to use, no fault can be resolved
    have hnot : ¬ m.Resolves f := by
      rintro ⟨-, core, g, s, hm, hb, -⟩
      rcases hu with hu | hu
      · rw [hu] at hb
        cases hb
      · rw [hu] at hm
        cases hm
    simp [halts_of_unavailable hu h, hnot]
  obtain ⟨hb, hm⟩ := not_or.mp hu
  obtain ⟨core, hm⟩ := Option.ne_none_iff_exists'.mp hm
  rw [Bool.not_eq_true] at hb
  rw [handlePageFault_eq] at h
  dsimp only at h
  split at h
  · next hbit =>
    obtain ⟨r, t, hr, h⟩ := of_bind_eq_ok h
    obtain ⟨x, s, hs, rfl⟩ := answer_of_tryResolve hm hb hr
    rw [answer_of_afterAttempt h]
    constructor
    · rintro ⟨g, ⟨⟩⟩
      exact ⟨hbit, core, g, s, hm, hb, hs⟩
    · rintro ⟨-, core', g, s', hm', -, hs'⟩
      rw [hm] at hm'
      cases hm'
      rw [hs] at hs'
      cases hs'
      exact ⟨g, rfl⟩
  · next hbit =>
    have hnot : ¬ m.Resolves f := fun hr => hbit hr.1
    simp [answer_of_report h, hnot]

lemma answer_of_generalProtection (h : handleGeneralProtection f i m = .ok o m') : o = .halt := by
  obtain ⟨_, m₁, -, h⟩ := of_kernel_bind_eq_ok h
  dsimp only at h
  cases hc : SelectorCode.ofCode? f.errorCode <;> rw [hc] at h <;>
    obtain ⟨_, m₂, -, h⟩ := of_kernel_bind_eq_ok h <;>
    obtain ⟨_, m₃, -, ⟨⟩⟩ := of_kernel_bind_eq_ok h <;> rfl

/-- **On the running kernel** page faults that can be resolved are the only exceptions that resume. -/
lemma resume_iff_of_exception (h : dispatchException policy ⟨f.vectorNumber⟩ f i m = .ok o m') :
    o = .resume ↔ f.vectorNumber = 14 ∧ m.Resolves f := by
  rw [dispatchException_eq] at h
  unfold reactionOf at h
  by_cases hp : f.vectorNumber = 14
  · rw [if_pos hp] at h
    rw [resume_iff_resolves h]
    simp [hp]
  have hhalt : o = .halt := by
    rw [if_neg hp] at h
    by_cases hg : f.vectorNumber = 13
    · rw [if_pos hg] at h
      exact answer_of_generalProtection h
    · rw [if_neg hg, map_eq_pure_bind] at h
      obtain ⟨_, m₁, -, ⟨⟩⟩ := of_kernel_bind_eq_ok h
      rfl
  simp [hhalt, hp]

end Outcomes

/-! ### The entry code -/

section Entry

variable {i : Interrupting} {m m' : Machine} {f : Frame} {o : Outcome}

/-- What the entry code does with the outcome of a trap. -/
def finishTrap (o : Outcome) : KernelM Outcome := do
  if o = .halt then log (trapRecord .error "[TRAP] halting")
  return o

lemma trapEntry_of_exception (hv : f.vectorNumber < 32) :
    trapEntry f = dispatchException policy ⟨f.vectorNumber⟩ f >>= finishTrap := by
  unfold trapEntry finishTrap
  rw [ofVector?_eq_some hv]

lemma answer_of_finishTrap {o' : Outcome} (h : finishTrap o i m = .ok o' m') : o' = o := by
  unfold finishTrap at h
  split at h
  · obtain ⟨_, m₁, -, ⟨⟩⟩ := of_kernel_bind_eq_ok h
    rfl
  · cases h
    rfl

lemma indifferent_finishTrap (hi : i.Indifferent) (o : Outcome) : Indifferent i (finishTrap o) := by
  unfold finishTrap
  split
  · exact (indifferent_log hi _).bind fun _ => indifferent_pure _
  · exact indifferent_pure _

lemma resume_iff_of_trapEntry (hv : f.vectorNumber < 32) (h : trapEntry f i m = .ok o m') :
    o = .resume ↔ f.vectorNumber = 14 ∧ m.Resolves f := by
  rw [trapEntry_of_exception hv] at h
  obtain ⟨o', m₁, hd, hf⟩ := of_kernel_bind_eq_ok h
  rw [answer_of_finishTrap hf]
  exact resume_iff_of_exception hd

end Entry

/-- **Exceptions** are given to the policy by every dispatcher, as they are without one, even where their vectors are
those of lines: no port is accessed and no handler runs. The policy is asked once. Its answer counts for page faults
and general protection faults; all others, double faults among them, halt. So the outcome of the entry code does not
depend on the dispatcher or on whether it is in use, whatever traps come in between, and neither does anything else
that the entry code does, unless those traps make the difference. -/
theorem exceptions_need_no_dispatcher {η : Type} (d : Dispatcher η) (f : Frame) (hv : f.vectorNumber < 32) :
    Exception.ofVector? f.vectorNumber = some ⟨f.vectorNumber⟩ ∧
    (∀ {n : Type → Type} [Monad n] [LawfulMonad n] (env : Surroundings n η) (policy : Policy n),
      d.dispatch env policy f = dispatchException policy ⟨f.vectorNumber⟩ f ∧
      d.dispatch env policy f = reactionOf policy f ∧
      Traces (d.dispatch env.recorded policy.recorded f) (d.dispatch env policy f) [policyCall f]) ∧
    (∀ d : Dispatcher Handler, trapEntry f = do
      let outcome ← d.dispatch surroundings policy f
      if outcome = .halt then log (trapRecord .error "[TRAP] halting")
      return outcome) ∧
    (∀ (i : Interrupting) (m : Machine) (d : Dispatcher Handler) (busy : Bool) (o o' : Outcome) (m₁ m₂ : Machine),
      trapEntry f i m = .ok o m₁ → trapEntry f i (m.dispatching d busy) = .ok o' m₂ → o' = o) ∧
    ∀ i : Interrupting, i.Indifferent → Indifferent i (trapEntry f) := by
  refine ⟨ofVector?_eq_some hv, fun env policy => ?_, fun d => ?_, fun i m d busy o o' m₁ m₂ h h' => ?_,
    fun i hi => ?_⟩
  · have hd := dispatch_of_exception (d := d) env policy hv
    refine ⟨hd, hd.trans (dispatchException_eq policy f), ?_⟩
    rw [hd, dispatch_of_exception env.recorded policy.recorded hv]
    exact traces_dispatchException policy f
  · rw [dispatch_of_exception surroundings policy hv]
    exact trapEntry_of_exception hv
  · -- both resume iff the fault can be resolved, in which the dispatcher has no part
    have hiff := resume_iff_of_trapEntry hv h
    have hiff' : o' = .resume ↔ _ := resume_iff_of_trapEntry hv h'
    have hsame : o' = .resume ↔ o = .resume := hiff'.trans hiff.symm
    cases o <;> cases o' <;> simp_all
  · rw [trapEntry_of_exception hv]
    exact (indifferent_dispatchException hi _ f).bind (indifferent_finishTrap hi)

/-- A double fault, on a dispatcher whose controllers deliver line 0 on the vector of double faults. -/
theorem exceptions_need_no_dispatcher_double_fault :
    let f : Frame := ⟨.zero, 8, 0, ⟨0, 8, 0x202, 0, 0x10⟩⟩
    let d : Dispatcher Handler := ⟨.powerOn ⟨0, 0⟩, .empty⟩
    d.controllers.line? f.vectorNumber = some 0 ∧
    (∀ (env : Surroundings (StateM Nat) Handler) (policy : Policy (StateM Nat)),
      Traces (d.dispatch env.recorded policy.recorded f) (d.dispatch env policy f) [.report .doubleFault f] ∧
      d.dispatch env policy f = (fun _ => .halt) <$> policy.report .doubleFault f) ∧
    Indifferent (fun _ => throw .stuck) (trapEntry f) := by
  intro f d
  obtain ⟨-, hdispatch, -, -, hentry⟩ := exceptions_need_no_dispatcher d f (by decide)
  exact ⟨by decide, fun env policy => ⟨(hdispatch env policy).2.2, (hdispatch env policy).2.1⟩,
    hentry _ fun _ _ _ _ => rfl⟩

end Nucleus.Kernel
