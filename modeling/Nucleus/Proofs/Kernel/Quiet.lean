import Nucleus.Kernel.Core
import Nucleus.Proofs.Memory.Run

/-!
Kernel code on a machine where no trap comes in between. Reports change nothing but what left the computer there,
and an operation on the memory core does what it does to the store.
-/

namespace Nucleus.Kernel

open Memory Paging

variable {α β : Type}

/-! ### Code that ends -/

/-- `x` ends when it starts on the machine `m`, and `Q` holds of its answer and of the machine it leaves. -/
def Finishes (x : KernelM α) (i : Interrupting) (m : Machine) (Q : α → Machine → Prop) : Prop :=
  ∃ a m', x i m = .ok a m' ∧ Q a m'

section Rules

variable {x : KernelM α} {f : α → KernelM β} {i : Interrupting} {m : Machine} {P : α → Machine → Prop}
  {Q : β → Machine → Prop}

lemma Finishes.bind (h : Finishes x i m P) (k : ∀ a m', P a m' → Finishes (f a) i m' Q) :
    Finishes (x >>= f) i m Q := by
  obtain ⟨a, m', hx, hP⟩ := h
  obtain ⟨b, m'', hf, hQ⟩ := k a m' hP
  refine ⟨b, m'', ?_, hQ⟩
  show EStateM.bind (x i) (fun a => f a i) m = _
  rw [EStateM.bind, hx]
  exact hf

lemma Finishes.mono {P' : α → Machine → Prop} (h : Finishes x i m P) (k : ∀ a m', P a m' → P' a m') :
    Finishes x i m P' := by
  obtain ⟨a, m', hx, hP⟩ := h
  exact ⟨a, m', hx, k a m' hP⟩

lemma finishes_pure {a : α} (h : P a m) : Finishes (pure a) i m P := ⟨a, m, rfl, h⟩

lemma finishes_get_bind {f : Machine → KernelM β} : Finishes (get >>= f) i m Q ↔ Finishes (f m) i m Q := Iff.rfl

lemma finishes_modify_bind {g : Machine → Machine} {f : PUnit → KernelM β} :
    Finishes (modify g >>= f) i m Q ↔ Finishes (f ⟨⟩) i (g m) Q := Iff.rfl

lemma finishes_set_bind {t : Machine} {f : PUnit → KernelM β} :
    Finishes (set t >>= f) i m Q ↔ Finishes (f ⟨⟩) i t Q := Iff.rfl

lemma finishes_modify {g : Machine → Machine} {P : PUnit → Machine → Prop} (h : P ⟨⟩ (g m)) :
    Finishes (modify g) i m P := ⟨⟨⟩, g m, rfl, h⟩

lemma of_kernel_bind_eq_ok {m' : Machine} {b : β} (h : (x >>= f) i m = .ok b m') :
    ∃ a t, x i m = .ok a t ∧ f a i t = .ok b m' := of_bind_eq_ok h

end Rules

/-! ### Reports -/

/-- No trap comes in between: the processor runs, and the text sink does not raise one. -/
structure Machine.Quiet (m : Machine) : Prop where
  running : m.halted = false
  silent : ∀ sink, m.sink = some sink → sink.trigger = none

/-- The addresses whose cached mappings the processor dropped so far, in order. -/
def Machine.invalidations (m : Machine) : List VirtAddr := m.outputs.toList.filterMap fun
  | .invalidation v => some v
  | _ => none

/-- All that happened between `m` and `m'` is that text was written and cached mappings of `vs` were dropped. -/
structure Told (vs : List VirtAddr) (m m' : Machine) : Prop where
  rest : { m' with sink := m.sink, outputs := m.outputs } = m
  quiet : m'.Quiet
  invalidations : m'.invalidations = m.invalidations ++ vs

namespace Told

variable {vs ws : List VirtAddr} {m m' m'' : Machine}

lemma refl (h : m.Quiet) : Told [] m m := ⟨rfl, h, (List.append_nil _).symm⟩

lemma trans (h : Told vs m m') (h' : Told ws m' m'') : Told (vs ++ ws) m m'' := by
  refine ⟨?_, h'.quiet, by rw [h'.invalidations, h.invalidations, List.append_assoc]⟩
  have hrest := congrArg (fun t : Machine => { t with sink := m.sink, outputs := m.outputs }) h'.rest
  exact hrest.trans h.rest

lemma memory (h : Told vs m m') : m'.memory = m.memory := (congrArg Machine.memory h.rest :)

lemma ram (h : Told vs m m') : m'.ram = m.ram := (congrArg Machine.ram h.rest :)

lemma root (h : Told vs m m') : m'.root = m.root := (congrArg Machine.root h.rest :)

lemma memoryBusy (h : Told vs m m') : m'.memoryBusy = m.memoryBusy := (congrArg Machine.memoryBusy h.rest :)

end Told

section Reports

variable {i : Interrupting} {m : Machine}

lemma output_finishes (h : m.Quiet) (o : Output) :
    Finishes (output o) i m fun _ m' => m' = { m with outputs := m.outputs.push o } := by
  refine finishes_modify ?_
  rw [h.running]
  rfl

lemma told_output (h : m.Quiet) {o : Output} (ho : ∀ v, o ≠ .invalidation v) :
    Told [] m { m with outputs := m.outputs.push o } := by
  refine ⟨rfl, ⟨h.running, h.silent⟩, ?_⟩
  unfold Machine.invalidations
  dsimp only
  rw [Array.toList_push, List.filterMap_append, List.append_nil]
  cases o with
  | invalidation v => exact absurd rfl (ho v)
  | _ => exact List.append_nil _

lemma writePieces_finishes {sink : Sink} (h : m.Quiet) (hs : sink.trigger = none) (ps : List (List Char)) :
    Finishes (writePieces sink ps) i m fun sink' m' => sink'.trigger = none ∧ Told [] m m' ∧ m'.sink = m.sink := by
  induction ps generalizing sink m with
  | nil => exact finishes_pure ⟨hs, .refl h, rfl⟩
  | cons p ps ih =>
    have hpiece : Finishes (writePiece sink p) i m fun sink' m' =>
        sink'.trigger = none ∧ Told [] m m' ∧ m'.sink = m.sink := by
      unfold writePiece
      refine Finishes.bind (output_finishes h _) ?_
      rintro _ _ rfl
      have ht := told_output h (o := .sink (String.ofList p)) nofun
      split
      · exact finishes_pure ⟨hs, ht, rfl⟩
      · rw [hs]
        exact finishes_pure ⟨rfl, ht, rfl⟩
    refine Finishes.bind hpiece ?_
    rintro sink' m' ⟨hs', ht, hsink⟩
    refine (ih ht.quiet hs').mono ?_
    rintro sink'' m'' ⟨hs'', ht', hsink'⟩
    exact ⟨hs'', ht.trans ht', hsink'.trans hsink⟩

lemma write_finishes (h : m.Quiet) (s : String) : Finishes (write s) i m fun _ m' => Told [] m m' := by
  have hserial : Finishes (writeSerial s) i m fun _ m' => Told [] m m' := by
    refine (output_finishes h _).mono ?_
    rintro _ _ rfl
    exact told_output h nofun
  unfold write
  rw [finishes_get_bind]
  cases hm : m.sink with
  | none => exact hserial
  | some sink =>
    dsimp only
    by_cases hb : m.sinkBusy = true
    · rw [if_pos hb]
      exact hserial
    · rw [if_neg hb, finishes_modify_bind]
      have hq : Machine.Quiet { m with sinkBusy := true } := ⟨h.running, h.silent⟩
      refine Finishes.bind (writePieces_finishes hq (h.silent sink hm) _) ?_
      rintro sink' m' ⟨hs', ht, -⟩
      refine finishes_modify ⟨?_, ⟨ht.quiet.running, ?_⟩, ht.invalidations⟩
      · have hrest := congrArg (fun t : Machine => { t with sinkBusy := false }) ht.rest
        rw [Bool.not_eq_true] at hb
        refine hrest.trans ?_
        show { m with sinkBusy := false } = m
        rw [← hb]
      · rintro _ ⟨⟩
        exact hs'

/-- **A report** changes nothing but what left the computer. -/
lemma log_finishes (h : m.Quiet) (r : Log.Record) : Finishes (log r) i m fun _ m' => Told [] m m' := by
  unfold log
  rw [finishes_get_bind]
  split
  · exact write_finishes h _
  · exact finishes_pure (.refl h)

lemma perform_finishes (h : m.Quiet) (e : Event) :
    Finishes (perform e) i m fun _ m' => Told e.invalidation?.toList m m' := by
  unfold perform
  cases e with
  | invalidated v =>
    refine (output_finishes h _).mono ?_
    rintro _ _ rfl
    refine ⟨rfl, ⟨h.running, h.silent⟩, ?_⟩
    unfold Machine.invalidations
    dsimp only
    rw [Array.toList_push, List.filterMap_append]
    rfl
  | _ => exact log_finishes h _

lemma performAll_finishes (h : m.Quiet) (es : List Event) :
    Finishes (performAll es) i m fun _ m' => Told (es.filterMap Event.invalidation?) m m' := by
  induction es generalizing m with
  | nil => exact finishes_pure (.refl h)
  | cons e es ih =>
    refine Finishes.bind (perform_finishes h e) ?_
    rintro _ m' ht
    refine (ih ht.quiet).mono ?_
    rintro _ m'' ht'
    have hboth := ht.trans ht'
    rw [List.filterMap_cons]
    cases he : e.invalidation? <;> rw [he] at hboth <;> exact hboth

end Reports

/-! ### The memory core -/

/-- The memory of the machine with the free frames of a core. -/
def Machine.store (m : Machine) (core : MemoryCore) : Store := ⟨m.ram, core.frames, #[]⟩

section Core

variable {i : Interrupting} {m : Machine} {core : MemoryCore} {op : CoreOp α}

/-- **An operation on the memory core** of a quiet machine does to the core what it does to the store. -/
lemma withCore_finishes (h : m.Quiet) (hb : m.memoryBusy = false) (hm : m.memory = some core) {a : α} {heap : Heap}
    {s : Store} (hop : op m.root core.heap (m.store core) = .ok (a, heap) s) :
    Finishes (withCore op) i m fun r m' =>
      r = some a ∧ Told s.dropped { m with ram := s.ram, memory := some ⟨s.frames, heap⟩ } m' := by
  have hstep : core.step m.ram m.root op = ⟨s.ram, ⟨s.frames, heap⟩, s.events.toList, .ok a⟩ := by
    unfold MemoryCore.step
    rw [show op m.root core.heap ⟨m.ram, core.frames, #[]⟩ = .ok (a, heap) s from hop]
  unfold withCore
  rw [finishes_get_bind, hb, hm]
  refine finishes_set_bind.mpr ?_
  rw [hstep]
  have hq : Machine.Quiet { m with ram := s.ram, memory := some ⟨s.frames, heap⟩, memoryBusy := true } :=
    ⟨h.running, h.silent⟩
  refine Finishes.bind (performAll_finishes hq s.events.toList) ?_
  rintro _ m' ht
  refine ⟨some a, { m' with memoryBusy := false }, rfl, rfl, ?_, ⟨ht.quiet.running, ht.quiet.silent⟩, ht.invalidations⟩
  have hrest := congrArg (fun t : Machine => { t with memoryBusy := false }) ht.rest
  refine hrest.trans ?_
  show { m with ram := s.ram, memory := some ⟨s.frames, heap⟩, memoryBusy := false } = _
  rw [← hb]

/-- An answer of an operation on the memory core is the one that the operation gives on the store, whatever traps
come in between. -/
lemma answer_of_withCore {r : Option α} {m' : Machine} (hm : m.memory = some core)
    (h : withCore op i m = .ok r m') :
    ∃ a heap s, op m.root core.heap (m.store core) = .ok (a, heap) s ∧ r = some a := by
  unfold withCore at h
  obtain ⟨_, _, ⟨⟩, h⟩ := of_kernel_bind_eq_ok h
  dsimp only at h
  split at h
  · obtain ⟨_, _, hthrow, -⟩ := of_kernel_bind_eq_ok h
    cases hthrow
  · rw [hm] at h
    obtain ⟨-, m₁, -, h⟩ := of_kernel_bind_eq_ok h
    obtain ⟨-, m₂, -, h⟩ := of_kernel_bind_eq_ok h
    obtain ⟨-, m₃, -, h⟩ := of_kernel_bind_eq_ok h
    obtain ⟨a, m₄, hcheck, h⟩ := of_kernel_bind_eq_ok h
    cases h
    unfold MemoryCore.step at hcheck
    unfold Machine.store
    cases hop : op m.root core.heap ⟨m.ram, core.frames, #[]⟩ with
    | ok p s =>
      rw [hop] at hcheck
      cases hcheck
      exact ⟨p.1, p.2, s, rfl, rfl⟩
    | error f s =>
      rw [hop] at hcheck
      cases hcheck

end Core

end Nucleus.Kernel
