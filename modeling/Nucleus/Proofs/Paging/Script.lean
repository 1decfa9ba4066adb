import Nucleus.Paging.Demand
import Nucleus.Proofs.Memory.Script

/-!
The operations on page tables and on the heap window with all their single steps, and that each of them is what its
script comes to.
-/

namespace Nucleus.Paging.Script

open Memory Memory.Script

def setEntry (address : Nat) (e : Entry) : Script Unit := write address e.raw

def getEntry (address : Nat) : Script Entry := return ⟨(← Script.get).ram.load address⟩

def invalidate (v : VirtAddr) : Script Unit := emit (.invalidated v)

/-! ### Tables -/

def createFrom (v : VirtAddr) : Nat → PhysAddr → Script (Except MapError Nat)
  | 0, table => do
    match (← Script.get).frames.window.visible? table with
    | some _ => return .ok (slotAddress table 0 v)
    | none => return .error (.unreachable table)
  | l + 1, table => do
    match entryIn? (← Script.get) table (l + 1) v with
    | none => return .error (.unreachable table)
    | some e =>
      if e.Present then
        if e.Huge then return .error (.hugePage (l + 1))
        else createFrom v l e.base
      else
        match ← alloc with
        | none => return .error .outOfMemory
        | some frame =>
          emit (.tableCreated frame (l + 1))
          let new := Entry.make frame (.present ∪ .writable)
          setEntry (slotAddress table (l + 1) v) new
          createFrom v l new.base

def leafOrCreate (root : PhysAddr) (v : VirtAddr) : Script (Except MapError Nat) := createFrom v Level.root root

def map (root : PhysAddr) (v : VirtAddr) (p : PhysAddr) (flags : Flags) : Script (Except MapError Unit) := do
  emit (.mapping v p)
  match ← leafOrCreate root v with
  | .error e => return .error e
  | .ok a =>
    setEntry a (.make p (flags ∪ .present))
    invalidate v
    return .ok ()

def unmap (root : PhysAddr) (v : VirtAddr) : Script (Option Entry) := do
  match leaf? (← Script.get) root v with
  | none => return none
  | some a =>
    let old ← getEntry a
    if old.Unused then return none
    setEntry a .empty
    invalidate v
    return some old

def unlinkEmpty : List Link → Nat → Script Nat
  | [], freed => return freed
  | k :: ks, freed => do
    let s ← Script.get
    if (s.frames.window.visible? k.table).isSome ∧ TableEmpty s.ram k.table then
      setEntry k.parentSlot .empty
      match ← free k.table with
      | .error _ => return freed
      | .ok () => unlinkEmpty ks (freed + 1)
    else return freed

def reclaim (root : PhysAddr) (v : VirtAddr) : Script Nat := do
  let links := linksFrom (← Script.get) v Level.root root
  let freed ← unlinkEmpty links.reverse 0
  if 0 < freed then emit (.tablesReclaimed freed v)
  return freed

/-! ### The heap window -/

def releaseOne (root : PhysAddr) (v : VirtAddr) : Script Unit := do
  match ← unmap root v with
  | none => return
  | some old => if old.Present then let _ ← free old.base

def releaseFrom (root : PhysAddr) (start : VirtAddr) (i : Nat) : Nat → Script Unit
  | 0 => return
  | n + 1 => do
    let v ← check (pageFrom start i)
    releaseOne root v
    if n = 0 ∨ EndsTable v then
      let _ ← reclaim root v
    releaseFrom root start (i + 1) n

def release (root : PhysAddr) (v : VirtAddr) (count : Nat) : Script Unit := releaseFrom root v 0 count

def markFrom (root : PhysAddr) (start : VirtAddr) (i : Nat) : Nat → Script (Except MapError Unit)
  | 0 => return .ok ()
  | n + 1 => do
    let v ← check (pageFrom start i)
    match ← leafOrCreate root v with
    | .ok a =>
      setEntry a pendingEntry
      markFrom root start (i + 1) n
    | .error e =>
      releaseFrom root start 0 i
      let _ ← reclaim root v
      return .error e

def tryReserve (root : PhysAddr) (h : Heap) (count : Nat) : Script (Except ReserveError VirtAddr × Heap) := do
  if count = 0 then return (.error .nothing, h)
  if ¬ h.Fits count then return (.error .windowExhausted, h)
  match ← markFrom root h.brk 0 count with
  | .error e => return (.error (.map e), h)
  | .ok () =>
    let h' := { h with brk := ← check (pageFrom h.brk count) }
    emit (.reserved count h.brk)
    return (.ok h.brk, h')

def reserve (root : PhysAddr) (h : Heap) (count : Nat) : Script (Option VirtAddr × Heap) := do
  match ← tryReserve root h count with
  | (.ok v, h') => return (some v, h')
  | (.error e, h') =>
    emit (.reserveFailed count e)
    return (none, h')

def resolveFault (root : PhysAddr) (address : VirtAddr) : Script (Except UnresolvedFault PhysAddr) := do
  let page := address.pageBase
  match leaf? (← Script.get) root page with
  | none => return .error .noEntry
  | some a =>
    let old ← getEntry a
    if ¬ old.Demand ∨ old.Present then return .error (.notPending old)
    match ← alloc with
    | none => return .error .outOfMemory
    | some frame =>
      setEntry a (.make frame (old.flags.remove .demand ∪ .present))
      invalidate page
      emit (.backed page frame)
      return .ok frame

/-! ### What they come to -/

section Runs

variable {root : PhysAddr} {v : VirtAddr}

@[simp] lemma run_createFrom (l : Nat) (t : PhysAddr) : (createFrom v l t).run = Paging.createFrom v l t := by
  induction l generalizing t with
  | zero =>
    refine run_bind_eq rfl fun s => ?_
    cases s.frames.window.visible? t <;> rfl
  | succ l ih =>
    refine run_bind_eq rfl fun s => ?_
    cases entryIn? s t (l + 1) v with
    | none => rfl
    | some e =>
      refine run_ite_eq (run_ite_eq rfl (ih _)) (run_bind_eq run_alloc fun r => ?_)
      cases r with
      | none => rfl
      | some f => exact run_bind_eq rfl fun _ => run_bind_eq rfl fun _ => ih _

@[simp] lemma run_leafOrCreate : (leafOrCreate root v).run = Paging.leafOrCreate root v := run_createFrom ..

@[simp] lemma run_map (p : PhysAddr) (flags : Flags) : (map root v p flags).run = Paging.map root v p flags := by
  refine run_bind_eq rfl fun _ => run_bind_eq run_leafOrCreate fun r => ?_
  cases r <;> rfl

@[simp] lemma run_unmap : (unmap root v).run = Paging.unmap root v := by
  refine run_bind_eq rfl fun s => ?_
  cases leaf? s root v with
  | none => rfl
  | some a => exact run_bind_eq rfl fun _ => run_ite_eq rfl rfl

@[simp] lemma run_unlinkEmpty (ks : List Link) (n : Nat) : (unlinkEmpty ks n).run = Paging.unlinkEmpty ks n := by
  induction ks generalizing n with
  | nil => rfl
  | cons k ks ih =>
    refine run_bind_eq rfl fun _ => run_ite_eq (run_bind_eq rfl fun _ => run_bind_eq (run_free _) fun r => ?_) rfl
    cases r with
    | error e => rfl
    | ok _ => exact ih _

@[simp] lemma run_reclaim : (reclaim root v).run = Paging.reclaim root v :=
  run_bind_eq rfl fun _ => run_bind_eq (run_unlinkEmpty ..) fun _ => run_ite_eq rfl rfl

@[simp] lemma run_releaseOne : (releaseOne root v).run = Paging.releaseOne root v := by
  refine run_bind_eq run_unmap fun r => ?_
  cases r with
  | none => rfl
  | some e => exact run_ite_eq (run_bind_eq (run_free _) fun _ => rfl) rfl

@[simp] lemma run_releaseFrom (i n : Nat) : (releaseFrom root v i n).run = Paging.releaseFrom root v i n := by
  induction n generalizing i with
  | zero => rfl
  | succ n ih =>
    refine run_bind_eq (run_check _) fun w => run_bind_eq run_releaseOne fun _ => ?_
    exact run_ite_eq (run_bind_eq run_reclaim fun _ => ih _) (ih _)

@[simp] lemma run_release (count : Nat) : (release root v count).run = Paging.release root v count :=
  run_releaseFrom ..

@[simp] lemma run_markFrom (i n : Nat) : (markFrom root v i n).run = Paging.markFrom root v i n := by
  induction n generalizing i with
  | zero => rfl
  | succ n ih =>
    refine run_bind_eq (run_check _) fun w => run_bind_eq run_leafOrCreate fun r => ?_
    cases r with
    | ok a => exact run_bind_eq rfl fun _ => ih _
    | error e => exact run_bind_eq (run_releaseFrom ..) fun _ => run_bind_eq run_reclaim fun _ => rfl

@[simp] lemma run_tryReserve (h : Heap) (count : Nat) :
    (tryReserve root h count).run = Paging.tryReserve root h count := by
  refine run_ite_eq rfl (run_ite_eq rfl (run_bind_eq (run_markFrom ..) fun r => ?_))
  cases r with
  | error e => rfl
  | ok _ => exact run_bind_eq (run_check _) fun _ => rfl

@[simp] lemma run_reserve (h : Heap) (count : Nat) : (reserve root h count).run = Paging.reserve root h count := by
  refine run_bind_eq (run_tryReserve h count) fun (r, _) => ?_
  cases r <;> rfl

@[simp] lemma run_resolveFault : (resolveFault root v).run = Paging.resolveFault root v := by
  refine run_bind_eq rfl fun s => ?_
  cases leaf? s root v.pageBase with
  | none => rfl
  | some a =>
    refine run_bind_eq rfl fun e => run_ite_eq rfl (run_bind_eq run_alloc fun r => ?_)
    cases r <;> rfl

end Runs

end Nucleus.Paging.Script
