import Mathlib.Algebra.Group.Nat.Defs
import Mathlib.Order.Interval.Set.Basic
import Nucleus.Kernel.Layout
import Nucleus.Proofs.Descriptor.GateTable

/-!
The gate table and the task state segment agree on the stacks for faults. Wherever the entry code and the fault stacks
lie, each gate that switches stacks names a slot that holds the end of a whole fault stack, and the faults that must not
depend on the stack they interrupt have stacks of their own.
-/

namespace Nucleus.Kernel

open Descriptor

/-! ### The gates -/

def installationOf (stubs : UInt64) (v : UInt8) : Installation :=
  ⟨v, stubs + UInt64.ofNat (v.toNat * stubSize), codeSelector, stackIndex v, .interrupt, .kernel⟩

/-- Vectors whose faults have stacks of their own. -/
def faultVectors : List UInt8 := [8, 13, 14]

lemma stackIndex_cases (v : UInt8) :
    v = 8 ∧ stackIndex v = doubleFaultStack ∨ v = 13 ∧ stackIndex v = generalProtectionStack ∨
    v = 14 ∧ stackIndex v = pageFaultStack ∨ v ∉ faultVectors ∧ stackIndex v = 0 := by
  by_cases hd : v = 8
  · exact .inl ⟨hd, hd ▸ rfl⟩
  by_cases hg : v = 13
  · exact .inr (.inl ⟨hg, hg ▸ rfl⟩)
  by_cases hp : v = 14
  · exact .inr (.inr (.inl ⟨hp, hp ▸ rfl⟩))
  refine .inr (.inr (.inr ⟨by simp [faultVectors, hd, hg, hp], ?_⟩))
  unfold stackIndex Trap.Exception.ofVector? Trap.Exception.doubleFault Trap.Exception.pageFault
    Trap.Exception.generalProtection
  split
  · rfl
  · next e he =>
    split at he
    · cases he
      simp [hd, hg, hp]
    · cases he

lemma stackIndex_ne_zero_iff {v : UInt8} : stackIndex v ≠ 0 ↔ v ∈ faultVectors := by
  obtain ⟨rfl, -⟩ | ⟨rfl, -⟩ | ⟨rfl, -⟩ | ⟨hv, hs⟩ := stackIndex_cases v
  · decide
  · decide
  · decide
  · exact iff_of_false (fun h => h hs) hv

lemma stackIndex_mem {v : UInt8} (h : stackIndex v ≠ 0) : stackIndex v ∈ guardSlots := by
  obtain ⟨-, hs⟩ | ⟨-, hs⟩ | ⟨-, hs⟩ | ⟨-, hs⟩ := stackIndex_cases v
  · rw [hs]; decide
  · rw [hs]; decide
  · rw [hs]; decide
  · exact absurd hs h

lemma stackIndex_inj {v w : UInt8} (hv : v ∈ faultVectors) (hw : w ∈ faultVectors)
    (h : stackIndex v = stackIndex w) : v = w := by
  simp only [faultVectors, List.mem_cons, List.not_mem_nil, or_false] at hv hw
  revert h
  obtain rfl | rfl | rfl := hv <;> obtain rfl | rfl | rfl := hw <;> decide

lemma accepted_installationOf (stubs : UInt64) (v : UInt8) : (installationOf stubs v).Accepted := by
  show stackIndex v ≤ 7
  obtain ⟨-, hs⟩ | ⟨-, hs⟩ | ⟨-, hs⟩ | ⟨-, hs⟩ := stackIndex_cases v <;> rw [hs] <;> decide

lemma toNat_stubOffset (v : UInt8) : (UInt64.ofNat (v.toNat * stubSize)).toNat = v.toNat * stubSize := by
  have hv : v.toNat < 256 := v.toNat_lt
  exact UInt64.toNat_ofNat_of_lt' (by unfold stubSize UInt64.size; omega)

lemma toNat_handler_installationOf {stubs : UInt64} {v : UInt8} (h : stubs.toNat + v.toNat * stubSize < 2 ^ 64) :
    (installationOf stubs v).handler.toNat = stubs.toNat + v.toNat * stubSize := by
  show (stubs + UInt64.ofNat (v.toNat * stubSize)).toNat = _
  rw [UInt64.toNat_add, toNat_stubOffset, Nat.mod_eq_of_lt h]

/-- Vectors whose entry code has an address get their gates, and the others keep theirs. -/
lemma installGates_ok {stubs : UInt64} {vs : List UInt8} (h : ∀ v ∈ vs, stubs.toNat + v.toNat * stubSize < 2 ^ 64)
    (t : GateTable) : ∃ t', installGates stubs t vs = .ok (.ok t') ∧
      ∀ v, if v ∈ vs then (t'.get v).Reads (installationOf stubs v) else t'.get v = t.get v := by
  induction vs generalizing t with
  | nil => exact ⟨t, rfl, fun v => by simp⟩
  | cons v vs ih =>
    obtain ⟨g, hg, hset⟩ := t.perform_of_accepted (accepted_installationOf stubs v)
    obtain ⟨t', hok, hget⟩ := ih (fun w hw => h w (List.mem_cons_of_mem v hw)) (t.set v g)
    -- the address of the entry code does not wrap
    have hadd : Word.add stubs (UInt64.ofNat (v.toNat * stubSize)) = .ok (installationOf stubs v).handler := by
      refine if_pos ?_
      rw [toNat_stubOffset]
      exact h v (List.mem_cons_self ..)
    refine ⟨t', ?_, fun w => ?_⟩
    · have hinstall : t.install v (installationOf stubs v).handler codeSelector (stackIndex v) .interrupt .kernel =
          .ok (t.set v g) := hset
      rw [installGates, hadd]
      simp only [bind, Except.bind, hinstall]
      exact hok
    · have hw := hget w
      rw [GateTable.get_set] at hw
      by_cases hmem : w ∈ vs
      · -- one of the vectors that follow
        rw [if_pos hmem] at hw
        rw [if_pos (List.mem_cons_of_mem v hmem)]
        exact hw
      rw [if_neg hmem] at hw
      by_cases heq : v = w
      · -- the vector at hand
        rw [if_pos heq] at hw
        rw [if_pos (heq ▸ List.mem_cons_self ..), hw, ← heq]
        exact hg
      · -- a vector that is not on the list keeps its gate
        rw [if_neg heq] at hw
        rw [if_neg (by simp [hmem, Ne.symm heq]), hw]

/-! ### The stacks -/

lemma stack?_setStack {t t' : TaskState} {i : UInt8} {top : UInt64} (h : t.setStack i top = .ok t') (j : UInt8) :
    t'.stack? j = if i = j then some top else t.stack? j := by
  unfold TaskState.setStack at h
  split at h
  · next hi =>
    cases h
    unfold TaskState.stack?
    by_cases hj : 0 < j.toNat ∧ j.toNat ≤ stackSlots
    · -- a slot of the table, in which they are numbered from zero on
      rw [dif_pos hj, dif_pos hj]
      have hget : (t.interruptStacks.set (i.toNat - 1) top (by omega)).get ⟨j.toNat - 1, by omega⟩ =
          if i.toNat - 1 = j.toNat - 1 then top else t.interruptStacks.get ⟨j.toNat - 1, by omega⟩ :=
        Vector.getElem_set _ _
      by_cases heq : i = j
      · rw [if_pos heq]
        exact congrArg some (hget.trans (if_pos (by rw [heq])))
      · have hne : i.toNat ≠ j.toNat := fun h => heq (UInt8.toNat.inj h)
        rw [if_neg heq]
        exact congrArg some (hget.trans (if_neg (by omega)))
    · have hne : i ≠ j := fun heq => hj (heq ▸ hi)
      rw [dif_neg hj, dif_neg hj, if_neg hne]
  · cases h

lemma setStack_ok (t : TaskState) {i : UInt8} (h : 0 < i.toNat ∧ i.toNat ≤ stackSlots) (top : UInt64) :
    ∃ t', t.setStack i top = .ok t' := ⟨_, dif_pos h⟩

lemma publishStacks_ok (base : UInt64) {ss : List UInt8} (h : ∀ s ∈ ss, 0 < s.toNat ∧ s.toNat ≤ stackSlots)
    (t : TaskState) : ∃ t', publishStacks base t ss = .ok t' ∧
      ∀ s, t'.stack? s = if s ∈ ss then some (stackTop base s) else t.stack? s := by
  induction ss generalizing t with
  | nil => exact ⟨t, rfl, fun s => by simp⟩
  | cons s ss ih =>
    obtain ⟨t₁, ht₁⟩ := setStack_ok t (h s (List.mem_cons_self ..)) (stackTop base s)
    obtain ⟨t', hok, hget⟩ := ih (fun r hr => h r (List.mem_cons_of_mem s hr)) t₁
    refine ⟨t', ?_, fun r => ?_⟩
    · rw [publishStacks, ht₁]
      exact hok
    · rw [hget, stack?_setStack ht₁]
      by_cases hr : r ∈ ss
      · rw [if_pos hr, if_pos (List.mem_cons_of_mem s hr)]
      by_cases heq : s = r
      · rw [if_neg hr, if_pos heq, if_pos (heq ▸ List.mem_cons_self ..), heq]
      · rw [if_neg hr, if_neg heq, if_neg (by simp [hr, Ne.symm heq])]

lemma guardSlots_bounds : ∀ s ∈ guardSlots, 0 < s.toNat ∧ s.toNat ≤ guardStackCount := by
  intro s hs
  simp only [guardSlots, List.mem_cons, List.not_mem_nil, or_false] at hs
  obtain rfl | rfl | rfl := hs <;> decide

/-- The bytes of the fault stack that ends at `top`. -/
def guardStack (top : UInt64) : Set Nat := Set.Ico (top.toNat - guardStackSize) top.toNat

def guardStacks (base : UInt64) : Set Nat := Set.Ico base.toNat (base.toNat + guardStackCount * guardStackSize)

/-- One of the fault stacks that lie one after the other from `base` on ends at `top`. -/
def EndsGuardStack (base top : UInt64) : Prop :=
  ∃ i < guardStackCount, top.toNat = base.toNat + (i + 1) * guardStackSize

section Tops

variable {base : UInt64} (hend : base.toNat + guardStackCount * guardStackSize < 2 ^ 64)
include hend

lemma toNat_stackTop {s : UInt8} (hs : s.toNat ≤ guardStackCount) :
    (stackTop base s).toNat = base.toNat + s.toNat * guardStackSize := by
  have hmul : s.toNat * guardStackSize ≤ guardStackCount * guardStackSize := Nat.mul_le_mul_right _ hs
  have hlt : s.toNat * guardStackSize < UInt64.size := by unfold UInt64.size; omega
  unfold stackTop
  rw [UInt64.toNat_add, UInt64.toNat_ofNat_of_lt' hlt, Nat.mod_eq_of_lt (by omega)]

lemma endsGuardStack_stackTop {s : UInt8} (hs : 0 < s.toNat ∧ s.toNat ≤ guardStackCount) :
    EndsGuardStack base (stackTop base s) := by
  refine ⟨s.toNat - 1, by omega, ?_⟩
  rw [toNat_stackTop hend hs.2, Nat.sub_add_cancel hs.1]

end Tops

lemma EndsGuardStack.subset {base top : UInt64} (h : EndsGuardStack base top) : guardStack top ⊆ guardStacks base := by
  obtain ⟨i, hi, htop⟩ := h
  have hmul : (i + 1) * guardStackSize ≤ guardStackCount * guardStackSize := Nat.mul_le_mul_right _ hi
  have hone : (i + 1) * guardStackSize = i * guardStackSize + guardStackSize := Nat.succ_mul ..
  refine Set.Ico_subset_Ico ?_ ?_ <;> omega

lemma EndsGuardStack.apart {base top top' : UInt64} (h : EndsGuardStack base top) (h' : EndsGuardStack base top')
    (hne : top ≠ top') : ∀ a ∈ guardStack top, a ∉ guardStack top' := by
  obtain ⟨i, -, htop⟩ := h
  obtain ⟨j, -, htop'⟩ := h'
  have hne : top.toNat ≠ top'.toNat := fun h => hne (UInt64.toNat.inj h)
  have hsize : guardStackSize = 16384 := rfl
  rw [hsize] at htop htop'
  rintro a ⟨hlow, hhigh⟩ ⟨hlow', hhigh'⟩
  rw [hsize] at hlow hlow'
  omega

/-! ### Isolation -/

/-- The gates and the task state segment agree on the fault stacks, which lie from `base` on. -/
structure Isolates (gates : GateTable) (task : TaskState) (base : UInt64) : Prop where
  /-- The gates of the three faults switch stacks, and no others. -/
  switches : ∀ v, (gates.get v).stackIndex ≠ 0 ↔ v ∈ faultVectors
  /-- A slot that a gate names holds the aligned end of a whole fault stack. -/
  whole : ∀ v, (gates.get v).stackIndex ≠ 0 → ∃ top, task.stack? (gates.get v).stackIndex = some top ∧
    16 ∣ top.toNat ∧ EndsGuardStack base top ∧ guardStack top ⊆ guardStacks base
  /-- The three faults share no slot, and their stacks no byte. -/
  apart : ∀ v ∈ faultVectors, ∀ w ∈ faultVectors, v ≠ w →
    (gates.get v).stackIndex ≠ (gates.get w).stackIndex ∧
    ∀ top top', task.stack? (gates.get v).stackIndex = some top → task.stack? (gates.get w).stackIndex = some top' →
      ∀ a ∈ guardStack top, a ∉ guardStack top'

/-- Gates that name the slots of the layout, with the ends of the fault stacks in these slots. -/
lemma isolates_of_tops {gates : GateTable} {task : TaskState} {base : UInt64}
    (hgates : ∀ v, (gates.get v).stackIndex = stackIndex v)
    (htops : ∀ s ∈ guardSlots, task.stack? s = some (stackTop base s)) (haligned : 16 ∣ base.toNat)
    (hend : base.toNat + guardStackCount * guardStackSize < 2 ^ 64) : Isolates gates task base where
  switches v := by rw [hgates, stackIndex_ne_zero_iff]
  whole v hv := by
    rw [hgates] at hv ⊢
    have hmem := stackIndex_mem hv
    have hends := endsGuardStack_stackTop hend (guardSlots_bounds _ hmem)
    refine ⟨stackTop base (stackIndex v), htops _ hmem, ?_, hends, hends.subset⟩
    rw [toNat_stackTop hend (guardSlots_bounds _ hmem).2]
    exact Nat.dvd_add haligned (Nat.dvd_mul_left_of_dvd (by decide) _)
  apart v hv w hw hne := by
    have hv' := stackIndex_mem (stackIndex_ne_zero_iff.mpr hv)
    have hw' := stackIndex_mem (stackIndex_ne_zero_iff.mpr hw)
    have hslots : stackIndex v ≠ stackIndex w := fun h => hne (stackIndex_inj hv hw h)
    rw [hgates, hgates, htops _ hv', htops _ hw']
    refine ⟨hslots, ?_⟩
    rintro _ _ ⟨⟩ ⟨⟩
    refine (endsGuardStack_stackTop hend (guardSlots_bounds _ hv')).apart
      (endsGuardStack_stackTop hend (guardSlots_bounds _ hw')) fun heq => hslots (UInt8.toNat.inj ?_)
    -- two slots with the same top are the same slot
    have htop := congrArg UInt64.toNat heq
    rw [toNat_stackTop hend (guardSlots_bounds _ hv').2, toNat_stackTop hend (guardSlots_bounds _ hw').2] at htop
    exact Nat.eq_of_mul_eq_mul_right (by decide) (Nat.add_left_cancel htop)

/-- **Faults are isolated.** Wherever the entry code lies, as long as it is not at address zero and its end does not
overflow, all gates are built and pass the check, and each vector has an interrupt gate to its own entry code. Wherever
the fault stacks lie, aligned and without an overflow, the task state segment is built, and both tables agree on them. -/
theorem faults_isolated {stubs base : UInt64} (hlow : 1 ≤ stubs.toNat)
    (hhigh : stubs.toNat ≤ 2 ^ 64 - 1 - 255 * 16) (haligned : 16 ∣ base.toNat)
    (hend : base.toNat + guardStackCount * guardStackSize < 2 ^ 64) :
    ∃ gates task, buildGates stubs = .ok (.ok gates) ∧ gates.validate = .ok () ∧ buildTaskState base = .ok task ∧
      (∀ v, (gates.get v).Present ∧ (gates.get v).type? = some .interrupt ∧
        (gates.get v).handler.toNat = stubs.toNat + 16 * v.toNat) ∧
      Isolates gates task base := by
  have hfits : ∀ v : UInt8, stubs.toNat + v.toNat * stubSize < 2 ^ 64 := by
    intro v
    have hv : v.toNat < 256 := v.toNat_lt
    unfold stubSize
    omega
  obtain ⟨gates, hgates, hget⟩ := installGates_ok (fun v (_ : v ∈ GateTable.vectors) => hfits v) .empty
  have hreads : ∀ v, (gates.get v).Reads (installationOf stubs v) := fun v => by
    have h := hget v
    rwa [if_pos (GateTable.mem_vectors v)] at h
  have hhandler : ∀ v, (gates.get v).handler.toNat = stubs.toNat + 16 * v.toNat := fun v => by
    rw [(hreads v).handler, toNat_handler_installationOf (hfits v), Nat.mul_comm]
    rfl
  have hslots : ∀ s ∈ guardSlots, 0 < s.toNat ∧ s.toNat ≤ stackSlots := fun s hs =>
    ⟨(guardSlots_bounds s hs).1, Nat.le_trans (guardSlots_bounds s hs).2 (by decide)⟩
  obtain ⟨task, htask, htops⟩ := publishStacks_ok base hslots .empty
  refine ⟨gates, task, hgates, ?_, htask, fun v => ⟨(hreads v).present, (hreads v).type, hhandler v⟩, ?_⟩
  · -- no gate leads to address zero, for the entry code begins above it
    rw [GateTable.validate_eq_ok_iff]
    intro v
    refine ⟨(hreads v).present, fun hzero => ?_⟩
    have h := hhandler v
    rw [hzero] at h
    have hz : (0 : UInt64).toNat = 0 := rfl
    omega
  · exact isolates_of_tops (fun v => (hreads v).stackIndex) (fun s hs => (htops s).trans (if_pos hs)) haligned hend

/-- Entry code and fault stacks at the end of the address space. -/
theorem faults_isolated_highest :
    ∃ gates task, buildGates 0xFFFFFFFFFFFFF00F = .ok (.ok gates) ∧ gates.validate = .ok () ∧
      buildTaskState 0xFFFFFFFFFFFF3FF0 = .ok task ∧ (gates.get 255).handler = 0xFFFFFFFFFFFFFFFF ∧
      Isolates gates task 0xFFFFFFFFFFFF3FF0 := by
  obtain ⟨gates, task, hgates, hvalid, htask, hall, hisolates⟩ :=
    @faults_isolated 0xFFFFFFFFFFFFF00F 0xFFFFFFFFFFFF3FF0 (by decide) (by decide) (by decide) (by decide)
  exact ⟨gates, task, hgates, hvalid, htask, UInt64.toNat.inj (hall 255).2.2, hisolates⟩

end Nucleus.Kernel
