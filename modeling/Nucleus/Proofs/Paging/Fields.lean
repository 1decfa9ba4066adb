import Mathlib.Tactic.Common
import Nucleus.Paging.Entry

/-!
The two fields of an entry. Setting the base keeps all other bits and setting the flags keeps the base alone, so the
bits of a raw word that belong to neither stay until the flags are set or the entry is cleared for the first time. From
then on the entry consists of the base and the flags, each as it was set last.
-/

namespace Nucleus.Paging.Entry

/-! ### One change -/

section Change

variable (e : Entry) (b c : PhysAddr) (f : Flags)

lemma bits_and_not_baseMask : f.bits &&& ~~~baseMask = f.bits := by
  rw [← f.bits_and_mask, UInt64.and_assoc, show flagMask &&& ~~~baseMask = flagMask by decide]

lemma make_masked : make ⟨b.word &&& baseMask⟩ f = make b f := by
  simp only [make, UInt64.and_assoc, UInt64.and_self]

lemma base_masked : (⟨e.base.word &&& baseMask⟩ : PhysAddr) = e.base := by
  simp only [base, UInt64.and_assoc, UInt64.and_self]

lemma setFlags_eq : e.setFlags f = make e.base f := (make_masked ⟨e.raw⟩ f).symm

lemma base_setFlags : (e.setFlags f).base = e.base := by
  rw [setFlags_eq, base_make, base_masked]

lemma base_setBase : (e.setBase b).base = ⟨b.word &&& baseMask⟩ := by
  simp only [setBase, base, or_and, UInt64.and_assoc, UInt64.and_self, show ~~~baseMask &&& baseMask = 0 by decide,
    UInt64.and_zero, UInt64.zero_or]

lemma setBase_make : (make b f).setBase c = make c f := by
  have hraw : ((b.word &&& baseMask) ||| f.bits) &&& ~~~baseMask = f.bits := by
    rw [or_and, UInt64.and_assoc, show baseMask &&& ~~~baseMask = 0 by decide, UInt64.and_zero, UInt64.zero_or,
      bits_and_not_baseMask]
  unfold setBase make
  rw [hraw, UInt64.or_comm]

/-- **Base and flags set together** leave nothing of what the entry was. -/
lemma setFlags_setBase : (e.setBase b).setFlags f = make b f := by
  rw [setFlags_eq, base_setBase, make_masked]

lemma setBase_setFlags : (e.setFlags f).setBase b = make b f := by
  rw [setFlags_eq, setBase_make]

lemma empty_eq_make : empty = make .null (.ofBits 0) := by decide

lemma unused_make : (make b f).Unused ↔ b.word &&& baseMask = 0 ∧ f.bits = 0 := UInt64.or_eq_zero_iff

end Change

/-! ### Runs of changes -/

inductive Write where
  | base (b : PhysAddr)
  | flags (f : Flags)
  | clear
  deriving DecidableEq, Repr

def Write.base? : Write → Option PhysAddr
  | base b => some b
  | _ => none

def Write.flags? : Write → Option Flags
  | flags f => some f
  | _ => none

def write (e : Entry) : Write → Entry
  | .base b => e.setBase b
  | .flags f => e.setFlags f
  | .clear => .empty

/-- The entry after a run of changes, the latest first. -/
def afterWrites (e : Entry) : List Write → Entry
  | [] => e
  | w :: past => (e.afterWrites past).write w

def sinceClear (past : List Write) : List Write := past.takeWhile (· ≠ .clear)

/-- The base that was set last since the latest clearing; if there is none, that of a cleared entry or the initial one. -/
def lastBase (e : Entry) (past : List Write) : PhysAddr :=
  ((sinceClear past).findSome? Write.base?).getD (if .clear ∈ past then .null else e.base)

/-- The flags that were set last since the latest clearing, none at all if there was no such change. -/
def lastFlags (past : List Write) : Flags := ((sinceClear past).findSome? Write.flags?).getD (.ofBits 0)

section Runs

variable (e : Entry) (b : PhysAddr) (f : Flags) (past later : List Write)

@[simp] lemma lastBase_base : e.lastBase (.base b :: past) = b := by
  simp [lastBase, sinceClear, List.findSome?_cons, Write.base?]

@[simp] lemma lastBase_flags : e.lastBase (.flags f :: past) = e.lastBase past := by
  simp [lastBase, sinceClear, List.findSome?_cons, Write.base?]

@[simp] lemma lastBase_clear : e.lastBase (.clear :: past) = .null := by simp [lastBase, sinceClear]

@[simp] lemma lastFlags_base : lastFlags (.base b :: past) = lastFlags past := by
  simp [lastFlags, sinceClear, List.findSome?_cons, Write.flags?]

@[simp] lemma lastFlags_flags : lastFlags (.flags f :: past) = f := by
  simp [lastFlags, sinceClear, List.findSome?_cons, Write.flags?]

@[simp] lemma lastFlags_clear : lastFlags (.clear :: past) = .ofBits 0 := by simp [lastFlags, sinceClear]

lemma afterWrites_append : e.afterWrites (later ++ past) = (e.afterWrites past).afterWrites later := by
  induction later with
  | nil => rfl
  | cons w later ih => exact congrArg (write · w) ih

lemma base_afterWrites : (e.afterWrites past).base = ⟨(e.lastBase past).word &&& baseMask⟩ := by
  induction past with
  | nil => exact e.base_masked.symm
  | cons w past ih =>
    cases w with
    | base b =>
      rw [lastBase_base]
      exact base_setBase _ b
    | flags f =>
      rw [lastBase_flags, ← ih]
      exact base_setFlags _ f
    | clear =>
      rw [lastBase_clear]
      rfl

/-- **Bits without a meaning are gone** once the flags were set or the entry was cleared. -/
lemma afterWrites_eq {past : List Write} (h : .clear ∈ past ∨ ∃ f, .flags f ∈ past) :
    e.afterWrites past = make (e.lastBase past) (lastFlags past) := by
  induction past with
  | nil => simp at h
  | cons w past ih =>
    cases w with
    | base b =>
      have hpast : .clear ∈ past ∨ ∃ f, .flags f ∈ past := by simpa using h
      rw [lastBase_base, lastFlags_base, ← setBase_make (e.lastBase past), ← ih hpast]
      rfl
    | flags f =>
      rw [lastBase_flags, lastFlags_flags, ← make_masked, ← base_afterWrites, ← setFlags_eq]
      rfl
    | clear =>
      rw [lastBase_clear, lastFlags_clear]
      exact empty_eq_make

end Runs

/-- **Base and flags are independent.** After any run of changes of a raw word that sets the flags or clears the entry at
least once, the entry consists of the bits 12 to 51 of the base and of the flags, each as it was set last since the
latest clearing, and these are what is read; without such a change the base is that of a cleared entry, or the initial
one if the entry never was cleared, and there are no flags. A change of the base and a change of the flags that follow
each other can trade places, and both together after a clearing make the entry anew, in either order. -/
theorem base_and_flags_independent (e : Entry) {past : List Write} (h : .clear ∈ past ∨ ∃ f, .flags f ∈ past) :
    let b := e.lastBase past
    let f := lastFlags past
    ((e.afterWrites past).raw = (b.word &&& baseMask) ||| f.bits ∧
      (e.afterWrites past).base = ⟨b.word &&& baseMask⟩ ∧ (e.afterWrites past).flags = f) ∧
    (((e.afterWrites past).Present ↔ f.Contains .present) ∧ ((e.afterWrites past).Huge ↔ f.Contains .huge) ∧
      ((e.afterWrites past).Demand ↔ f.Contains .demand) ∧
      ((e.afterWrites past).Unused ↔ b.word &&& baseMask = 0 ∧ f.bits = 0)) ∧
    (∀ b f later earlier, e.afterWrites (later ++ .base b :: .flags f :: earlier) =
      e.afterWrites (later ++ .flags f :: .base b :: earlier)) ∧
    ∀ b f, e.afterWrites [.flags f, .base b, .clear] = make b f ∧ e.afterWrites [.base b, .flags f, .clear] = make b f := by
  intro b f
  have hmake : e.afterWrites past = make b f := e.afterWrites_eq h
  have hflags : (e.afterWrites past).flags = f := hmake ▸ flags_make b f
  refine ⟨⟨congrArg raw hmake, e.base_afterWrites past, hflags⟩, ⟨?_, ?_, ?_, ?_⟩, ?_, ?_⟩
  · rw [Present, hflags]
  · rw [Huge, hflags]
  · rw [Demand, hflags]
  · rw [hmake]
    exact unused_make b f
  · intro b f later earlier
    rw [afterWrites_append, afterWrites_append]
    refine congrArg (afterWrites · later) ?_
    exact (setBase_setFlags (e.afterWrites earlier) b f).trans (setFlags_setBase (e.afterWrites earlier) b f).symm
  · exact fun b f => ⟨setFlags_setBase _ b f, setBase_setFlags _ b f⟩

/-- A word with all bits set keeps those without a meaning when its base is set, and loses them with the flags. -/
theorem base_and_flags_independent_all_ones :
    let e : Entry := ⟨0xFFFFFFFFFFFFFFFF⟩
    let f : Flags := .present ∪ .demand
    let past : List Write := [.flags f, .base ⟨0xFFF0000012345FFF⟩]
    e.setBase ⟨0xFFF0000012345FFF⟩ = ⟨0xFFF0000012345FFF⟩ ∧ (∃ f, .flags f ∈ past) ∧
    (e.afterWrites past).raw = 0x12345201 ∧ (e.afterWrites past).base = ⟨0x12345000⟩ ∧ (e.afterWrites past).Present ∧
    ¬ (e.afterWrites past).Huge ∧ ¬ (e.afterWrites past).Unused := by
  intro e f past
  have hpast : ∃ f, .flags f ∈ past := ⟨f, List.mem_cons_self ..⟩
  obtain ⟨⟨hraw, hbase, -⟩, ⟨hpresent, hhuge, -, hunused⟩, -, -⟩ := base_and_flags_independent e (.inr hpast)
  refine ⟨by decide, hpast, hraw.trans (by decide), hbase.trans (by decide), hpresent.mpr (by decide), ?_, ?_⟩
  · exact fun h => absurd (hhuge.mp h) (by decide)
  · exact fun h => absurd (hunused.mp h) (by decide)

end Nucleus.Paging.Entry
