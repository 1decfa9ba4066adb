import Mathlib.Algebra.Group.Nat.Defs
import Mathlib.Tactic.Common
import Nucleus.Memory.FrameList

/-!
Operations on memory that end: `Ends m s Q` says that `m` has an answer from `s` on, so no fault stops it,
and that `Q` holds of the answer and of the store left behind. The rules below take an operation apart along
its text.
-/

namespace Nucleus.Memory

variable {α β : Type}

/-- `m` ends without a fault when it starts in `s`, and `Q` holds of its answer and of the store it leaves. -/
def Ends (m : StoreM α) (s : Store) (Q : α → Store → Prop) : Prop := ∃ a s', m s = .ok a s' ∧ Q a s'

/-- Where two operations in a row have an answer, the first one has. -/
lemma of_bind_eq_ok {ε σ : Type} {m : EStateM ε σ α} {f : α → EStateM ε σ β} {s t : σ} {b : β}
    (h : EStateM.bind m f s = .ok b t) : ∃ a s', m s = .ok a s' ∧ f a s' = .ok b t := by
  unfold EStateM.bind at h
  split at h
  · next a s' hm => exact ⟨a, s', hm, h⟩
  · cases h

section Rules

variable {m : StoreM α} {f : α → StoreM β} {s : Store} {P : α → Store → Prop} {Q : β → Store → Prop}

lemma Ends.mono {P' : α → Store → Prop} (h : Ends m s P) (k : ∀ a s', P a s' → P' a s') : Ends m s P' := by
  obtain ⟨a, s', hm, hP⟩ := h
  exact ⟨a, s', hm, k a s' hP⟩

lemma ends_pure {a : α} (h : P a s) : Ends (pure a) s P := ⟨a, s, rfl, h⟩

lemma bind_of_ok {a : α} {s' : Store} (h : m s = .ok a s') : (m >>= f) s = f a s' := by
  show EStateM.bind m f s = _
  rw [EStateM.bind, h]

lemma Ends.bind (h : Ends m s P) (k : ∀ a s', P a s' → Ends (f a) s' Q) : Ends (m >>= f) s Q := by
  obtain ⟨a, s', hm, hP⟩ := h
  obtain ⟨b, t, hf, hQ⟩ := k a s' hP
  exact ⟨b, t, (bind_of_ok hm).trans hf, hQ⟩

lemma ends_bind_of_ok {a : α} {s' : Store} (h : m s = .ok a s') : Ends (m >>= f) s Q ↔ Ends (f a) s' Q := by
  unfold Ends
  rw [bind_of_ok h]

lemma ends_check_bind {c : Checked α} {a : α} (h : c = .ok a) :
    Ends (Store.check c >>= f) s Q ↔ Ends (f a) s Q := ends_bind_of_ok (by rw [h]; rfl)

lemma ends_get_bind {f : Store → StoreM β} : Ends (get >>= f) s Q ↔ Ends (f s) s Q := Iff.rfl

lemma ends_modify_bind {g : Store → Store} {f : PUnit → StoreM β} :
    Ends (modify g >>= f) s Q ↔ Ends (f ⟨⟩) (g s) Q := Iff.rfl

lemma ends_modify {g : Store → Store} {P : PUnit → Store → Prop} (h : P ⟨⟩ (g s)) : Ends (modify g) s P :=
  ⟨⟨⟩, g s, rfl, h⟩

lemma Ends.and {P' : α → Store → Prop} (h : Ends m s P) (h' : Ends m s P') :
    Ends m s fun a s' => P a s' ∧ P' a s' := by
  obtain ⟨a, s', hm, hP⟩ := h
  obtain ⟨b, t, hm', hP'⟩ := h'
  rw [hm] at hm'
  cases hm'
  exact ⟨a, s', hm, hP, hP'⟩

/-- An operation that ends has no other answer than the one it ends with. -/
lemma Ends.elim (h : Ends m s P) {a : α} {s' : Store} (hm : m s = .ok a s') : P a s' := by
  obtain ⟨b, t, hb, hP⟩ := h
  rw [hm] at hb
  cases hb
  exact hP

lemma run'_of_ok {a : α} {s' : Store} (h : m s = .ok a s') : m.run' s = some a := by
  unfold EStateM.run' EStateM.run
  rw [h]

lemma eq_ok_of_run' {a : α} (h : m.run' s = some a) : ∃ s', m s = .ok a s' := by
  unfold EStateM.run' EStateM.run at h
  split at h
  · next hm =>
    cases h
    exact ⟨_, hm⟩
  · cases h

end Rules

/-! ### Events -/

/-- The addresses whose cached mappings were dropped so far, in order. -/
def Store.dropped (s : Store) : List VirtAddr := s.events.toList.filterMap Event.invalidation?

lemma Store.dropped_push (s : Store) (e : Event) :
    { s with events := s.events.push e }.dropped = s.dropped ++ e.invalidation?.toList := by
  unfold dropped
  rw [Array.toList_push, List.filterMap_append]
  cases h : e.invalidation? <;> simp [h]

end Nucleus.Memory
