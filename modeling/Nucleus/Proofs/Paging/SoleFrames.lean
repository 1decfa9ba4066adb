import Nucleus.Proofs.Paging.Still

/-!
Frames behind pages. Each page that nobody installed has a frame of its own, which is neither free nor a table. What
changes no such entry keeps this, and so does writing one whose frame nobody else has.
-/

namespace Nucleus.Paging

open Memory Relation

/-- **Each page that is not `installed` has a frame of its own.** -/
structure SoleFrames (installed : Nat → Prop) (V : View) : Prop where
  plain : Plain V
  loose : ∀ n, ¬ installed n → (⟨V.word 0 n⟩ : Entry).Present → V.Loose (⟨V.word 0 n⟩ : Entry).base
  apart : ∀ {m n}, ¬ installed m → ¬ installed n → (⟨V.word 0 m⟩ : Entry).Present → (⟨V.word 0 n⟩ : Entry).Present →
    (⟨V.word 0 m⟩ : Entry).base = (⟨V.word 0 n⟩ : Entry).base → m = n

lemma View.pages_setWord (V : View) (v : VirtAddr) (w : UInt64) (n : Nat) :
    (V.setWord 0 (index 0 v) w).word 0 n = if n = index 0 v then w else V.word 0 n := V.pages_put v w n

namespace SoleFrames

variable {installed installed' : Nat → Prop} {V V' : View} {v : VirtAddr}

lemma zeroed {s : Store} {root : PhysAddr} {fs : List PhysAddr} (hz : TableEmpty s.ram root) :
    SoleFrames installed (.of s root fs) := by
  have hword : ∀ n, (View.of s root fs).word 0 n = 0 := wordAt_of_zeroed hz (Nat.zero_le _)
  refine ⟨.zeroed hz, fun n _ hp => ?_, fun {m n} _ _ hm => ?_⟩
  · exact absurd (hword n) (Entry.ne_zero_of_present hp)
  · exact absurd (hword m) (Entry.ne_zero_of_present hm)

/-- Where each page that has a frame and is not installed is as it was before, its frame is its own still. -/
lemma keep (h : SoleFrames installed V) (hp : Plain V')
    (hkeep : ∀ n, ¬ installed' n → (⟨V'.word 0 n⟩ : Entry).Present → ¬ installed n ∧ V'.word 0 n = V.word 0 n ∧
      (V.Loose (⟨V.word 0 n⟩ : Entry).base → V'.Loose (⟨V.word 0 n⟩ : Entry).base)) : SoleFrames installed' V' := by
  refine ⟨hp, fun n hi hpr => ?_, fun {m n} hm hn hpm hpn hb => ?_⟩
  · obtain ⟨hi', hsame, hl⟩ := hkeep n hi hpr
    rw [hsame] at hpr ⊢
    exact hl (h.loose n hi' hpr)
  · obtain ⟨hm', hsame, -⟩ := hkeep m hm hpm
    obtain ⟨hn', hsame', -⟩ := hkeep n hn hpn
    rw [hsame] at hpm hb
    rw [hsame'] at hpn hb
    exact h.apart hm' hn' hpm hpn hb

/-! ### Tables and frames -/

lemma keepsPages (h : SoleFrames installed V) (hk : KeepsPages V V') (hp : Plain V')
    (hl : ∀ f, V.Loose f → V'.Loose f) : SoleFrames installed V' :=
  h.keep hp fun n hi _ => ⟨hi, congrFun hk.pages n, hl _⟩

lemma grows (h : SoleFrames installed V) (st : Grows v V V') : SoleFrames installed V' := by
  induction st with
  | refl => exact h
  | tail _ st ih => exact ih.keepsPages st.keepsPages (ih.plain.links st) fun _ hf => hf.links st

lemma shrinks (h : SoleFrames installed V) (st : Shrinks v V V') : SoleFrames installed V' := by
  induction st with
  | refl => exact h
  | tail _ st ih => exact ih.keepsPages st.keepsPages (ih.plain.unlinks st) fun _ hf => hf.unlinks st

lemma take (h : SoleFrames installed V) {f : PhysAddr} {fs : List PhysAddr} (hf : V.free = f :: fs) :
    SoleFrames installed { V with free := fs } :=
  h.keepsPages ⟨rfl, rfl, rfl, rfl⟩ h.plain fun _ hg => hg.take hf

lemma give (h : SoleFrames installed V) {f : PhysAddr}
    (hf : ∀ n, ¬ installed n → (⟨V.word 0 n⟩ : Entry).Present → (⟨V.word 0 n⟩ : Entry).base ≠ f) :
    SoleFrames installed { V with free := f :: V.free } := by
  refine { h with loose := fun n hi hp => ?_ }
  obtain ⟨hframe, hfree, htable⟩ := h.loose n hi hp
  exact ⟨hframe, fun hm => (List.mem_cons.mp hm).elim (hf n hi hp) hfree, htable⟩

/-! ### Entries of pages -/

/-- Writing the entry of a page. If it gets a frame and is not installed, no other page has this frame. -/
lemma put (h : SoleFrames installed V) (w : UInt64) (hi : ∀ n, n ≠ index 0 v → ¬ installed' n → ¬ installed n)
    (hown : ¬ installed' (index 0 v) → (⟨w⟩ : Entry).Present → V.Loose (⟨w⟩ : Entry).base ∧
      ∀ n, ¬ installed n → (⟨V.word 0 n⟩ : Entry).Present → (⟨V.word 0 n⟩ : Entry).base ≠ (⟨w⟩ : Entry).base) :
    SoleFrames installed' (V.put v w) := by
  refine ⟨h.plain.put v w, fun n hin hp => ?_, fun {m n} hm hn hpm hpn hb => ?_⟩
  · rw [V.pages_put] at hp ⊢
    by_cases hnv : n = index 0 v
    · rw [if_pos hnv] at hp ⊢
      exact (hown (hnv ▸ hin) hp).1.put v w
    · rw [if_neg hnv] at hp ⊢
      exact (h.loose n (hi n hnv hin) hp).put v w
  · rw [V.pages_put] at hpm hpn hb
    rw [V.pages_put] at hb
    by_cases hmv : m = index 0 v <;> by_cases hnv : n = index 0 v
    · rw [hmv, hnv]
    · rw [if_pos hmv] at hpm hb
      rw [if_neg hnv] at hpn hb
      exact absurd hb.symm ((hown (hmv ▸ hm) hpm).2 n (hi n hnv hn) hpn)
    · rw [if_neg hmv] at hpm hb
      rw [if_pos hnv] at hpn hb
      exact absurd hb ((hown (hnv ▸ hn) hpn).2 m (hi m hmv hm) hpm)
    · rw [if_neg hmv] at hpm hb
      rw [if_neg hnv] at hpn hb
      exact h.apart (hi m hmv hm) (hi n hnv hn) hpm hpn hb

lemma putAbsent (h : SoleFrames installed V) {w : UInt64} (hw : ¬ (⟨w⟩ : Entry).Present)
    (hi : ∀ n, n ≠ index 0 v → ¬ installed' n → ¬ installed n) : SoleFrames installed' (V.put v w) :=
  h.put w hi fun _ hp => absurd hp hw

/-- Releasing a page gives back its frame, which has to be its own. -/
lemma releasePage (h : SoleFrames installed V) (hi : (V.entry v).Present → ¬ installed (index 0 v)) :
    SoleFrames installed (V.releasePage v) := by
  have hput : SoleFrames installed (V.put v 0) := h.putAbsent Entry.not_present_zero fun _ _ => id
  unfold View.releasePage
  by_cases hp : (V.entry v).Present
  · rw [if_pos hp]
    refine hput.give fun n hin hpn hb => ?_
    rw [V.pages_put] at hpn hb
    by_cases hnv : n = index 0 v
    · rw [if_pos hnv] at hpn
      exact Entry.not_present_zero hpn
    · rw [if_neg hnv] at hpn hb
      exact hnv (h.apart hin (hi hp) hpn hp hb)
  · rw [if_neg hp]
    exact hput

lemma backPage (h : SoleFrames installed V) {f : PhysAddr} {fs : List PhysAddr} (hf : V.free = f :: fs)
    (hloose : View.Loose { V with free := fs } f) {w : UInt64} (hw : (⟨w⟩ : Entry).base = f) :
    SoleFrames installed ({ V with free := fs }.put v w) := by
  refine (h.take hf).put w (fun _ _ => id) fun _ _ => ⟨hw.symm ▸ hloose, fun n hi hp he => ?_⟩
  refine (h.loose n hi hp).not_free ?_
  rw [show (⟨V.word 0 n⟩ : Entry).base = f from he.trans hw, hf]
  exact List.mem_cons_self ..

end SoleFrames

end Nucleus.Paging
