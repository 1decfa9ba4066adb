import Mathlib.Data.Set.Insert
import Nucleus.Proofs.Paging.Script
import Nucleus.Proofs.Paging.View

/-!
Cached translations. The processor can cache what the page tables say about a page at any moment, and keeps it until
an address in the page is invalidated. A script is coherent if each page whose translation it takes away is
invalidated before it ends; then no cached translation is out of date after it. Making tables, giving them back and
moving frames leave all translations alone at every moment.
-/

namespace Nucleus.Paging

open Memory

variable {α β : Type}

/-! ### Caches -/

/-- A page of virtual addresses and the physical page it is translated to, by their numbers. -/
structure Translation where
  page : Nat
  frame : Nat

/-- The page is one of the addresses below 2^47, and it is translated in this way. -/
structure Agrees (s : Store) (root : PhysAddr) (p : Translation) : Prop where
  low : p.page < 2 ^ 35
  translated : ∀ v : VirtAddr, v.page = p.page →
    translate s root v = some (.ofNat (p.frame * pageSize + v.toNat % pageSize))

/-- Translation depends on the tables and on what is reachable. -/
lemma translate_congr (s t : Store) (hm : t.frames.mapped = s.frames.mapped) (hr : t.ram = s.ram) (root : PhysAddr)
    (v : VirtAddr) : translate t root v = translate s root v := by
  have hentry : ∀ table l, entryIn? t table l v = entryIn? s table l v := by
    intro table l
    by_cases htable : table ∈ s.frames.mapped
    · rw [entryIn?_of_mem (hm ▸ htable), entryIn?_of_mem htable, hr]
    · rw [entryIn?_of_not_mem (hm ▸ htable), entryIn?_of_not_mem htable]
  have hfrom : ∀ l table, translateFrom t v l table = translateFrom s v l table := by
    intro l
    induction l with
    | zero =>
      intro table
      rw [translateFrom, translateFrom, hentry]
    | succ l ih =>
      intro table
      rw [translateFrom, translateFrom, hentry]
      simp only [ih]
  exact hfrom Level.root root

lemma agrees_emit {s : Store} {e : Event} {root : PhysAddr} {p : Translation} (h : Agrees s root p) :
    Agrees { s with events := s.events.push e } root p :=
  ⟨h.low, fun v hv => (translate_congr s { s with events := s.events.push e } rfl rfl root v).trans (h.translated v hv)⟩

lemma Agrees.congr {s t : Store} {root : PhysAddr} {p : Translation} (h : Agrees s root p)
    (ht : ∀ v : VirtAddr, v.page = p.page → translate t root v = translate s root v) : Agrees t root p :=
  ⟨h.low, fun v hv => (ht v hv).trans (h.translated v hv)⟩

/-- The step invalidates an address in the page with this number. -/
def Drops (d : Step) (n : Nat) : Prop := ∃ v : VirtAddr, d = .report (.invalidated v) ∧ v.page = n

/-- **A script runs while translations are cached**: at any moment one can be cached that agrees with the tables, and
a step loses those of the page that it invalidates. -/
inductive RunsCached (root : PhysAddr) :
    Script α → Store → Set Translation → α → Store → Set Translation → Prop where
  | gain {m : Script α} {s s' : Store} {C C' : Set Translation} {a : α} {p : Translation} (agrees : Agrees s root p)
      (rest : RunsCached root m s (insert p C) a s' C') : RunsCached root m s C a s' C'
  | done {a : α} {s : Store} {C : Set Translation} : RunsCached root (.done a) s C a s C
  | look {k : Store → Script α} {s s' : Store} {C C' : Set Translation} {a : α}
      (rest : RunsCached root (k s) s C a s' C') : RunsCached root (.look k) s C a s' C'
  | take {d : Step} {k : Script α} {s s' : Store} {C C' : Set Translation} {a : α}
      (rest : RunsCached root k (d.apply s) {p ∈ C | ¬ Drops d p.page} a s' C') :
      RunsCached root (.take d k) s C a s' C'

/-- The pages whose translation is not the same any more. -/
def Lost (root : PhysAddr) (s t : Store) : Set Nat := {n | ∃ f, Agrees s root ⟨n, f⟩ ∧ ¬ Agrees t root ⟨n, f⟩}

/-- **The script invalidates all pages that become stale** before it ends, where `stale` are those that are stale when
it starts. -/
def Coherent (root : PhysAddr) : Script α → Set Nat → Store → Prop
  | .done _, stale, _ | .stop _, stale, _ => stale = ∅
  | .look k, stale, s => Coherent root (k s) stale s
  | .take d k, stale, s => Coherent root k {n | n ∈ stale ∪ Lost root s (d.apply s) ∧ ¬ Drops d n} (d.apply s)

section Coherence

variable {root : PhysAddr} {m : Script α} {f : α → Script β} {s s' : Store} {a : α} {stale : Set Nat}
  {C C' : Set Translation}

lemma RunsCached.run_eq (h : RunsCached root m s C a s' C') : m.run s = .ok a s' := by
  induction h with
  | gain _ _ ih => exact ih
  | done => rfl
  | look _ ih => exact ih
  | take _ ih => exact ih

lemma RunsCached.of_run (h : m.run s = .ok a s') (C : Set Translation) : ∃ C', RunsCached root m s C a s' C' := by
  induction m generalizing s C with
  | done b =>
    cases h
    exact ⟨C, .done⟩
  | stop e => cases h
  | look k ih =>
    obtain ⟨C', hr⟩ := ih s h C
    exact ⟨C', .look hr⟩
  | take d k ih =>
    obtain ⟨C', hr⟩ := ih h _
    exact ⟨C', .take hr⟩

/-- What the tables say in the end can be cached then. -/
lemma RunsCached.gain_last (h : RunsCached root m s C a s' C') {p : Translation} (hp : Agrees s' root p) :
    RunsCached root m s C a s' (insert p C') := by
  induction h with
  | gain agrees _ ih => exact .gain agrees (ih hp)
  | done => exact .gain hp .done
  | look _ ih => exact .look (ih hp)
  | take _ ih => exact .take (ih hp)

/-- **A coherent script leaves no stale translation in the cache.** -/
lemma RunsCached.agrees (h : RunsCached root m s C a s' C') (hm : Coherent root m stale s)
    (hC : ∀ p ∈ C, p.page ∈ stale ∨ Agrees s root p) : ∀ p ∈ C', Agrees s' root p := by
  induction h generalizing stale with
  | gain agrees _ ih =>
    refine ih hm fun q hq => ?_
    rcases Set.mem_insert_iff.mp hq with rfl | hq
    · exact .inr agrees
    · exact hC q hq
  | done =>
    have hempty : stale = ∅ := hm
    intro p hp
    simpa [hempty] using hC p hp
  | look _ ih => exact ih hm hC
  | @take d k s _ _ _ _ _ ih =>
    refine ih hm ?_
    rintro p ⟨hp, hd⟩
    by_cases hkept : Agrees (d.apply s) root p
    · exact .inr hkept
    · exact .inl ⟨(hC p hp).imp_right fun hs => ⟨p.frame, hs, hkept⟩, hd⟩

lemma Coherent.anti (h : Coherent root m stale s) {stale' : Set Nat} (hs : stale' ⊆ stale) :
    Coherent root m stale' s := by
  induction m generalizing stale stale' s with
  | done | stop => exact Set.subset_eq_empty hs h
  | look k ih => exact ih s h hs
  | take d k ih => exact ih h fun n hn => ⟨hn.1.imp_left (hs ·), hn.2⟩

lemma Coherent.bind (h : Coherent root m stale s) (hf : ∀ a s', m.run s = .ok a s' → Coherent root (f a) ∅ s') :
    Coherent root (m >>= f) stale s := by
  induction m generalizing stale s with
  | done a =>
    have hempty : stale = ∅ := h
    rw [hempty]
    exact hf a s rfl
  | stop e => exact h
  | look k ih => exact ih s h hf
  | take d k ih => exact ih h hf

/-- The script ends with `Q`, leaves no stale translation in a cache, and `G` holds at each of its moments. -/
structure Clean (root : PhysAddr) (G : Store → Prop) (m : Script α) (s : Store) (Q : α → Store → Prop) : Prop where
  ends : Ends m.run s Q
  coherent : Coherent root m ∅ s
  always : m.Always G s

section Rules

variable {G : Store → Prop} {P Q : α → Store → Prop} {R : β → Store → Prop}

lemma Clean.mono (h : Clean root G m s P) (k : ∀ a s', P a s' → Q a s') : Clean root G m s Q :=
  ⟨h.ends.mono k, h.coherent, h.always⟩

lemma clean_pure (hG : G s) (h : P a s) : Clean root G (pure a) s P := ⟨ends_pure h, rfl, hG⟩

lemma Clean.bind (h : Clean root G m s P) (k : ∀ a s', P a s' → Clean root G (f a) s' R) :
    Clean root G (m >>= f) s R := by
  refine ⟨?_, h.coherent.bind fun a s' hm => (k a s' (h.ends.elim hm)).coherent,
    h.always.bind h.ends fun a s' hP => (k a s' hP).always⟩
  rw [Script.run_bind]
  exact h.ends.bind fun a s' hP => (k a s' hP).ends

lemma clean_get_bind {f : Store → Script β} : Clean root G (Script.get >>= f) s R ↔ Clean root G (f s) s R :=
  ⟨fun h => ⟨h.ends, h.coherent, h.always⟩, fun h => ⟨h.ends, h.coherent, h.always⟩⟩

lemma clean_check_bind {c : Checked α} (h : c = .ok a) :
    Clean root G (Script.check c >>= f) s R ↔ Clean root G (f a) s R := by
  rw [h]
  rfl

lemma lost_emit (e : Event) : Lost root s { s with events := s.events.push e } = ∅ :=
  Set.eq_empty_of_forall_notMem fun _ ⟨_, hf, hlost⟩ => hlost (agrees_emit hf)

lemma Clean.emit (hG : G s) {e : Event} {f : Unit → Script β}
    (h : Clean root G (f ()) { s with events := s.events.push e } R) : Clean root G (Script.emit e >>= f) s R := by
  refine ⟨h.ends, h.coherent.anti ?_, hG, h.always⟩
  rintro n ⟨hn | hn, -⟩
  · exact hn
  · exact (lost_emit e).subset hn

end Rules

end Coherence

end Nucleus.Paging
