import Nucleus.Proofs.Paging.Owner
import Nucleus.Proofs.Paging.SoleFrames

/-!
Frames behind pages during a call. Each page that nobody installed has a frame of its own, and as long as such a page
keeps its entry, the allocator does not have this frame; once the frame was given back, the page was invalidated.
-/

namespace Nucleus.Paging

open Memory Relation

/-- What a call starts from: the tables, and the numbers of the pages that somebody mapped. -/
structure Origin where
  view : View
  installed : Nat → Prop

/-- The allocator has the frame of a page that nobody installed only if the page was invalidated since the start. -/
def Origin.Guard (O : Origin) (t : Store) : Prop :=
  ∃ ds, t.dropped = O.view.dropped ++ ds ∧ ∀ n, ¬ O.installed n → (⟨O.view.word 0 n⟩ : Entry).Present →
    t.InStock (⟨O.view.word 0 n⟩ : Entry).base → ∃ w ∈ ds, w.page = n

/-- **Each page that is not `installed` has a frame of its own**, and `unused` pages have no entry. A page that had a
frame at the start has it still, or was invalidated. -/
structure OwnFrames (O : Origin) (installed unused : Nat → Prop) (V : View) : Prop
    extends SoleFrames installed V where
  root : V.root = O.view.root
  fresh : ∀ n, unused n → V.word 0 n = 0
  since : ∃ ds, V.dropped = O.view.dropped ++ ds ∧ ∀ n, ¬ O.installed n → (⟨O.view.word 0 n⟩ : Entry).Present →
    (V.word 0 n = O.view.word 0 n ∧ ¬ installed n) ∨ ∃ w ∈ ds, w.page = n

namespace OwnFrames

variable {O : Origin} {installed unused : Nat → Prop} {V V' : View} {v : VirtAddr}

lemma guard (h : OwnFrames O installed unused V) : ∀ t, Guarded V t → O.Guard t := by
  intro t ht
  obtain ⟨ds, hd, hsince⟩ := h.since
  refine ⟨ds, ht.dropped.trans hd, fun n hi hp hstock => (hsince n hi hp).resolve_left ?_⟩
  rintro ⟨hsame, hin⟩
  rw [← hsame] at hp hstock
  exact ht.stock _ hstock (h.loose n hin hp)

lemma restart (h : OwnFrames O installed unused V) : OwnFrames ⟨V, installed⟩ installed unused V :=
  { h with root := rfl, since := ⟨[], (List.append_nil _).symm, fun _ hi _ => .inl ⟨rfl, hi⟩⟩ }

lemma mono (h : OwnFrames O installed unused V) {unused' : Nat → Prop} (hu : ∀ n, unused' n → unused n) :
    OwnFrames O installed unused' V := { h with fresh := fun n hn => h.fresh n (hu n hn) }

lemma forget (h : OwnFrames O installed unused V) {m : Nat} (hz : V.word 0 m = 0) :
    OwnFrames O (fun n => installed n ∧ n ≠ m) unused V := by
  have hout : ∀ {n}, ¬ (installed n ∧ n ≠ m) → (⟨V.word 0 n⟩ : Entry).Present → ¬ installed n := by
    rintro n hn hp hi
    refine hn ⟨hi, ?_⟩
    rintro rfl
    exact Entry.ne_zero_of_present hp hz
  refine { h with toSoleFrames := ?_, since := ?_ }
  · exact h.toSoleFrames.keep h.plain fun n hn hp => ⟨hout hn hp, rfl, id⟩
  · obtain ⟨ds, hd, hsince⟩ := h.since
    refine ⟨ds, hd, fun n hi hp => (hsince n hi hp).imp_left ?_⟩
    exact fun hs => ⟨hs.1, fun hc => hs.2 hc.1⟩

lemma zeroed {s : Store} {root : PhysAddr} {fs : List PhysAddr} (hz : TableEmpty s.ram root) :
    OwnFrames ⟨.of s root fs, installed⟩ installed unused (.of s root fs) := by
  refine ⟨.zeroed hz, rfl, fun n _ => wordAt_of_zeroed hz (Nat.zero_le _) n, ?_⟩
  exact ⟨[], (List.append_nil _).symm, fun _ hi _ => .inl ⟨rfl, hi⟩⟩

/-! ### Tables -/

/-- What changes no entry that is present, neither before nor after, and takes no frame from a page. -/
lemma congr (h : OwnFrames O installed unused V) (hr : V'.root = V.root) (hd : V'.dropped = V.dropped)
    (hp : Plain V') (hl : ∀ f, V.Loose f → V'.Loose f)
    (hpage : ∀ n, V'.word 0 n = V.word 0 n ∨ ¬ (⟨V.word 0 n⟩ : Entry).Present ∧ ¬ (⟨V'.word 0 n⟩ : Entry).Present)
    {unused' : Nat → Prop} (hu : ∀ n, unused' n → V'.word 0 n = 0) : OwnFrames O installed unused' V' := by
  have hnew : ∀ n, (⟨V'.word 0 n⟩ : Entry).Present → V'.word 0 n = V.word 0 n :=
    fun n hpr => (hpage n).resolve_right fun hn => hn.2 hpr
  have hold : ∀ n, (⟨V.word 0 n⟩ : Entry).Present → V'.word 0 n = V.word 0 n :=
    fun n hpr => (hpage n).resolve_right fun hn => hn.1 hpr
  refine ⟨?_, hr.trans h.root, hu, ?_⟩
  · exact h.toSoleFrames.keep hp fun n hi hpr => ⟨hi, hnew n hpr, hl _⟩
  · obtain ⟨ds, hds, hsince⟩ := h.since
    refine ⟨ds, hd.trans hds, fun n hio hpr => (hsince n hio hpr).imp_left ?_⟩
    rintro ⟨hsame, hin⟩
    exact ⟨(hold n (hsame ▸ hpr)).trans hsame, hin⟩

lemma keepsPages (h : OwnFrames O installed unused V) (hk : KeepsPages V V') (hp : Plain V')
    (hl : ∀ f, V.Loose f → V'.Loose f) : OwnFrames O installed unused V' :=
  h.congr hk.root hk.dropped hp hl (fun n => .inl (congrFun hk.pages n)) fun n hn =>
    (congrFun hk.pages n).trans (h.fresh n hn)

lemma grows (h : OwnFrames O installed unused V) (st : Grows v V V') : OwnFrames O installed unused V' := by
  induction st with
  | refl => exact h
  | tail _ st ih => exact ih.keepsPages st.keepsPages (ih.plain.links st) fun _ hf => hf.links st

lemma shrinks (h : OwnFrames O installed unused V) (st : Shrinks v V V') : OwnFrames O installed unused V' := by
  induction st with
  | refl => exact h
  | tail _ st ih => exact ih.keepsPages st.keepsPages (ih.plain.unlinks st) fun _ hf => hf.unlinks st

/-! ### Frames -/

lemma take (h : OwnFrames O installed unused V) {f : PhysAddr} {fs : List PhysAddr} (hf : V.free = f :: fs) :
    OwnFrames O installed unused { V with free := fs } :=
  h.keepsPages ⟨rfl, rfl, rfl, rfl⟩ h.plain fun _ hg => hg.take hf

/-! ### Entries of pages -/

/-- Writing the entry of a page that is invalidated then. If it gets a frame and is not installed, no other page has
this frame. -/
lemma put (h : OwnFrames O installed unused V) (hv : v.toNat < 2 ^ 47) (w : UInt64) {installed' unused' : Nat → Prop}
    (hi : ∀ n, n ≠ index 0 v → (installed' n ↔ installed n))
    (hown : ¬ installed' (index 0 v) → (⟨w⟩ : Entry).Present → V.Loose (⟨w⟩ : Entry).base ∧
      ∀ n, ¬ installed n → (⟨V.word 0 n⟩ : Entry).Present → (⟨V.word 0 n⟩ : Entry).base ≠ (⟨w⟩ : Entry).base)
    (hu : ∀ n, unused' n → (n = index 0 v ∧ w = 0) ∨ (n ≠ index 0 v ∧ unused n)) :
    OwnFrames O installed' unused' (V.put v w) := by
  have hsole := h.toSoleFrames.put w (fun n hnv hin hc => hin ((hi n hnv).mpr hc)) hown
  refine ⟨hsole, h.root, fun n hn => ?_, ?_⟩
  · rw [V.pages_put]
    rcases hu n hn with ⟨rfl, rfl⟩ | ⟨hne, hun⟩
    · rw [if_pos rfl]
    · rw [if_neg hne, h.fresh n hun]
  · obtain ⟨ds, hd, hsince⟩ := h.since
    refine ⟨ds ++ [v], ?_, fun n hio hp => ?_⟩
    · show V.dropped ++ [v] = _
      rw [hd, List.append_assoc]
    · by_cases hnv : n = index 0 v
      · exact .inr ⟨v, by simp, (index_zero_of_lt hv).symm.trans hnv.symm⟩
      · rcases hsince n hio hp with ⟨hsame, hin⟩ | ⟨u, hm, hun⟩
        · refine .inl ⟨?_, fun hc => hin ((hi n hnv).mp hc)⟩
          rw [V.pages_put, if_neg hnv, hsame]
        · exact .inr ⟨u, List.mem_append_left _ hm, hun⟩

lemma clear (h : OwnFrames O installed unused V) (hv : v.toNat < 2 ^ 47) {installed' : Nat → Prop}
    (hi : ∀ n, n ≠ index 0 v → (installed' n ↔ installed n)) :
    OwnFrames O installed' (fun n => unused n ∨ n = index 0 v) (V.put v 0) := by
  refine h.put hv 0 hi (fun _ hp => absurd hp Entry.not_present_zero) fun n hn => ?_
  by_cases hnv : n = index 0 v
  · exact .inl ⟨hnv, rfl⟩
  · exact .inr ⟨hnv, hn.resolve_right hnv⟩

lemma install (h : OwnFrames O installed unused V) (hv : v.toNat < 2 ^ 47) (hu : ¬ unused (index 0 v)) (w : UInt64) :
    OwnFrames O (fun n => installed n ∨ n = index 0 v) unused (V.put v w) := by
  refine h.put hv w (fun n hn => or_iff_left hn) (fun hi => absurd (.inr rfl) hi) fun n hn => .inr ⟨?_, hn⟩
  rintro rfl
  exact hu hn

lemma mark (h : OwnFrames O installed unused V) (hv : unused (index 0 v)) :
    OwnFrames O installed (fun n => unused n ∧ n ≠ index 0 v) (V.setWord 0 (index 0 v) pendingEntry.raw) := by
  have hroot : (V.setWord 0 (index 0 v) pendingEntry.raw).root = V.root := rfl
  have hplain : Plain (V.setWord 0 (index 0 v) pendingEntry.raw) := h.plain.put v pendingEntry.raw
  refine h.congr hroot rfl hplain (fun f hf => hf.setWord_zero v _) (fun n => ?_) fun n hn => ?_
  · rw [V.pages_setWord]
    by_cases hn : n = index 0 v
    · subst hn
      rw [if_pos rfl, h.fresh _ hv]
      exact .inr ⟨Entry.not_present_zero, by decide⟩
    · exact .inl (if_neg hn)
  · rw [V.pages_setWord, if_neg hn.2, h.fresh n hn.1]

/-- Releasing a page gives back its frame after it was invalidated. -/
lemma releasePage (h : OwnFrames O installed unused V) (hv : v.toNat < 2 ^ 47) (hi : ¬ installed (index 0 v)) :
    OwnFrames O installed (fun n => unused n ∨ n = index 0 v) (V.releasePage v) := by
  have hsole := h.toSoleFrames.releasePage (v := v) fun _ => hi
  have hput := h.clear hv fun _ _ => Iff.rfl
  exact ⟨hsole, hput.root, fun n hn => hput.fresh n hn, hput.since⟩

lemma backPage (h : OwnFrames O installed unused V) {f : PhysAddr} {fs : List PhysAddr} (hf : V.free = f :: fs)
    (hloose : View.Loose { V with free := fs } f) (hv : v.toNat < 2 ^ 47) (hu : ¬ unused (index 0 v)) {w : UInt64}
    (hw : (⟨w⟩ : Entry).base = f) : OwnFrames O installed unused ({ V with free := fs }.put v w) := by
  refine (h.take hf).put hv w (fun _ _ => Iff.rfl) (fun _ _ => ⟨hw.symm ▸ hloose, fun n hi hp he => ?_⟩) fun n hn => ?_
  · refine (h.loose n hi hp).not_free ?_
    rw [show (⟨V.word 0 n⟩ : Entry).base = f from he.trans hw]
    exact View.mem_first hf
  · exact .inr ⟨fun he => hu (he ▸ hn), hn⟩

end OwnFrames

end Nucleus.Paging
