import Nucleus.Proofs.Memory.Script
import Nucleus.Proofs.Memory.Stack

/-!
Which frames get on the free list when frames are freed in any way, also frames that are free already or that were
never handed out. The links may then lead in circles, but each frame that is handed out is cleared first and so ends
the list where it is met again: the list never gets longer than its count, and leads to no frame that it was not given.
A frame that is given is checked by its first byte only, so the page in which the reachable memory ends gets on the
list although it is not reachable as a whole.
-/

namespace Nucleus.Memory

open FrameList

/-! ### Following the links -/

section Links

variable {r r' : Ram} {head f g : PhysAddr} {P : PhysAddr → Prop}

lemma Listed.head_ne_null (h : Listed r head f) : head ≠ .null := by
  cases h with
  | here proper => exact proper
  | next proper => exact proper

/-- What holds of the head and is handed on by the links holds of all frames on the list. -/
lemma Listed.closed (h : Listed r head f) (start : P head) (link : ∀ g, P g → (⟨r.slot g 0⟩ : PhysAddr) ≠ .null →
    P ⟨r.slot g 0⟩) : P f := by
  induction h with
  | here => exact start
  | next _ rest ih => exact ih (link _ start rest.head_ne_null)

lemma Listed.snoc (h : Listed r head g) (hn : (⟨r.slot g 0⟩ : PhysAddr) ≠ .null) : Listed r head ⟨r.slot g 0⟩ := by
  induction h with
  | here proper => exact .next proper (.here hn)
  | next proper _ ih => exact .next proper (ih hn)

lemma Listed.congr (links : ∀ f, Listed r head f → r'.slot f 0 = r.slot f 0) (h : Listed r' head f) :
    Listed r head f := by
  refine h.closed (P := Listed r head) (.here h.head_ne_null) fun g hg hn => ?_
  rw [links g hg] at hn ⊢
  exact hg.snoc hn

/-- Taking the frames off the list that starts with `head`, and clearing each of them, ends after `n` frames. -/
inductive Unwinds : Ram → PhysAddr → Nat → Prop where
  | done {r : Ram} : Unwinds r .null 0
  | take {r : Ram} {head : PhysAddr} {n : Nat} (proper : head ≠ .null) (aligned : head.PageAligned)
      (rest : Unwinds (r.clear head.toNat 512) ⟨r.slot head 0⟩ n) : Unwinds r head (n + 1)

lemma Unwinds.of_ne_null {n : Nat} (h : Unwinds r head n) (hn : head ≠ .null) :
    ∃ k, n = k + 1 ∧ Unwinds (r.clear head.toNat 512) ⟨r.slot head 0⟩ k := by
  cases h with
  | done => exact absurd rfl hn
  | take _ _ rest => exact ⟨_, rfl, rest⟩

/-- What is on the list after its first frame was taken off was there before. -/
lemma Listed.of_clear (hhead : head ≠ .null) (ha : ∀ g, Listed r head g → g.PageAligned)
    (h : Listed (r.clear head.toNat 512) ⟨r.slot head 0⟩ f) : Listed r head f := by
  have hfirst : Listed r head head := .here hhead
  refine h.closed (hfirst.snoc h.head_ne_null) fun g hg hn => ?_
  rw [Ram.slot_clear (ha _ hfirst) (ha g hg) (by decide)] at hn ⊢
  split_ifs at hn ⊢
  · exact absurd rfl hn
  · exact hg.snoc hn

lemma Unwinds.congr {n : Nat} (h : Unwinds r head n) (ha : ∀ f, Listed r head f → f.PageAligned)
    (links : ∀ f, Listed r head f → r'.slot f 0 = r.slot f 0) : Unwinds r' head n := by
  induction h generalizing r' with
  | done => exact .done
  | @take r head n proper aligned rest ih =>
    refine .take proper aligned ?_
    rw [links head (.here proper)]
    refine ih (fun f hf => ha f (hf.of_clear proper ha)) fun f hf => ?_
    have hlisted := hf.of_clear proper ha
    rw [Ram.slot_clear aligned (ha f hlisted) (by decide), Ram.slot_clear aligned (ha f hlisted) (by decide),
      links f hlisted]

/-- A frame that is cleared ends the list where it is met. -/
lemma Unwinds.cut {n : Nat} {u : Ram} (h : Unwinds r head n) (hg : g.PageAligned) (hzero : u.slot g 0 = 0)
    (hsame : ∀ f : PhysAddr, f.PageAligned → f ≠ g → u.slot f 0 = r.slot f 0) : ∃ k ≤ n, Unwinds u head k := by
  induction h generalizing u with
  | done => exact ⟨0, Nat.le_refl 0, .done⟩
  | @take r head n proper aligned rest ih =>
    by_cases hmet : head = g
    · refine ⟨1, Nat.le_add_left 1 n, .take proper aligned ?_⟩
      rw [hmet, hzero]
      exact .done
    · have hclear : ∀ m : Ram, ∀ f : PhysAddr, f.PageAligned →
          (m.clear head.toNat 512).slot f 0 = if head = f then 0 else m.slot f 0 :=
        fun m f hf => Ram.slot_clear aligned hf (by decide)
      obtain ⟨k, hk, hrest⟩ := ih (u := u.clear head.toNat 512) (by rw [hclear _ g hg, if_neg hmet, hzero])
        fun f hf hne => by rw [hclear _ f hf, hclear _ f hf, hsame f hf hne]
      refine ⟨k + 1, Nat.succ_le_succ hk, .take proper aligned ?_⟩
      rwa [hsame head aligned hmet]

end Links

/-! ### What the operations keep -/

/-- The free list of `s` leads to frames in `P` only, and the frames `rest` that are still to be put on it are in `P`
as well; it ends before its count is used up. -/
structure Listing (P : PhysAddr → Prop) (rest : List PhysAddr) (s : Store) : Prop where
  listed : ∀ f, Listed s.ram s.frames.head f → P f
  waits : ∀ f ∈ rest, P f
  proper : ∀ f, P f → IsFrame s.frames.mapped f
  lasts : ∃ n, Unwinds s.ram s.frames.head n ∧ rest.length + n ≤ s.frames.count
  built : s.frames.built = true → s.frames.pending = []

namespace Listing

variable {P : PhysAddr → Prop} {rest : List PhysAddr} {s s' : Store} {f : PhysAddr}

lemma aligned (h : Listing P rest s) : ∀ f, Listed s.ram s.frames.head f → f.PageAligned :=
  fun f hf => (h.proper f (h.listed f hf)).aligned

lemma inStock (h : Listing P s.frames.waiting s) (hf : s.InStock f) : P f := hf.elim (h.waits f) (h.listed f)

lemma of_new {t : RegionTable} {w : Window} {low : PhysAddr} {l : FrameList} (hl : new t w low = .ok l)
    (hs : s.frames = l) : Listing (· ∈ l.waiting) s.frames.waiting s := by
  obtain ⟨hmapped, hhead, hbuilt, hcount, -⟩ := new_eq hl
  subst hs
  refine ⟨fun f hf => absurd hhead hf.head_ne_null, fun f hf => hf, fun f hf => ?_, ⟨0, ?_, ?_⟩, fun hb => ?_⟩
  · have hsupply := isSupply_of_mem hl hf
    refine ⟨hsupply.aligned, hsupply.ne_null, ?_⟩
    rw [hmapped]
    exact ⟨hsupply.start, Nat.lt_of_lt_of_le (Nat.lt_add_of_pos_right (by decide)) hsupply.stop⟩
  · rw [hhead]
    exact .done
  · rw [hcount, Nat.add_zero]
    unfold waiting
    exact Nat.le_of_eq (by rw [List.length_reverse, length_flatMap_framesOf])
  · rw [hbuilt] at hb
    cases hb

lemma write (h : Listing P rest s) {ram : Ram}
    (links : ∀ f, Listed s.ram s.frames.head f → ram.slot f 0 = s.ram.slot f 0) :
    Listing P rest { s with ram := ram } := by
  refine ⟨fun f hf => h.listed f (hf.congr links), h.waits, h.proper, ?_, h.built⟩
  obtain ⟨n, hn, hcount⟩ := h.lasts
  exact ⟨n, hn.congr h.aligned links, hcount⟩

lemma of_stock (h : Listing P s.frames.waiting s) : Listing s.InStock s.frames.waiting s where
  listed _ hf := .inr hf
  waits _ hf := .inl hf
  proper f hf := h.proper f (h.inStock hf)
  lasts := h.lasts
  built := h.built

lemma mono (h : Listing P rest s) {Q : PhysAddr → Prop} (hq : ∀ f, P f → Q f)
    (proper : ∀ f, Q f → IsFrame s.frames.mapped f) : Listing Q rest s where
  listed f hf := hq f (h.listed f hf)
  waits f hf := hq f (h.waits f hf)
  proper := proper
  lasts := h.lasts
  built := h.built

/-- **Putting a frame on the list.** -/
lemma pushed (h : Listing P (f :: rest) s) : Listing P rest (pushed f s) := by
  have hf := h.waits f (List.mem_cons_self ..)
  have hframe := h.proper f hf
  have hslot : ∀ g : PhysAddr, g.PageAligned →
      (Memory.pushed f s).ram.slot g 0 = if f = g then s.frames.head.word else s.ram.slot g 0 := by
    intro g hg
    have := Ram.slot_store (r := s.ram) hframe.aligned hg (i := 0) (j := 0) (by decide) (by decide) s.frames.head.word
    simp only [and_true] at this
    exact this
  refine ⟨fun g hg => ?_, fun g hg => h.waits g (List.mem_cons_of_mem _ hg), h.proper, ?_, h.built⟩
  · -- the links lead from the new frame to the old head, and from there on as before, up to the new frame at most
    have hold : g = f ∨ Listed s.ram s.frames.head g := by
      refine hg.closed (P := fun g => g = f ∨ Listed s.ram s.frames.head g) (.inl rfl) fun k hk hn => .inr ?_
      have hk' : k.PageAligned := hk.elim (fun he => he ▸ hframe.aligned) (h.aligned k)
      rw [hslot k hk'] at hn ⊢
      split_ifs at hn ⊢ with heq
      · exact .here hn
      · exact (hk.resolve_left fun he => heq he.symm).snoc hn
    exact hold.elim (fun he => he ▸ hf) (h.listed g)
  · obtain ⟨n, hn, hcount⟩ := h.lasts
    have hzero : ∀ g : PhysAddr, g.PageAligned →
        ((Memory.pushed f s).ram.clear f.toNat 512).slot g 0 = if f = g then 0 else s.ram.slot g 0 := by
      intro g hg
      rw [Ram.slot_clear hframe.aligned hg (by decide), hslot g hg]
      split_ifs <;> rfl
    obtain ⟨k, hk, hrest⟩ := hn.cut hframe.aligned (u := (Memory.pushed f s).ram.clear f.toNat 512)
      (by rw [hzero f hframe.aligned, if_pos rfl]) fun g hg hne => by rw [hzero g hg, if_neg (Ne.symm hne)]
    refine ⟨k + 1, ?_, ?_⟩
    · show Unwinds (Memory.pushed f s).ram f (k + 1)
      refine .take hframe.ne_null hframe.aligned ?_
      rwa [hslot f hframe.aligned, if_pos rfl]
    · show rest.length + (k + 1) ≤ s.frames.count
      rw [List.length_cons] at hcount
      omega

lemma pushAll_ends (h : Listing P rest s) : Ends (pushAll rest) s fun _ s' => Listing P [] s' ∧
    ∃ head, s'.frames = { s.frames with head := head } := by
  induction rest generalizing s with
  | nil => exact ends_pure ⟨h, s.frames.head, rfl⟩
  | cons f rest ih =>
    have hf := h.proper f (h.waits f (List.mem_cons_self ..))
    exact (ends_bind_of_ok (push_eq hf.mem)).mpr (ih h.pushed)

/-- **Building the list.** -/
lemma build_ends (h : Listing P s.frames.waiting s) : Ends build s fun _ s' => Listing P [] s' ∧
    s'.frames.pending = [] ∧ s'.frames.mapped = s.frames.mapped ∧ s'.frames.count = s.frames.count := by
  show Ends (if s.frames.built = true then _ else _) s _
  by_cases hb : s.frames.built = true
  · rw [if_pos hb]
    refine ends_pure ⟨{ h with waits := nofun, lasts := ?_ }, h.built hb, rfl, rfl⟩
    obtain ⟨n, hn, hcount⟩ := h.lasts
    exact ⟨n, hn, by rw [List.length_nil]; omega⟩
  · -- the first use: the frames that wait are counted already
    rw [if_neg hb, ends_modify_bind]
    have hrest : Listing P (s.frames.pending.flatMap framesOf)
        { s with frames := { s.frames with built := true, pending := [] } } := by
      refine ⟨h.listed, fun f hf => h.waits f (List.mem_reverse.mpr hf), h.proper, ?_, fun _ => rfl⟩
      obtain ⟨n, hn, hcount⟩ := h.lasts
      unfold waiting at hcount
      rw [List.length_reverse] at hcount
      exact ⟨n, hn, hcount⟩
    refine Ends.bind hrest.pushAll_ends ?_
    rintro _ t ⟨ht, head, hl⟩
    refine ends_modify ⟨⟨ht.listed, nofun, ht.proper, ht.lasts, ht.built⟩, ?_, ?_, ?_⟩
    · show t.frames.pending = []
      rw [hl]
    · show t.frames.mapped = s.frames.mapped
      rw [hl]
      rfl
    · show t.frames.count = s.frames.count
      rw [hl]

lemma waiting_nil (h : Listing P [] s) (hp : s.frames.pending = []) : Listing P s.frames.waiting s := by
  unfold waiting
  rw [hp]
  exact h

/-- **Allocation** ends, hands out a frame that is in stock, and fills it with zeros. -/
lemma alloc_ends (h : Listing P s.frames.waiting s) : Ends alloc s fun a s' => Listing P s'.frames.waiting s' ∧
    s'.frames.mapped = s.frames.mapped ∧ ∀ f, a = some f → P f ∧ ∀ i < 512, s'.ram.slot f i = 0 := by
  refine Ends.bind h.build_ends ?_
  rintro _ t ⟨ht, hp, hm, -⟩
  rw [ends_get_bind, ← hm]
  show Ends (if t.frames.head = .null then _ else _) t _
  split
  · refine Ends.bind (ends_modify (P := fun _ s' => Listing P s'.frames.waiting s' ∧ s'.frames.mapped = t.frames.mapped)
      ⟨?_, rfl⟩) ?_
    · exact waiting_nil ⟨ht.listed, ht.waits, ht.proper, ht.lasts, ht.built⟩ hp
    · rintro _ u ⟨hu, hk⟩
      exact ends_pure ⟨hu, hk, nofun⟩
  next hhead =>
  have hlisted : Listed t.ram t.frames.head t.frames.head := .here hhead
  have hf := ht.proper _ (ht.listed _ hlisted)
  have hr := reach_of_mem hf.mem
  obtain ⟨n, hn, hcount⟩ := ht.lasts
  -- the count is no less than the length of the list, so it does not get below zero
  obtain ⟨k, rfl, hrest⟩ := hn.of_ne_null hhead
  rw [List.length_nil] at hcount
  refine (ends_bind_of_ok hr).mpr ?_
  have hzero : ∀ i < 512, (t.ram.clear t.frames.head.toNat 512).slot t.frames.head i = 0 := fun i hi => by
    rw [Ram.slot_clear hf.aligned hf.aligned hi, if_pos rfl]
  have hold := fun g => Listed.of_clear (f := g) hhead ht.aligned
  rw [ends_modify_bind]
  generalize t.ram.clear t.frames.head.toNat 512 = cleared at hrest hzero hold
  show Ends (if t.frames.count = 0 then _ else _) _ _
  rw [if_neg (by omega), ends_modify_bind]
  refine ends_pure ⟨waiting_nil ⟨fun g hg => ht.listed g (hold g hg), nofun, ht.proper, ?_, ht.built⟩ hp, rfl, ?_⟩
  · refine ⟨k, hrest, ?_⟩
    show ([] : List PhysAddr).length + k ≤ t.frames.count - 1
    rw [List.length_nil]
    omega
  · rw [Addr.pageBase_of_aligned hf.aligned]
    rintro _ ⟨⟩
    exact ⟨ht.listed _ hlisted, hzero⟩

/-- **Freeing** a frame that passes the checks puts it on the list, whether it is there already or not. It stops if
the list gets too long to be counted. -/
lemma free_eq (h : Listing P s.frames.waiting s) (hf : P f) : ∃ t,
    (Listing P t.frames.waiting t ∧ t.frames.mapped = s.frames.mapped) ∧
      if s.frames.count + 1 < 2 ^ 64 then free f s = .ok (.ok ()) t else ∃ u, free f s = .error .addOverflow u := by
  have hframe := h.proper f hf
  have hr : s.frames.refusal? f = none := by
    unfold refusal?
    rw [if_neg hframe.ne_null, if_neg (not_not.mpr hframe.aligned), if_neg (not_not.mpr hframe.mem)]
  obtain ⟨_, t, hbuild, ht, hp, hm, hcount⟩ := h.build_ends
  -- with the frame counted before it is pushed, the push keeps the count large enough
  have hcounted : Listing P [f] { t with frames := { t.frames with count := t.frames.count + 1 } } := by
    refine ⟨ht.listed, fun g hg => List.mem_singleton.mp hg ▸ hf, ht.proper, ?_, ht.built⟩
    obtain ⟨n, hn, hle⟩ := ht.lasts
    rw [List.length_nil] at hle
    refine ⟨n, hn, ?_⟩
    show [f].length + n ≤ t.frames.count + 1
    rw [List.length_singleton]
    omega
  have hlast := hcounted.pushed
  refine ⟨_, ⟨waiting_nil ⟨hlast.listed, nofun, hlast.proper, hlast.lasts, hlast.built⟩ hp, hm⟩, ?_⟩
  have hpush : push f t = .ok () (Memory.pushed f t) := push_eq (hm ▸ hframe.mem)
  rw [Memory.free_eq, hr]
  dsimp only
  rw [EStateM.bind, hbuild]
  dsimp only
  rw [bind_of_ok hpush]
  split
  · next hfits =>
    show (if 0x10000000000000000 ≤ t.frames.count + 1 then _ else _ : StoreM (Except FreeError Unit)) _ = _
    rw [if_neg (by omega)]
    rfl
  · next hmany =>
    refine ⟨Memory.pushed f t, ?_⟩
    show (if 0x10000000000000000 ≤ t.frames.count + 1 then _ else _ : StoreM (Except FreeError Unit)) _ = _
    rw [if_pos (by omega)]
    rfl

end Listing

/-! ### Frames that are freed in any way -/

/-- All bytes of the page at `f` are reachable. -/
def Whole (mapped : PhysRange) (f : PhysAddr) : Prop :=
  mapped.start.toNat ≤ f.toNat ∧ f.toNat + pageSize ≤ mapped.stop.toNat

instance (mapped : PhysRange) (f : PhysAddr) : Decidable (Whole mapped f) := inferInstanceAs (Decidable (_ ∧ _))

/-- The reachable memory goes on at `f`, but ends before the page there does. -/
def CutOff (mapped : PhysRange) (f : PhysAddr) : Prop :=
  f ∈ mapped ∧ mapped.stop.toNat < f.toNat + pageSize

lemma mem_iff_whole_or_cutOff {mapped : PhysRange} {f : PhysAddr} : f ∈ mapped ↔ Whole mapped f ∨ CutOff mapped f := by
  have hmem : f ∈ mapped ↔ mapped.start.toNat ≤ f.toNat ∧ f.toNat < mapped.stop.toNat := Iff.rfl
  unfold CutOff Whole
  rw [hmem]
  unfold pageSize
  omega

lemma not_cutOff_of_aligned {mapped : PhysRange} {f : PhysAddr} (hs : mapped.stop.PageAligned) (hf : f.PageAligned) :
    ¬ CutOff mapped f := by
  rintro ⟨⟨-, hlt⟩, hcut⟩
  replace hlt : f.toNat < mapped.stop.toNat := hlt
  unfold Addr.PageAligned pageSize at *
  omega

lemma FrameList.refusal_of_not_isFrame {l : FrameList} {f : PhysAddr} (h : ¬ IsFrame l.mapped f) :
    ∃ e, l.refusal? f = some e := by
  refine refusal_of_bad ?_
  by_contra hc
  push Not at hc
  exact h ⟨hc.2.1, hc.1, hc.2.2⟩

/-- A store after a run of allocations and frees on a list that began as `l`, and the addresses that were taken back.
Any address can be freed at any time. Memory outside of the links can change between the calls. -/
inductive FreeRun (l : FrameList) : Store → List PhysAddr → Prop where
  | start {s : Store} (frames : s.frames = l) : FreeRun l s []
  | alloc {s s' : Store} {freed : List PhysAddr} {a : Option PhysAddr} (run : FreeRun l s freed)
      (step : FrameList.alloc s = .ok a s') : FreeRun l s' freed
  | free {s s' : Store} {freed : List PhysAddr} {f : PhysAddr} (run : FreeRun l s freed)
      (step : FrameList.free f s = .ok (.ok ()) s') : FreeRun l s' (f :: freed)
  | refused {s s' : Store} {freed : List PhysAddr} {f : PhysAddr} {e : FreeError} (run : FreeRun l s freed)
      (step : FrameList.free f s = .ok (.error e) s') : FreeRun l s' freed
  | write {s : Store} {freed : List PhysAddr} {ram : Ram} (run : FreeRun l s freed)
      (links : ∀ f, Listed s.ram s.frames.head f → ram.slot f 0 = s.ram.slot f 0) :
      FreeRun l { s with ram := ram } freed

/-- **What a run keeps**: the list leads to frames that it was supplied with or that were taken back. -/
lemma FreeRun.listing {t : RegionTable} {w : Window} {low : PhysAddr} {l : FrameList}
    (hl : FrameList.new t w low = .ok l) {s : Store} {freed : List PhysAddr} (run : FreeRun l s freed) :
    s.frames.mapped = w.frames ∧
      Listing (fun f => IsFrame w.frames f ∧ (f ∈ l.waiting ∨ f ∈ freed)) s.frames.waiting s := by
  induction run with
  | start hs =>
    have h := Listing.of_new hl hs
    have hmapped : _ = w.frames := hs ▸ (new_eq hl).1
    exact ⟨hmapped, h.mono (fun f hf => ⟨hmapped ▸ h.proper f hf, .inl hf⟩) fun f hf => hmapped ▸ hf.1⟩
  | alloc _ step ih =>
    obtain ⟨hmapped, h⟩ := ih
    obtain ⟨h', hm, -⟩ := h.alloc_ends.elim step
    exact ⟨hm.trans hmapped, h'⟩
  | @free s s' freed f _ step ih =>
    obtain ⟨hmapped, h⟩ := ih
    have hf : IsFrame w.frames f := by
      by_contra hbad
      obtain ⟨e, he⟩ := refusal_of_not_isFrame (hmapped ▸ hbad)
      rw [free_of_refusal he] at step
      cases step
    have hmore : Listing (fun g => IsFrame w.frames g ∧ (g ∈ l.waiting ∨ g ∈ f :: freed)) s.frames.waiting s :=
      h.mono (fun g hg => ⟨hg.1, hg.2.imp_right (List.mem_cons_of_mem _)⟩) fun g hg => hmapped ▸ hg.1
    obtain ⟨u, ⟨h', hm⟩, hfree⟩ := hmore.free_eq ⟨hf, .inr (List.mem_cons_self ..)⟩
    split at hfree
    · cases hfree.symm.trans step
      exact ⟨hm.trans hmapped, h'⟩
    · obtain ⟨v, hv⟩ := hfree
      cases hv.symm.trans step
  | refused _ step ih =>
    obtain ⟨hmapped, h⟩ := ih
    rw [free_of_refusal (refusal_of_free step)] at step
    cases step
    exact ⟨hmapped, ⟨h.listed, h.waits, h.proper, h.lasts, h.built⟩⟩
  | write _ links ih => exact ⟨ih.1, ih.2.write links⟩

/-- **Frees are checked** by the first byte of the frame. -/
lemma FreeRun.free_frame {t : RegionTable} {w : Window} {low : PhysAddr} {l : FrameList}
    (hl : FrameList.new t w low = .ok l) {s : Store} {freed : List PhysAddr} (run : FreeRun l s freed)
    {f : PhysAddr} (hf : IsFrame w.frames f) :
    if s.frames.count + 1 < 2 ^ 64 then ∃ s', FrameList.free f s = .ok (.ok ()) s'
      else ∃ s', FrameList.free f s = .error .addOverflow s' := by
  obtain ⟨hmapped, h⟩ := run.listing hl
  have hmore : Listing (IsFrame w.frames) s.frames.waiting s := h.mono (fun g hg => hg.1) fun g hg => hmapped ▸ hg
  obtain ⟨t, -, hfree⟩ := hmore.free_eq hf
  split at hfree <;> rename_i hfits
  · rw [if_pos hfits]
    exact ⟨t, hfree⟩
  · rwa [if_neg hfits]

lemma FreeRun.free_no_frame {t : RegionTable} {w : Window} {low : PhysAddr} {l : FrameList}
    (hl : FrameList.new t w low = .ok l) {s : Store} {freed : List PhysAddr} (run : FreeRun l s freed)
    {f : PhysAddr} (hf : ¬ IsFrame w.frames f) :
    ∃ e s', FrameList.free f s = .ok (.error e) s' ∧ s'.ram = s.ram ∧ s'.frames = s.frames := by
  obtain ⟨e, he⟩ := refusal_of_not_isFrame ((run.listing hl).1 ▸ hf)
  exact ⟨e, _, free_of_refusal he, rfl, rfl⟩

/-- **The list leads to whole frames** after any run of allocations and frees, even of frames that are free already,
except for the page in which the reachable memory ends, which gets on the list if it is freed. Allocation ends and
fills a frame of the list with zeros. Freeing any frame that is not reachable as a whole is refused and changes nothing,
except for that page again; if the reachable memory ends between pages, there is no such page. All other frees are
accepted until the list is too long to be counted. -/
theorem listed_whole_unless_cut_off {t : RegionTable} {w : Window} {low : PhysAddr} {l : FrameList}
    (new : FrameList.new t w low = .ok l) {s : Store} {freed : List PhysAddr} (run : FreeRun l s freed) :
    (∀ f, s.InStock f → f.PageAligned ∧ f ≠ .null ∧ (Whole w.frames f ∨ CutOff w.frames f ∧ f ∈ freed)) ∧
    (Ends FrameList.alloc s fun a s' => ∀ f, a = some f → s.InStock f ∧
      ∀ x, f.toNat ≤ x → x < f.toNat + pageSize → s'.ram.byte x = 0) ∧
    (∀ f, ¬ (f.PageAligned ∧ f ≠ .null ∧ (Whole w.frames f ∨ CutOff w.frames f)) →
      ∃ e s', FrameList.free f s = .ok (.error e) s' ∧ s'.ram = s.ram ∧ s'.frames = s.frames) ∧
    (∀ f, f.PageAligned ∧ f ≠ .null ∧ (Whole w.frames f ∨ CutOff w.frames f) →
      if s.frames.count + 1 < 2 ^ 64 then ∃ s', FrameList.free f s = .ok (.ok ()) s'
        else ∃ s', FrameList.free f s = .error .addOverflow s') ∧
    (w.frames.stop.PageAligned → (∀ f, s.InStock f → Whole w.frames f) ∧
      ∀ f, ¬ Whole w.frames f → ∃ e s', FrameList.free f s = .ok (.error e) s') := by
  have hframe : ∀ f, IsFrame w.frames f ↔ f.PageAligned ∧ f ≠ .null ∧ (Whole w.frames f ∨ CutOff w.frames f) :=
    fun f => ⟨fun h => ⟨h.aligned, h.ne_null, mem_iff_whole_or_cutOff.mp h.mem⟩,
      fun h => ⟨h.1, h.2.1, mem_iff_whole_or_cutOff.mpr h.2.2⟩⟩
  obtain ⟨-, h⟩ := run.listing new
  have hstock : ∀ f, s.InStock f → f.PageAligned ∧ f ≠ .null ∧ (Whole w.frames f ∨ CutOff w.frames f ∧ f ∈ freed) := by
    intro f hf
    obtain ⟨hf, hgiven⟩ := h.inStock hf
    obtain ⟨ha, hn, hw⟩ := (hframe f).mp hf
    refine ⟨ha, hn, hgiven.elim (fun hwait => .inl ?_) fun hfreed => hw.imp_right fun hc => ⟨hc, hfreed⟩⟩
    have hsupply := isSupply_of_mem new hwait
    exact ⟨hsupply.start, hsupply.stop⟩
  refine ⟨hstock, ?_, fun f hf => ?_, fun f hf => ?_, fun hstop => ⟨fun f hf => ?_, fun f hf => ?_⟩⟩
  · refine h.of_stock.alloc_ends.mono ?_
    rintro a s' ⟨-, -, hzero⟩ f hf
    obtain ⟨hin, hz⟩ := hzero f hf
    exact ⟨hin, fun x hx hx' => Ram.byte_of_zeroed (hstock f hin).1 hz hx hx'⟩
  · exact run.free_no_frame new (mt (hframe f).mp hf)
  · exact run.free_frame new ((hframe f).mpr hf)
  · obtain ⟨ha, -, hw⟩ := hstock f hf
    exact hw.resolve_right fun hc => not_cutOff_of_aligned hstop ha hc.1
  · have hbad : ¬ IsFrame w.frames f := fun hgood =>
      (mem_iff_whole_or_cutOff.mp hgood.mem).elim hf (not_cutOff_of_aligned hstop hgood.aligned)
    obtain ⟨e, s', hfree, -⟩ := run.free_no_frame new hbad
    exact ⟨e, s', hfree⟩

/-- The reachable memory ends in the middle of the page after two frames. -/
def cutOffMapping : Window := .identity ⟨⟨0x100000⟩, ⟨0x102800⟩⟩

def cutOffFrames : FrameList := ⟨cutOffMapping, [⟨0x100, 0x102⟩], .null, 2, false⟩

lemma new_cutOffFrames : FrameList.new (RegionTable.empty.addAvailable 0x100000 0x2800).table cutOffMapping
    ⟨0x100000⟩ = .ok cutOffFrames := by decide +kernel

/-- A frame that is freed before it is handed out, and then once more, leaves a list of whole frames. -/
theorem listed_whole_unless_cut_off_twice : ∃ s, FreeRun cutOffFrames s [⟨0x101000⟩, ⟨0x101000⟩] ∧
    ∀ f, s.InStock f → Whole cutOffMapping.frames f := by
  have hboth : (FrameList.free ⟨0x101000⟩ >>= fun a => (a, ·) <$> FrameList.free ⟨0x101000⟩).run'
      ⟨.ofBackground fun _ => 7, cutOffFrames, #[]⟩ = some (.ok (), .ok ()) := by decide +kernel
  obtain ⟨s', hrun⟩ := eq_ok_of_run' hboth
  obtain ⟨a, s, hs, hrest⟩ := of_bind_eq_ok hrun
  obtain ⟨b, u, hs', hpair⟩ := of_bind_eq_ok hrest
  cases hpair
  have hrun : FreeRun cutOffFrames s' _ := .free (.free (.start rfl) hs) hs'
  refine ⟨s', hrun, fun f hf => ?_⟩
  obtain ⟨-, -, hw | ⟨-, hfreed⟩⟩ := (listed_whole_unless_cut_off new_cutOffFrames hrun).1 f hf
  · exact hw
  · obtain rfl : f = ⟨0x101000⟩ := by simpa using hfreed
    decide

/-- The page in which the reachable memory ends is taken back and handed out, although half of it is out of reach. -/
theorem cut_off_frame_is_listed : ∃ s s' s'',
    FrameList.new (RegionTable.empty.addAvailable 0x100000 0x2800).table cutOffMapping ⟨0x100000⟩ =
      .ok cutOffFrames ∧
    s.frames = cutOffFrames ∧ FrameList.free ⟨0x102000⟩ s = .ok (.ok ()) s' ∧ s'.InStock ⟨0x102000⟩ ∧
    FrameList.alloc s' = .ok (some ⟨0x102000⟩) s'' ∧ ¬ Whole cutOffMapping.frames ⟨0x102000⟩ := by
  have hboth : (FrameList.free ⟨0x102000⟩ >>= fun _ => FrameList.alloc).run'
      ⟨.ofBackground fun _ => 7, cutOffFrames, #[]⟩ = some (some ⟨0x102000⟩) := by decide +kernel
  obtain ⟨s'', hrun⟩ := eq_ok_of_run' hboth
  obtain ⟨a, s', hfree, halloc⟩ := of_bind_eq_ok hrun
  have hstart : FreeRun cutOffFrames ⟨.ofBackground fun _ => 7, cutOffFrames, #[]⟩ [] := .start rfl
  have hfreed := hstart.free_frame new_cutOffFrames (f := ⟨0x102000⟩) (by decide)
  rw [if_pos (by decide)] at hfreed
  obtain ⟨_, hok⟩ := hfreed
  cases hok.symm.trans hfree
  obtain ⟨-, -, hin⟩ := ((hstart.free hfree).listing new_cutOffFrames).2.of_stock.alloc_ends.elim halloc
  exact ⟨_, s', s'', new_cutOffFrames, rfl, hfree, (hin _ rfl).1, halloc, by decide⟩

end Nucleus.Memory
