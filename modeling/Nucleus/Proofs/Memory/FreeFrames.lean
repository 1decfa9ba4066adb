import Mathlib.Data.List.Perm.Subperm
import Mathlib.Data.List.Nodup
import Nucleus.Proofs.Memory.Page
import Nucleus.Proofs.Memory.Run

/-!
The free list as a stack of frames. `FreeFrames s fs` says that the store `s` keeps the frames `fs`, the next
one to be handed out first: those on the list, which the links in memory run through, and above them those
that are put on it at its first use. Allocation takes the top of the stack, freeing pushes on it, and no
memory outside of the frames of the stack changes.
-/

namespace Nucleus.Memory

open FrameList

/-! ### The list in memory -/

/-- The links in memory lead from `head` through the frames `fs` to the end of the list. -/
def Chain (r : Ram) : PhysAddr → List PhysAddr → Prop
  | head, [] => head = .null
  | head, f :: fs => head = f ∧ Chain r ⟨r.slot f 0⟩ fs

lemma Chain.congr {r r' : Ram} {head : PhysAddr} {fs : List PhysAddr} (h : Chain r head fs)
    (hw : ∀ f ∈ fs, r'.slot f 0 = r.slot f 0) : Chain r' head fs := by
  induction fs generalizing head with
  | nil => exact h
  | cons f fs ih =>
    refine ⟨h.1, ?_⟩
    rw [hw f (List.mem_cons_self ..)]
    exact ih h.2 fun g hg => hw g (List.mem_cons_of_mem _ hg)

/-- The frames that are put on the list at its first use, the last of them on top. -/
def FrameList.waiting (l : FrameList) : List PhysAddr := (l.pending.flatMap framesOf).reverse

/-- **The store keeps the free frames `fs`**, the next one to be handed out first. -/
structure FreeFrames (s : Store) (fs : List PhysAddr) : Prop where
  listed : ∃ linked, Chain s.ram s.frames.head linked ∧ fs = s.frames.waiting ++ linked
  built : s.frames.built = true → s.frames.pending = []
  frames : ∀ f ∈ fs, IsFrame s.frames.mapped f
  nodup : fs.Nodup
  count : s.frames.count = fs.length

lemma FreeFrames.aligned {s : Store} {fs : List PhysAddr} (h : FreeFrames s fs) : ∀ f ∈ fs, f.PageAligned :=
  fun f hf => (h.frames f hf).aligned

lemma FreeFrames.chain {s : Store} {fs : List PhysAddr} (h : FreeFrames s fs) (hp : s.frames.pending = []) :
    Chain s.ram s.frames.head fs := by
  obtain ⟨linked, hc, hfs⟩ := h.listed
  rw [hfs, show s.frames.waiting = [] by unfold waiting; rw [hp]; rfl, List.nil_append]
  exact hc

/-- Memory outside of the links can change in any way; frames that wait have none yet. -/
lemma FreeFrames.congr_linked {s s' : Store} {fs : List PhysAddr} (h : FreeFrames s fs) (hl : s'.frames = s.frames)
    (hw : ∀ f ∈ fs, f ∉ s.frames.waiting → s'.ram.slot f 0 = s.ram.slot f 0) : FreeFrames s' fs := by
  obtain ⟨linked, hc, hfs⟩ := h.listed
  have hnd := h.nodup
  rw [hfs] at hnd
  refine ⟨⟨linked, ?_, ?_⟩, ?_, ?_, h.nodup, ?_⟩ <;> rw [hl]
  · refine hc.congr fun f hf => hw f (hfs ▸ List.mem_append_right _ hf) fun hwait => ?_
    exact (List.nodup_append.mp hnd).2.2 f hwait f hf rfl
  · exact hfs
  · exact h.built
  · exact h.frames
  · exact h.count

lemma FreeFrames.congr {s s' : Store} {fs : List PhysAddr} (h : FreeFrames s fs) (hl : s'.frames = s.frames)
    (hw : ∀ f ∈ fs, s'.ram.slot f 0 = s.ram.slot f 0) : FreeFrames s' fs :=
  h.congr_linked hl fun f hf _ => hw f hf

lemma length_le_of_aligned {fs : List PhysAddr} (hn : fs.Nodup) (ha : ∀ f ∈ fs, f.PageAligned) :
    fs.length ≤ 2 ^ 52 := by
  have hpages : (fs.map Addr.page).Nodup := by
    refine List.Nodup.map_on (fun f hf g hg he => Addr.ext_toNat ?_) hn
    rw [← Addr.pageBase_of_aligned (ha f hf), ← Addr.pageBase_of_aligned (ha g hg), Addr.toNat_pageBase,
      Addr.toNat_pageBase, he]
  have hrange : fs.map Addr.page ⊆ List.range (2 ^ 52) := by
    intro p hp
    obtain ⟨f, -, rfl⟩ := List.mem_map.mp hp
    have hlt := f.toNat_lt
    rw [List.mem_range]
    unfold Addr.page pageSize
    omega
  have hle := (hpages.subperm hrange).length_le
  rwa [List.length_map, List.length_range] at hle

/-- Zeroed memory of eight pages, the third of them waiting to be put on the list. -/
def Store.single : Store :=
  ⟨.ofBackground fun _ => 0, ⟨.identity ⟨⟨0⟩, ⟨0x8000⟩⟩, [⟨2, 3⟩], .null, 1, false⟩, #[]⟩

lemma freeFrames_single : FreeFrames .single [⟨0x2000⟩] :=
  ⟨⟨[], rfl, rfl⟩, nofun, by decide, by decide, rfl⟩

/-! ### Putting frames on the list -/

/-- What operations on the list leave as it is: the reachable memory, all memory outside of the frames `fs`,
and the mappings that were dropped. -/
structure Keeps (fs : List PhysAddr) (s s' : Store) : Prop where
  mapped : s'.frames.mapped = s.frames.mapped
  ram : s.ram.SameOutside fs s'.ram
  dropped : s'.dropped = s.dropped

lemma Keeps.refl (fs : List PhysAddr) (s : Store) : Keeps fs s s := ⟨rfl, Ram.SameOutside.refl _ _, rfl⟩

lemma Keeps.trans {fs : List PhysAddr} {s t u : Store} (h : Keeps fs s t) (h' : Keeps fs t u) : Keeps fs s u :=
  ⟨h'.mapped.trans h.mapped, h.ram.trans h'.ram, h'.dropped.trans h.dropped⟩

lemma Keeps.mono {fs gs : List PhysAddr} {s t : Store} (h : Keeps fs s t) (hs : fs ⊆ gs) : Keeps gs s t :=
  ⟨h.mapped, h.ram.mono hs, h.dropped⟩

def pushed (f : PhysAddr) (s : Store) : Store :=
  { s with ram := s.ram.store f.toNat s.frames.head.word, frames := { s.frames with head := f } }

lemma reach_of_mem {s : Store} {f : PhysAddr} (h : f ∈ s.frames.mapped) : Store.reach f s = .ok () s := by
  show EStateM.bind (Store.check (s.frames.window.visible f)) _ s = _
  rw [Window.visible_of_mem h]
  rfl

lemma push_eq {s : Store} {f : PhysAddr} (h : f ∈ s.frames.mapped) : push f s = .ok () (pushed f s) := by
  show EStateM.bind (Store.reach f) _ s = _
  rw [EStateM.bind, reach_of_mem h]
  rfl

lemma keeps_pushed {s : Store} {f : PhysAddr} (hf : f.PageAligned) : Keeps [f] s (pushed f s) :=
  ⟨rfl, Ram.sameOutside_store (i := 0) hf (by decide) _, rfl⟩

lemma chain_pushed {s : Store} {f : PhysAddr} {fs : List PhysAddr} (hf : f.PageAligned)
    (hfs : ∀ g ∈ fs, g.PageAligned) (hn : f ∉ fs) (h : Chain s.ram s.frames.head fs) :
    Chain (pushed f s).ram f (f :: fs) := by
  have hw : ∀ g : PhysAddr, g.PageAligned →
      (pushed f s).ram.slot g 0 = if f = g then s.frames.head.word else s.ram.slot g 0 := by
    intro g hg
    have := Ram.slot_store (r := s.ram) hf hg (i := 0) (j := 0) (by decide) (by decide) s.frames.head.word
    simp only [and_true] at this
    exact this
  refine ⟨rfl, ?_⟩
  rw [hw f hf, if_pos rfl]
  refine h.congr fun g hg => ?_
  rw [hw g (hfs g hg), if_neg fun he : f = g => hn (he ▸ hg)]

/-- Frames pushed one after the other lie on the list in reverse. -/
lemma pushAll_ends {ps fs : List PhysAddr} {s : Store} (hp : ∀ f ∈ ps, IsFrame s.frames.mapped f)
    (hfs : ∀ f ∈ fs, f.PageAligned) (hn : (ps ++ fs).Nodup) (h : Chain s.ram s.frames.head fs) :
    Ends (pushAll ps) s fun _ s' => Chain s'.ram s'.frames.head (ps.reverse ++ fs) ∧ Keeps ps s s' ∧
      ∃ head, s'.frames = { s.frames with head := head } := by
  induction ps generalizing s fs with
  | nil => exact ends_pure ⟨h, .refl .., s.frames.head, rfl⟩
  | cons f ps ih =>
    obtain ⟨hfn, hn'⟩ := List.nodup_cons.mp hn
    have hf := hp f (List.mem_cons_self ..)
    refine (ends_bind_of_ok (push_eq hf.mem)).mpr ?_
    have hfs' : ∀ g ∈ f :: fs, g.PageAligned := by
      rintro g (_ | ⟨_, hg⟩)
      exacts [hf.aligned, hfs g hg]
    have hmid : (ps ++ f :: fs).Nodup := (List.perm_middle.nodup_iff).mpr (List.nodup_cons.mpr ⟨hfn, hn'⟩)
    have hc := chain_pushed hf.aligned hfs (fun hm => hfn (List.mem_append_right _ hm)) h
    have hps : ∀ g ∈ ps, IsFrame (pushed f s).frames.mapped g := fun g hg => hp g (List.mem_cons_of_mem _ hg)
    refine (ih hps hfs' hmid hc).mono ?_
    rintro _ s' ⟨hc', hk, head, hl⟩
    refine ⟨?_, ?_, head, hl⟩
    · rw [List.reverse_cons, List.append_assoc]
      exact hc'
    · exact ((keeps_pushed hf.aligned).mono (by simp)).trans (hk.mono (by simp))

/-! ### First use -/

lemma emit_keeps {s : Store} {e : Event} (he : e.invalidation? = none) (fs : List PhysAddr) :
    Keeps fs s { s with events := s.events.push e } :=
  ⟨rfl, Ram.SameOutside.refl _ _, by rw [Store.dropped_push, he]; simp⟩

lemma build_ends {s : Store} {fs : List PhysAddr} (h : FreeFrames s fs) :
    Ends build s fun _ s' => FreeFrames s' fs ∧ s'.frames.pending = [] ∧ Keeps fs s s' := by
  show Ends (if s.frames.built = true then _ else _) s _
  by_cases hb : s.frames.built = true
  · rw [if_pos hb]
    exact ends_pure ⟨h, h.built hb, .refl ..⟩
  · -- the first use: the frames that wait are on the stack already, above those that are linked
    rw [if_neg hb, ends_modify_bind]
    obtain ⟨linked, hc, hfs⟩ := h.listed
    have hwait : ∀ f ∈ s.frames.pending.flatMap framesOf, f ∈ fs := by
      intro f hf
      rw [hfs]
      exact List.mem_append_left _ (List.mem_reverse.mpr hf)
    have hnd : (s.frames.pending.flatMap framesOf ++ linked).Nodup := by
      have := h.nodup
      rw [hfs] at this
      exact (List.Perm.append_right _ (List.reverse_perm _)).nodup_iff.mp this
    refine Ends.bind (pushAll_ends ?_ ?_ hnd hc) ?_
    · exact fun f hf => h.frames f (hwait f hf)
    · exact fun f hf => h.aligned f (by rw [hfs]; exact List.mem_append_right _ hf)
    rintro _ t ⟨hct, hk, head, hl⟩
    refine ends_modify ⟨⟨⟨fs, ?_, ?_⟩, ?_, ?_, h.nodup, ?_⟩, ?_, ?_⟩
    · rw [hfs]
      exact hct
    · show fs = t.frames.waiting ++ fs
      rw [hl]
      rfl
    · exact fun _ => by show t.frames.pending = []; rw [hl]
    · show ∀ f ∈ fs, IsFrame t.frames.mapped f
      rw [hl]
      exact h.frames
    · show t.frames.count = fs.length
      rw [hl]
      exact h.count
    · show t.frames.pending = []
      rw [hl]
    · have hk' : Keeps fs s t := ⟨hk.mapped, hk.ram.mono hwait, hk.dropped⟩
      exact hk'.trans (emit_keeps rfl fs)

/-! ### Allocation -/

lemma alloc_ends_nil {s : Store} (h : FreeFrames s []) :
    Ends alloc s fun a s' => a = none ∧ FreeFrames s' [] ∧ Keeps [] s s' := by
  refine Ends.bind (build_ends h) ?_
  rintro _ t ⟨ht, hp, hk⟩
  rw [ends_get_bind]
  show Ends (if t.frames.head = .null then _ else _) t _
  have hhead : t.frames.head = .null := ht.chain hp
  rw [if_pos hhead]
  refine Ends.bind (ends_modify (P := fun _ s' => FreeFrames s' [] ∧ Keeps [] s s') ?_) ?_
  · exact ⟨ht.congr rfl (by simp), hk.trans (emit_keeps rfl [])⟩
  · rintro _ u ⟨hu, hk'⟩
    exact ends_pure ⟨rfl, hu, hk'⟩

/-- **Allocation hands out the top of the stack**, filled with zeros. -/
lemma alloc_ends_cons {s : Store} {f : PhysAddr} {fs : List PhysAddr} (h : FreeFrames s (f :: fs)) :
    Ends alloc s fun a s' => a = some f ∧ FreeFrames s' fs ∧ Keeps (f :: fs) s s' ∧
      ∀ i < 512, s'.ram.slot f i = 0 := by
  refine Ends.bind (build_ends h) ?_
  rintro _ t ⟨ht, hp, hk⟩
  have hf := ht.frames f (List.mem_cons_self ..)
  obtain ⟨hhead, hrest⟩ := ht.chain hp
  obtain ⟨hfn, hnd⟩ := List.nodup_cons.mp ht.nodup
  rw [ends_get_bind]
  show Ends (if t.frames.head = .null then _ else _) t _
  rw [if_neg (by rw [hhead]; exact hf.ne_null)]
  have hr : Store.reach t.frames.head t = .ok () t := reach_of_mem (by rw [hhead]; exact hf.mem)
  refine (ends_bind_of_ok hr).mpr ?_
  have haligned : ∀ g ∈ fs, g.PageAligned := fun g hg => ht.aligned g (List.mem_cons_of_mem _ hg)
  have hslot : ∀ g : PhysAddr, g.PageAligned → ∀ i < 512,
      (t.ram.clear f.toNat 512).slot g i = if f = g then 0 else t.ram.slot g i :=
    fun g hg i hi => Ram.slot_clear hf.aligned hg hi
  have hsame : t.ram.SameOutside [f] (t.ram.clear f.toNat 512) := Ram.sameOutside_clear hf.aligned
  rw [ends_modify_bind, hhead]
  generalize t.ram.clear f.toNat 512 = cleared at hslot hsame
  show Ends (if t.frames.count = 0 then _ else _) _ _
  rw [if_neg (by rw [ht.count]; simp), ends_modify_bind]
  refine ends_pure ⟨?_, ⟨⟨fs, ?_, ?_⟩, ?_, ?_, hnd, ?_⟩, ?_, ?_⟩
  · rw [Addr.pageBase_of_aligned hf.aligned]
  · show Chain cleared ⟨t.ram.slot f 0⟩ fs
    refine hrest.congr fun g hg => ?_
    rw [hslot g (haligned g hg) 0 (by decide), if_neg fun he : f = g => hfn (he ▸ hg)]
  · show fs = (t.frames.pending.flatMap framesOf).reverse ++ fs
    rw [hp]
    rfl
  · exact fun _ => hp
  · exact fun g hg => ht.frames g (List.mem_cons_of_mem _ hg)
  · show t.frames.count - 1 = fs.length
    rw [ht.count]
    rfl
  · exact hk.trans ⟨rfl, hsame.mono (by simp), rfl⟩
  · intro i hi
    show cleared.slot f i = 0
    rw [hslot f hf.aligned i hi, if_pos rfl]

lemma alloc_ends {s : Store} {fs : List PhysAddr} (h : FreeFrames s fs) :
    Ends alloc s fun a s' => a = fs.head? ∧ FreeFrames s' fs.tail ∧ Keeps fs s s' ∧
      ∀ f, a = some f → ∀ i < 512, s'.ram.slot f i = 0 := by
  cases fs with
  | nil =>
    refine (alloc_ends_nil h).mono ?_
    rintro a s' ⟨rfl, hf, hk⟩
    exact ⟨rfl, hf, hk, nofun⟩
  | cons f fs =>
    refine (alloc_ends_cons h).mono ?_
    rintro a s' ⟨rfl, hf, hk, hz⟩
    refine ⟨rfl, hf, hk, ?_⟩
    rintro _ ⟨⟩
    exact hz

/-! ### Freeing -/

/-- **Freeing pushes a frame on the stack.** -/
lemma free_ends {s : Store} {f : PhysAddr} {fs : List PhysAddr} (h : FreeFrames s fs)
    (hf : IsFrame s.frames.mapped f) (hn : f ∉ fs) :
    Ends (free f) s fun r s' => r = .ok () ∧ FreeFrames s' (f :: fs) ∧ Keeps (f :: fs) s s' := by
  unfold free
  rw [ends_get_bind]
  have hr : s.frames.refusal? f = none := by
    unfold refusal?
    rw [if_neg hf.ne_null, if_neg (not_not.mpr hf.aligned), if_neg (not_not.mpr hf.mem)]
  rw [hr]
  refine Ends.bind (build_ends h) ?_
  rintro _ t ⟨ht, hp, hk⟩
  have hft : IsFrame t.frames.mapped f := hk.mapped ▸ hf
  refine (ends_bind_of_ok (push_eq hft.mem)).mpr ?_
  have hnodup : (f :: fs).Nodup := List.nodup_cons.mpr ⟨hn, h.nodup⟩
  have hall : ∀ g ∈ f :: fs, g.PageAligned := List.forall_mem_cons.mpr ⟨hf.aligned, h.aligned⟩
  -- there are no more frames than pages in the address space, so the count does not overflow
  have hcount : t.frames.count + 1 ≤ 2 ^ 52 := by
    rw [ht.count]
    exact length_le_of_aligned hnodup hall
  rw [ends_get_bind]
  show Ends (if 0x10000000000000000 ≤ t.frames.count + 1 then _ else _) _ _
  rw [if_neg (by omega), ends_modify_bind]
  refine ends_pure ⟨rfl, ⟨⟨f :: fs, ?_, ?_⟩, ?_, ?_, hnodup, ?_⟩, ?_⟩
  · exact chain_pushed hf.aligned ht.aligned hn (ht.chain hp)
  · show f :: fs = (t.frames.pending.flatMap framesOf).reverse ++ f :: fs
    rw [hp]
    rfl
  · exact fun _ => hp
  · rintro g (_ | ⟨_, hg⟩)
    exacts [hft, ht.frames g hg]
  · show t.frames.count + 1 = _
    rw [ht.count]
    rfl
  · exact (hk.mono (by simp)).trans ⟨rfl, ((keeps_pushed hf.aligned).mono (by simp)).ram, rfl⟩

/-- Whether a frame is taken back is decided before anything changes. -/
lemma free_eq (a : PhysAddr) (s : Store) : free a s = match s.frames.refusal? a with
    | some e => .ok (.error e) { s with events := s.events.push (.freeRefused e) }
    | none => EStateM.bind build (fun _ => do
        push a
        if 0x10000000000000000 ≤ (← get).frames.count + 1 then throw .addOverflow
        modify fun s => { s with frames := { s.frames with count := s.frames.count + 1 } }
        return .ok ()) s := by
  unfold free
  show (match s.frames.refusal? a with | some e => _ | none => _ : StoreM (Except FreeError Unit)) s = _
  cases s.frames.refusal? a <;> rfl

lemma free_of_refusal {s : Store} {a : PhysAddr} {e : FreeError} (h : s.frames.refusal? a = some e) :
    free a s = .ok (.error e) { s with events := s.events.push (.freeRefused e) } := by
  rw [free_eq, h]

lemma refusal_of_free {s s' : Store} {a : PhysAddr} {e : FreeError} (h : free a s = .ok (.error e) s') :
    s.frames.refusal? a = some e := by
  rw [free_eq] at h
  cases hr : s.frames.refusal? a with
  | some e' =>
    rw [hr] at h
    cases h
    rfl
  | none =>
    rw [hr] at h
    obtain ⟨-, t, -, ht⟩ := of_bind_eq_ok h
    obtain ⟨-, u, -, hu⟩ := of_bind_eq_ok ht
    obtain ⟨v, w, -, hv⟩ := of_bind_eq_ok hu
    -- too large a count stops the operation, and any other leads to an answer without an error
    change (if 0x10000000000000000 ≤ _ then _ else _ : StoreM (Except FreeError Unit)) _ = _ at hv
    split at hv <;> cases hv

end Nucleus.Memory
