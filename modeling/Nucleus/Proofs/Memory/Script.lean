import Nucleus.Proofs.Memory.FreeFrames

/-!
Operations on memory with all their single steps: a script says which word is written next, or what the list of free
frames keeps next outside of the frames, or which event is reported. An operation on memory is what a script comes to
when it is run, and `Script.Always` looks at each moment on the way. At every moment of allocating and freeing, memory
has changed in free frames only, and the list leads to no other frame.
-/

namespace Nucleus.Memory

variable {α β : Type}

/-! ### Steps -/

inductive Step where
  | write (address : Nat) (w : UInt64)
  /-- A new content of the list, apart from the links in the frames. -/
  | keep (l : FrameList)
  | report (e : Event)

def Step.apply (s : Store) : Step → Store
  | write a w => { s with ram := s.ram.store a w }
  | keep l => { s with frames := l }
  | report e => { s with events := s.events.push e }

/-- An operation with its single steps. What comes next can depend on what the store holds then. -/
inductive Script (α : Type) where
  | done (a : α)
  | stop (e : Fault)
  | look (k : Store → Script α)
  | take (d : Step) (k : Script α)

namespace Script

def bind : Script α → (α → Script β) → Script β
  | done a, f => f a
  | stop e, _ => stop e
  | look k, f => look fun s => (k s).bind f
  | take d k, f => take d (k.bind f)

instance : Monad Script where
  pure := done
  bind := bind

def run : Script α → StoreM α
  | done a, s => .ok a s
  | stop e, s => .error e s
  | look k, s => (k s).run s
  | take d k, s => k.run (d.apply s)

/-- `P` holds at each moment of the script when it starts in the store. -/
def Always (P : Store → Prop) : Script α → Store → Prop
  | done _, s | stop _, s => P s
  | look k, s => (k s).Always P s
  | take d k, s => P s ∧ k.Always P (d.apply s)

section Rules

variable {P : Store → Prop} {m : Script α} {f : α → Script β} {s s' : Store} {a : α}

lemma run_bind (m : Script α) (f : α → Script β) : (m >>= f).run = m.run >>= fun a => (f a).run := by
  funext s
  induction m generalizing s with
  | done a => rfl
  | stop e => rfl
  | look k ih => exact ih s s
  | take d k ih => exact ih (d.apply s)

lemma run_bind_eq {op : StoreM α} {g : α → StoreM β} (hm : m.run = op) (hf : ∀ a, (f a).run = g a) :
    (m >>= f).run = op >>= g := by
  rw [run_bind, hm, funext hf]

lemma run_ite_eq {c : Prop} [Decidable c] {m' : Script α} {op op' : StoreM α} (h : m.run = op) (h' : m'.run = op') :
    (if c then m else m').run = if c then op else op' := by
  rw [apply_ite Script.run, h, h']

lemma Always.first (h : m.Always P s) : P s := by
  induction m with
  | done | stop => exact h
  | look k ih => exact ih s h
  | take d k => exact h.1

lemma Always.last (h : m.Always P s) (hm : m.run s = .ok a s') : P s' := by
  induction m generalizing s with
  | done b =>
    cases hm
    exact h
  | stop e => cases hm
  | look k ih => exact ih s h hm
  | take d k ih => exact ih h.2 hm

lemma Always.mono (h : m.Always P s) {P' : Store → Prop} (hp : ∀ t, P t → P' t) : m.Always P' s := by
  induction m generalizing s with
  | done | stop => exact hp s h
  | look k ih => exact ih s h
  | take d k ih => exact ⟨hp s h.1, ih h.2⟩

lemma Always.bind_of_run (h : m.Always P s) (hf : ∀ a s', m.run s = .ok a s' → (f a).Always P s') :
    (m >>= f).Always P s := by
  induction m generalizing s with
  | done a => exact hf a s rfl
  | stop e => exact h
  | look k ih => exact ih s h hf
  | take d k ih => exact ⟨h.1, ih h.2 hf⟩

lemma Always.bind (h : m.Always P s) {Q : α → Store → Prop} (he : Ends m.run s Q)
    (hf : ∀ a s', Q a s' → (f a).Always P s') : (m >>= f).Always P s :=
  h.bind_of_run fun a s' hm => hf a s' (he.elim hm)

end Rules

/-! ### Steps as scripts -/

def get : Script Store := look done

def write (address : Nat) (w : UInt64) : Script Unit := take (.write address w) (done ())

/-- Changes what the list keeps outside of the frames. -/
def keep (g : FrameList → FrameList) : Script Unit := look fun s => take (.keep (g s.frames)) (done ())

def emit (e : Event) : Script Unit := take (.report e) (done ())

def check : Checked α → Script α
  | .ok a => done a
  | .error e => stop e

@[simp] lemma run_check (c : Checked α) : (check c).run = Store.check c := by
  cases c <;> rfl

section Rules

variable {P : Store → Prop} {s : Store}

lemma always_get_bind {f : Store → Script β} : (get >>= f).Always P s ↔ (f s).Always P s := Iff.rfl

lemma always_keep_bind {g : FrameList → FrameList} {f : Unit → Script β} :
    (keep g >>= f).Always P s ↔ P s ∧ (f ()).Always P { s with frames := g s.frames } := Iff.rfl

end Rules

/-! ### The list -/

def reach (a : PhysAddr) : Script Unit := do
  let _ ← check ((← get).frames.window.visible a)

/-- Puts a frame on the list, the link first. -/
def push (frame : PhysAddr) : Script Unit := do
  reach frame
  write frame.toNat (← get).frames.head.word
  keep ({ · with head := frame })

def pushAll : List PhysAddr → Script Unit
  | [] => return
  | f :: fs => do
    push f
    pushAll fs

def build : Script Unit := do
  let l := (← get).frames
  if l.built then return
  keep ({ · with built := true, pending := [] })
  pushAll (l.pending.flatMap FrameList.framesOf)
  emit (.freeListBuilt l.count)

def clear (a : Nat) : Nat → Script Unit
  | 0 => return
  | n + 1 => do
    write a 0
    clear (a + 8) n

/-- Takes the frame at the head off the list before its words are cleared. -/
def alloc : Script (Option PhysAddr) := do
  build
  let s ← get
  let frame := s.frames.head
  if frame = .null then
    emit .outOfFrames
    return none
  reach frame
  let next : PhysAddr := ⟨s.ram.load frame.toNat⟩
  keep ({ · with head := next })
  clear frame.toNat 512
  if s.frames.count = 0 then stop .subOverflow
  keep fun l => { l with count := l.count - 1 }
  return some frame.pageBase

def free (a : PhysAddr) : Script (Except FreeError Unit) := do
  match (← get).frames.refusal? a with
  | some e =>
    emit (.freeRefused e)
    return .error e
  | none =>
    build
    push a
    if 0x10000000000000000 ≤ (← get).frames.count + 1 then stop .addOverflow
    keep fun l => { l with count := l.count + 1 }
    return .ok ()

/-! #### What they come to -/

lemma run_reach (a : PhysAddr) : (reach a).run = Store.reach a :=
  run_bind_eq rfl fun _ => run_bind_eq (run_check _) fun _ => rfl

@[simp] lemma run_push (f : PhysAddr) : (push f).run = FrameList.push f := run_bind_eq (run_reach f) fun _ => rfl

@[simp] lemma run_pushAll (fs : List PhysAddr) : (pushAll fs).run = FrameList.pushAll fs := by
  induction fs with
  | nil => rfl
  | cons f fs ih => exact run_bind_eq (run_push f) fun _ => ih

@[simp] lemma run_build : build.run = FrameList.build := by
  refine run_bind_eq rfl fun s => run_ite_eq rfl ?_
  exact run_bind_eq rfl fun _ => run_bind_eq (run_pushAll _) fun _ => rfl

lemma run_clear (a n : Nat) (s : Store) : (clear a n).run s = .ok () { s with ram := s.ram.clear a n } := by
  induction n generalizing a s with
  | zero => rfl
  | succ n ih => exact ih (a + 8) _

@[simp] lemma run_alloc : alloc.run = FrameList.alloc := by
  refine run_bind_eq run_build fun _ => run_bind_eq rfl fun s => run_ite_eq rfl ?_
  refine run_bind_eq (run_reach _) fun _ => funext fun t => ?_
  generalize 512 = n
  show (clear _ n >>= _ : Script _).run _ = _
  rw [run_bind, bind_of_ok (run_clear ..)]
  exact congrFun (run_ite_eq rfl rfl) _

@[simp] lemma run_free (a : PhysAddr) : (free a).run = FrameList.free a := by
  refine run_bind_eq rfl fun s => ?_
  cases s.frames.refusal? a with
  | some e => rfl
  | none =>
    refine run_bind_eq run_build fun _ => run_bind_eq (run_push a) fun _ => run_bind_eq rfl fun s => ?_
    exact run_ite_eq rfl rfl

end Script

/-! ### What the allocator has -/

/-- The links in memory lead from `head` to the frame `f`, whatever comes after it. -/
inductive Listed (r : Ram) : PhysAddr → PhysAddr → Prop where
  | here {f : PhysAddr} (proper : f ≠ .null) : Listed r f f
  | next {head f : PhysAddr} (proper : head ≠ .null) (rest : Listed r ⟨r.slot head 0⟩ f) : Listed r head f

/-- The allocator has the frame `f`: it is on the list, or it is put on it at its first use. -/
def Store.InStock (s : Store) (f : PhysAddr) : Prop := f ∈ s.frames.waiting ∨ Listed s.ram s.frames.head f

/-- From `s` to `t` nothing changed but the frames `gs` and the events, and the allocator has no other frame. -/
structure Confined (gs : List PhysAddr) (s t : Store) : Prop where
  keeps : Keeps gs s t
  stock : ∀ f, t.InStock f → f ∈ gs

lemma Chain.mem_of_listed {r : Ram} {head f : PhysAddr} {fs : List PhysAddr} (h : Chain r head fs)
    (hn : ∀ g ∈ fs, g ≠ .null) (hl : Listed r head f) : f ∈ fs := by
  induction hl generalizing fs with
  | here proper =>
    cases fs with
    | nil => exact absurd h proper
    | cons g fs =>
      rw [h.1]
      exact List.mem_cons_self ..
  | next proper _ ih =>
    cases fs with
    | nil => exact absurd h proper
    | cons g fs =>
      obtain ⟨rfl, hrest⟩ := h
      exact List.mem_cons_of_mem _ (ih hrest fun g hg => hn g (List.mem_cons_of_mem _ hg))

/-- The links lead through the frames `fs`, which are among `gs`, and nothing waits; from `s₀` on nothing changed but
the frames `gs`. -/
structure Strung (gs : List PhysAddr) (s₀ s : Store) (fs : List PhysAddr) : Prop where
  keeps : Keeps gs s₀ s
  pending : s.frames.pending = []
  chain : Chain s.ram s.frames.head fs
  frames : ∀ f ∈ fs, IsFrame s.frames.mapped f
  within : fs ⊆ gs

section Moments

variable {gs fs : List PhysAddr} {s₀ s : Store} {f : PhysAddr}

lemma Strung.confined (h : Strung gs s₀ s fs) : Confined gs s₀ s := by
  refine ⟨h.keeps, fun f hf => h.within ?_⟩
  rcases hf with hf | hf
  · unfold FrameList.waiting at hf
    simp [h.pending] at hf
  · exact h.chain.mem_of_listed (fun g hg => (h.frames g hg).ne_null) hf

lemma FreeFrames.strung (h : FreeFrames s fs) (hp : s.frames.pending = []) (hk : Keeps gs s₀ s) (hs : fs ⊆ gs) :
    Strung gs s₀ s fs := ⟨hk, hp, h.chain hp, h.frames, hs⟩

lemma FreeFrames.confined (h : FreeFrames s fs) (hs : fs ⊆ gs) : Confined gs s s := by
  refine ⟨.refl gs s, fun f hf => hs ?_⟩
  obtain ⟨linked, hc, hfs⟩ := h.listed
  have hlinked : ∀ g ∈ linked, g ∈ fs := fun g hg => hfs ▸ List.mem_append_right _ hg
  rcases hf with hf | hf
  · rw [hfs]
    exact List.mem_append_left _ hf
  · exact hlinked f (hc.mem_of_listed (fun g hg => (h.frames g (hlinked g hg)).ne_null) hf)

/-- A frame that is not on the list can change in any way. -/
lemma Strung.elsewhere (h : Strung gs s₀ s fs) (hf : f.PageAligned) (hg : f ∈ gs) (hn : f ∉ fs) {r : Ram}
    (hr : s.ram.SameOutside [f] r) : Strung gs s₀ { s with ram := r } fs := by
  refine ⟨h.keeps.trans ⟨rfl, hr.mono (by simpa using hg), rfl⟩, h.pending, ?_, h.frames, h.within⟩
  refine h.chain.congr fun g hgs => hr.slot (by simpa using hf) (h.frames g hgs).aligned ?_ (by decide)
  rw [List.mem_singleton]
  rintro rfl
  exact hn hgs

lemma Strung.recount (h : Strung gs s₀ s fs) (n : Nat) :
    Strung gs s₀ { s with frames := { s.frames with count := n } } fs :=
  ⟨⟨h.keeps.mapped, h.keeps.ram, h.keeps.dropped⟩, h.pending, h.chain, h.frames, h.within⟩

lemma Strung.emit (h : Strung gs s₀ s fs) {e : Event} (he : e.invalidation? = none) :
    Strung gs s₀ { s with events := s.events.push e } fs :=
  ⟨h.keeps.trans (emit_keeps he gs), h.pending, h.chain, h.frames, h.within⟩

lemma Strung.pushed (h : Strung gs s₀ s fs) (hf : IsFrame s.frames.mapped f) (hg : f ∈ gs) (hn : f ∉ fs) :
    Strung gs s₀ (pushed f s) (f :: fs) := by
  refine ⟨h.keeps.trans ((keeps_pushed hf.aligned).mono (by simpa using hg)), h.pending, ?_, ?_, ?_⟩
  · exact chain_pushed hf.aligned (fun g hg => (h.frames g hg).aligned) hn h.chain
  · exact List.forall_mem_cons.mpr ⟨hf, h.frames⟩
  · exact List.cons_subset.mpr ⟨hg, h.within⟩

namespace Script

variable {P : Store → Prop} {β : Type}

lemma always_reach_bind {a : PhysAddr} (ha : a ∈ s.frames.mapped) {k : Unit → Script β} :
    (reach a >>= k).Always P s ↔ (k ()).Always P s := by
  show (((check (s.frames.window.visible a)).bind fun _ => done ()).bind k).Always P s ↔ _
  rw [Window.visible_of_mem ha]
  rfl

/-- A frame that is pushed has its link before it is on the list. -/
lemma push_always (h : Strung gs s₀ s fs) (hf : IsFrame s.frames.mapped f) (hg : f ∈ gs) (hn : f ∉ fs) :
    (push f).Always (Confined gs s₀) s := by
  have hlink : s.ram.SameOutside [f] (s.ram.store f.toNat s.frames.head.word) :=
    Ram.sameOutside_store (i := 0) hf.aligned (by decide) _
  exact (always_reach_bind hf.mem).mpr
    ⟨h.confined, (h.elsewhere hf.aligned hg hn hlink).confined, (h.pushed hf hg hn).confined⟩

lemma pushAll_always {ps : List PhysAddr} (h : Strung gs s₀ s fs) (hp : ∀ f ∈ ps, IsFrame s.frames.mapped f)
    (hg : ps ⊆ gs) (hn : (ps ++ fs).Nodup) : (pushAll ps).Always (Confined gs s₀) s := by
  induction ps generalizing s fs with
  | nil => exact h.confined
  | cons f ps ih =>
    obtain ⟨hf, hps⟩ := List.forall_mem_cons.mp hp
    obtain ⟨hfg, hpg⟩ := List.cons_subset.mp hg
    obtain ⟨hfn, hn'⟩ := List.nodup_cons.mp hn
    have hfs : f ∉ fs := fun hm => hfn (List.mem_append_right _ hm)
    refine (push_always h hf hfg hfs).bind_of_run fun _ s' hm => ?_
    rw [run_push, push_eq hf.mem] at hm
    cases hm
    exact ih (h.pushed hf hfg hfs) hps hpg (List.perm_middle.nodup_iff.mpr (List.nodup_cons.mpr ⟨hfn, hn'⟩))

/-- **Building the list** touches free frames only. -/
lemma build_always (h : FreeFrames s fs) (hs : fs ⊆ gs) : build.Always (Confined gs s) s := by
  show (if s.frames.built = true then _ else _ : Script Unit).Always _ s
  split
  · exact h.confined hs
  · obtain ⟨linked, hc, hfs⟩ := h.listed
    refine always_keep_bind.mpr ⟨h.confined hs, ?_⟩
    have hlinked : linked ⊆ fs := hfs ▸ List.subset_append_right _ _
    have hwait : s.frames.pending.flatMap FrameList.framesOf ⊆ fs := by
      intro f hf
      rw [hfs]
      exact List.mem_append_left _ (List.mem_reverse.mpr hf)
    have hnd : (s.frames.pending.flatMap FrameList.framesOf ++ linked).Nodup := by
      have := h.nodup
      rw [hfs] at this
      exact (List.Perm.append_right _ (List.reverse_perm _)).nodup_iff.mp this
    have hstrung : Strung gs s { s with frames := { s.frames with built := true, pending := [] } } linked :=
      ⟨⟨rfl, .refl _ _, rfl⟩, rfl, hc, fun f hf => h.frames f (hlinked hf), List.Subset.trans hlinked hs⟩
    have hframes : ∀ f ∈ s.frames.pending.flatMap FrameList.framesOf, IsFrame s.frames.mapped f :=
      fun f hf => h.frames f (hwait hf)
    have hpush := pushAll_always hstrung hframes (List.Subset.trans hwait hs) hnd
    refine hpush.bind_of_run fun _ t ht => ?_
    have hconf := hpush.last ht
    exact ⟨hconf, hconf.keeps.trans (emit_keeps rfl gs), hconf.stock⟩

lemma clear_always {a n : Nat} (h : ∀ k ≤ n, P { s with ram := s.ram.clear a k }) : (clear a n).Always P s := by
  induction n generalizing a s with
  | zero => exact h 0 (Nat.le_refl 0)
  | succ n ih => exact ⟨h 0 (Nat.zero_le _), ih fun k hk => h (k + 1) (Nat.succ_le_succ hk)⟩

end Script

lemma Ram.sameOutside_clear_of_le {r : Ram} {t : PhysAddr} (ht : t.PageAligned) {n : Nat} (hn : n ≤ 512) :
    SameOutside [t] r (r.clear t.toNat n) := by
  intro a ha hf
  have := hf t (List.mem_singleton_self t)
  rw [load_clear (by have := aligned_slot ht 0; omega) ha, if_neg (by unfold pageSize at this; omega)]

namespace Script

/-- **At every moment of an allocation** memory changed in free frames only, and the allocator has no other frame. -/
lemma alloc_always (h : FreeFrames s fs) : alloc.Always (Confined fs s) s := by
  refine (build_always h (List.Subset.refl fs)).bind (run_build ▸ build_ends h) ?_
  rintro _ t ⟨ht, hp, hk⟩
  have hstrung := ht.strung hp hk (List.Subset.refl fs)
  show (if t.frames.head = .null then _ else _ : Script _).Always _ t
  split
  · exact ⟨hstrung.confined, (hstrung.emit rfl).confined⟩
  · next hhead =>
    have hchain := hstrung.chain
    cases fs with
    | nil => exact absurd hchain hhead
    | cons f fs =>
      obtain ⟨rfl, hrest⟩ := hchain
      obtain ⟨hf, hframes⟩ := List.forall_mem_cons.mp hstrung.frames
      have hn := (List.nodup_cons.mp ht.nodup).1
      -- from here on the frame is off the list, so its words can change
      have hoff : Strung (t.frames.head :: fs) s
          { t with frames := { t.frames with head := ⟨t.ram.load t.frames.head.toNat⟩ } } fs :=
        ⟨⟨hk.mapped, hk.ram, hk.dropped⟩, hp, hrest, hframes, List.subset_cons_self _ _⟩
      have hzero : ∀ k ≤ 512, Strung (t.frames.head :: fs) s
          { t with ram := t.ram.clear t.frames.head.toNat k,
                   frames := { t.frames with head := ⟨t.ram.load t.frames.head.toNat⟩ } } fs :=
        fun k hk => hoff.elsewhere hf.aligned (List.mem_cons_self ..) hn (Ram.sameOutside_clear_of_le hf.aligned hk)
      have hcount : t.frames.count ≠ 0 := by simp [ht.count]
      generalize 512 = n at hzero
      refine (always_reach_bind hf.mem).mpr (always_keep_bind.mpr ⟨hstrung.confined, ?_⟩)
      refine (clear_always fun k hk => (hzero k hk).confined).bind_of_run fun _ u hu => ?_
      rw [run_clear] at hu
      cases hu
      show (if t.frames.count = 0 then _ else _ : Script _).Always _ _
      rw [if_neg hcount]
      have hlast := hzero n (Nat.le_refl n)
      exact ⟨hlast.confined, (hlast.recount _).confined⟩

/-- **At every moment of freeing a frame** memory changed in it and in free frames only, and the allocator has no
other frame. -/
lemma free_always (h : FreeFrames s fs) (hf : IsFrame s.frames.mapped f) (hn : f ∉ fs) :
    (free f).Always (Confined (f :: fs) s) s := by
  have hr : s.frames.refusal? f = none := by
    unfold FrameList.refusal?
    rw [if_neg hf.ne_null, if_neg (not_not.mpr hf.aligned), if_neg (not_not.mpr hf.mem)]
  have hsub : fs ⊆ f :: fs := List.subset_cons_self _ _
  show (match s.frames.refusal? f with | some e => _ | none => _ : Script _).Always _ s
  rw [hr]
  refine (build_always h hsub).bind (run_build ▸ build_ends h) ?_
  rintro _ t ⟨ht, hp, hk⟩
  have hft : IsFrame t.frames.mapped f := hk.mapped ▸ hf
  have hstrung := ht.strung hp (hk.mono hsub) hsub
  refine (push_always hstrung hft (List.mem_cons_self ..) hn).bind_of_run fun _ u hu => ?_
  rw [run_push, push_eq hft.mem] at hu
  cases hu
  have hlast := hstrung.pushed hft (List.mem_cons_self ..) hn
  show (if 0x10000000000000000 ≤ _ then _ else _ : Script _).Always _ _
  split
  · exact hlast.confined
  · exact ⟨hlast.confined, (hlast.recount _).confined⟩

end Script

end Moments

end Nucleus.Memory
