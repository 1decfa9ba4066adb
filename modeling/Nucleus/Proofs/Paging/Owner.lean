import Mathlib.Data.List.Nodup
import Nucleus.Proofs.Paging.Plain

/-!
Who the frames of the memory core belong to. A frame is free, or an entry links it as a table, or it is behind a
page of the heap window, or it is the root, or somebody holds it who allocated it. Every elementary step moves
one frame from one owner to another one at most, so that each frame keeps exactly one owner.
-/

namespace Nucleus.Paging

open Memory Relation

/-- What a frame is in use for. -/
inductive Owner where
  | free
  /-- The entry with this number links table number `number` of the level below, which is `level`. -/
  | link (level number : Nat)
  /-- The heap page with this number. -/
  | page (number : Nat)
  | root
  /-- Somebody who allocated it. -/
  | holder
  deriving DecidableEq, Repr

/-! ### Moving frames -/

/-- Each frame of the pool has exactly one owner, and no other frame has any. -/
structure Partition (pool : List PhysAddr) (own : Owner → PhysAddr → Prop) : Prop where
  mem : ∀ f, f ∈ pool ↔ ∃ o, own o f
  unique : ∀ {p q f}, own p f → own q f → p = q

/-- The frame `f` moves from the owner `p` to the owner `q`, and no other one moves. -/
structure Moves (own own' : Owner → PhysAddr → Prop) (f : PhysAddr) (p q : Owner) : Prop where
  before : own p f
  gain : ∀ g, own' q g ↔ g = f ∨ own q g
  lose : ∀ g, own' p g ↔ own p g ∧ g ≠ f
  others : ∀ o, o ≠ p → o ≠ q → ∀ g, own' o g ↔ own o g

section Moving

variable {pool : List PhysAddr} {own own' : Owner → PhysAddr → Prop}

lemma Partition.moves (h : Partition pool own) {f : PhysAddr} {p q : Owner} (hm : Moves own own' f p q) :
    Partition pool own' := by
  -- the moved frame has only the new owner, and each other one has the owners that it had
  have hself : ∀ o, own' o f → o = q := by
    intro o ho
    by_contra hne
    by_cases hop : o = p
    · subst hop
      exact ((hm.lose f).mp ho).2 rfl
    · exact hop (h.unique ((hm.others o hop hne f).mp ho) hm.before)
  have hother : ∀ o g, g ≠ f → (own' o g ↔ own o g) := by
    intro o g hg
    by_cases hop : o = p
    · subst hop
      rw [hm.lose]
      exact and_iff_left hg
    · by_cases hoq : o = q
      · subst hoq
        rw [hm.gain]
        exact or_iff_right hg
      · exact hm.others o hop hoq g
  refine ⟨fun g => ?_, fun {o o' g} ho ho' => ?_⟩
  · rw [h.mem]
    by_cases hg : g = f
    · subst hg
      exact ⟨fun _ => ⟨q, (hm.gain g).mpr (.inl rfl)⟩, fun _ => ⟨p, hm.before⟩⟩
    · exact exists_congr fun o => (hother o g hg).symm
  · by_cases hg : g = f
    · subst hg
      rw [hself o ho, hself o' ho']
    · exact h.unique ((hother o g hg).mp ho) ((hother o' g hg).mp ho')

lemma Partition.inUse (h : Partition pool own) (hp : pool.Nodup) {fs : List PhysAddr} (hn : fs.Nodup)
    (hfs : ∀ f, own .free f ↔ f ∈ fs) : ∃ used : List PhysAddr, used.Nodup ∧
      (∀ f, f ∈ used ↔ ∃ o, o ≠ .free ∧ own o f) ∧ fs.length + used.length = pool.length := by
  refine ⟨pool.filter (· ∉ fs), hp.filter _, fun f => ?_, ?_⟩
  · rw [List.mem_filter, decide_eq_true_eq, h.mem]
    constructor
    · rintro ⟨⟨o, ho⟩, hf⟩
      exact ⟨o, fun he => hf ((hfs f).mp (he ▸ ho)), ho⟩
    · rintro ⟨o, hne, ho⟩
      exact ⟨⟨o, ho⟩, fun hf => hne (h.unique ho ((hfs f).mpr hf))⟩
  · have hfree : (pool.filter (· ∈ fs)).Perm fs := by
      refine (List.perm_ext_iff_of_nodup (hp.filter _) hn).mpr fun f => ?_
      rw [List.mem_filter, decide_eq_true_eq, and_iff_right_iff_imp]
      exact fun hf => (h.mem f).mpr ⟨.free, (hfs f).mpr hf⟩
    rw [← hfree.length_eq, List.length_eq_length_filter_add (l := pool) (· ∈ fs)]
    simp only [decide_not]

/-- The frames of the pool went from the owners `own` to the owners `own'`, and none of them was handed out while
it was in use: what is in use now was free then or in the same use. Unless frames came `back` in between, what is
free now was free then. -/
structure Trail (pool : List PhysAddr) (own : Owner → PhysAddr → Prop) (back : Prop)
    (own' : Owner → PhysAddr → Prop) : Prop extends Partition pool own' where
  uses : ∀ {o f}, o ≠ .free → own' o f → own o f ∨ own .free f
  free : ¬ back → ∀ f, own' .free f → own .free f

namespace Trail

variable {own'' : Owner → PhysAddr → Prop} {back : Prop} {f : PhysAddr} {o : Owner}

lemma refl (h : Partition pool own) : Trail pool own False own := ⟨h, fun _ ho => .inl ho, fun _ _ hf => hf⟩

lemma comeBack (h : Trail pool own back own') : Trail pool own True own' :=
  ⟨h.toPartition, h.uses, fun hn => absurd trivial hn⟩

/-- As long as none came back, the frames that are taken were free from the start. -/
lemma take (h : Trail pool own False own') (hm : Moves own' own'' f .free o) : Trail pool own False own'' := by
  refine ⟨h.toPartition.moves hm, fun {q g} hq hg => ?_, fun hn g hg => ?_⟩
  · by_cases hqo : q = o
    · subst hqo
      rcases (hm.gain g).mp hg with rfl | hg
      · exact .inr (h.free not_false g hm.before)
      · exact h.uses hq hg
    · exact h.uses hq ((hm.others q hq hqo g).mp hg)
  · exact h.free hn g ((hm.lose g).mp hg).1

lemma give (h : Trail pool own back own') (hm : Moves own' own'' f o .free) : Trail pool own True own'' := by
  refine ⟨h.toPartition.moves hm, fun {q g} hq hg => ?_, fun hn => absurd trivial hn⟩
  by_cases hqo : q = o
  · subst hqo
    exact h.uses hq ((hm.lose g).mp hg).1
  · exact h.uses hq ((hm.others q hqo hq g).mp hg)

lemma congr (h : Trail pool own back own') (he : ∀ o f, own'' o f ↔ own' o f) : Trail pool own back own'' := by
  have : own'' = own' := funext fun o => funext fun f => propext (he o f)
  rwa [this]

end Trail

end Moving

/-! ### Owners in a view -/

/-- The frame `f` belongs to the owner, where `window` has the numbers of the heap pages and `held` are the
frames in the hands of those who allocated them. -/
def View.Owns (V : View) (window : Span) (held : List PhysAddr) : Owner → PhysAddr → Prop
  | .free, f => f ∈ V.free
  | .link l n, f => l < Level.root ∧ V.table? l n = some f
  | .page n, f => n ∈ window ∧ (⟨V.word 0 n⟩ : Entry).Present ∧ (⟨V.word 0 n⟩ : Entry).base = f
  | .root, f => f = V.root
  | .holder, f => f ∈ held

section Steps

variable {V V' : View} {window : Span} {held : List PhysAddr} {v : VirtAddr}

lemma View.mem_rest {f : PhysAddr} {fs : List PhysAddr} (hf : V.free = f :: fs) (hn : f ∉ fs) (g : PhysAddr) :
    g ∈ fs ↔ g ∈ V.free ∧ g ≠ f := by
  rw [hf, List.mem_cons]
  exact ⟨fun hg => ⟨.inr hg, fun he => hn (he ▸ hg)⟩, fun hg => hg.1.resolve_left hg.2⟩

lemma View.mem_first {f : PhysAddr} {fs : List PhysAddr} (hf : V.free = f :: fs) : f ∈ V.free := by
  rw [hf]
  exact List.mem_cons_self ..

lemma View.owns_free (V : View) (fs : List PhysAddr) {p : Owner} (hp : p ≠ .free) (g : PhysAddr) :
    View.Owns { V with free := fs } window held p g ↔ V.Owns window held p g := by
  cases p with
  | free => exact absurd rfl hp
  | link | page | root | holder => rfl

/-- Writing an intermediate entry changes what it links and nothing else. -/
lemma View.owns_setWord {l : Nat} (hl : l < Level.root) (n : Nat) (w : UInt64) {p : Owner} (hp : p ≠ .link l n)
    (g : PhysAddr) : (V.setWord (l + 1) n w).Owns window held p g ↔ V.Owns window held p g := by
  cases p with
  | free | root | holder => rfl
  | link k m =>
    have hne : ¬ (k = l ∧ m = n) := fun he => hp (he.1 ▸ he.2 ▸ rfl)
    simp only [View.Owns, View.table?_setWord_succ hl, if_neg hne]
  | page m => simp only [View.Owns, View.pages_setWord_succ]

lemma View.owns_setWord_self {l : Nat} (hl : l < Level.root) (n : Nat) (w : UInt64) (g : PhysAddr) :
    (V.setWord (l + 1) n w).Owns window held (.link l n) g ↔ childOf V.mapped (l + 1) w = some g := by
  simp only [View.Owns, View.table?_setWord_succ hl, hl, and_self, if_pos, true_and]

/-- A frame that becomes a table was free before. -/
lemma Links.moves (st : Links v V V') :
    ∃ f o, Moves (V.Owns window held) (V'.Owns window held) f .free o := by
  obtain @⟨l, f, fs, below, free, child, fresh, -, absent, -, -⟩ := st
  have hnone : V.table? l (index (l + 1) v) = none := Depicts.table?_of_absent below absent
  refine ⟨f, .link l (index (l + 1) v), View.mem_first free, fun g => ?_, View.mem_rest free fresh.not_free,
    fun o ho hq g => ?_⟩
  · refine (View.owns_free (p := .link l (index (l + 1) v)) _ _ nofun g).trans ?_
    rw [View.owns_setWord_self below, child]
    simp [View.Owns, hnone, eq_comm]
  · exact (View.owns_free _ _ ho g).trans (View.owns_setWord below _ _ hq g)

lemma Unlinks.moves (st : Unlinks v V V') :
    ∃ f o, Moves (V.Owns window held) (V'.Owns window held) f o .free := by
  obtain @⟨l, c, below, child, -, not_free, -, -⟩ := st
  refine ⟨c, .link l (index (l + 1) v), ⟨below, child⟩, fun g => List.mem_cons, fun g => ?_,
    fun o ho hq g => ?_⟩
  · refine (View.owns_free (p := .link l (index (l + 1) v)) _ _ nofun g).trans ?_
    rw [View.owns_setWord_self below, childOf_zero]
    simp [View.Owns, child, eq_comm]
  · exact (View.owns_free _ _ hq g).trans (View.owns_setWord below _ _ ho g)

/-- Writing the entry of a page changes what it owns and nothing else. -/
lemma View.owns_put (V : View) (v : VirtAddr) (w : UInt64) {p : Owner} (hp : p ≠ .page (index 0 v)) (g : PhysAddr) :
    (V.put v w).Owns window held p g ↔ V.Owns window held p g := by
  cases p with
  | free | root | holder => rfl
  | link l n => simp only [View.Owns, V.table?_put]
  | page n =>
    have hn : n ≠ index 0 v := fun he => hp (congrArg _ he)
    simp only [View.Owns, V.pages_put, if_neg hn]

lemma View.owns_put_self (V : View) (v : VirtAddr) (w : UInt64) (g : PhysAddr) :
    (V.put v w).Owns window held (.page (index 0 v)) g ↔
      index 0 v ∈ window ∧ (⟨w⟩ : Entry).Present ∧ (⟨w⟩ : Entry).base = g := by
  simp only [View.Owns, V.pages_put, if_pos]

/-- An entry that owns nothing before and after it is written moves no frame. -/
lemma View.owns_put_idle {w : UInt64} (hold : index 0 v ∈ window → ¬ (V.entry v).Present)
    (hnew : index 0 v ∈ window → ¬ (⟨w⟩ : Entry).Present) (p : Owner) (g : PhysAddr) :
    (V.put v w).Owns window held p g ↔ V.Owns window held p g := by
  by_cases hp : p = .page (index 0 v)
  · subst hp
    rw [V.owns_put_self]
    exact ⟨fun h => absurd h.2.1 (hnew h.1), fun h => absurd h.2.1 (hold h.1)⟩
  · exact V.owns_put v w hp g

end Steps

/-- What a run of the memory core goes on from: the frames with the owners that they have, the numbers of the heap
pages and the root table. -/
structure Setting where
  pool : List PhysAddr
  own : Owner → PhysAddr → Prop
  window : Span
  root : PhysAddr

/-- What holds of the memory core in a run: pages outside of the window have an entry only where a mapping was
`installed`, and pages of the window that are not `used` have none. -/
structure Core (S : Setting) (back : Prop) (held : List PhysAddr) (installed used : Nat → Prop) (V : View) : Prop where
  root : V.root = S.root
  plain : Plain V
  frames : ∀ f ∈ S.pool, IsFrame V.mapped f
  owners : Trail S.pool S.own back (V.Owns S.window held)
  held : held.Nodup
  outside : ∀ n, n ∉ S.window → V.word 0 n = 0 ∨ ((⟨V.word 0 n⟩ : Entry).Present ∧ installed n)
  fresh : ∀ n ∈ S.window, ¬ used n → V.word 0 n = 0

namespace Core

variable {S : Setting} {back : Prop} {held : List PhysAddr} {installed used : Nat → Prop} {V V' : View} {v : VirtAddr}

lemma restart (h : Core S back held installed used V) :
    Core { S with own := V.Owns S.window held } False held installed used V :=
  { h with owners := .refl h.owners.toPartition }

lemma comeBack (h : Core S back held installed used V) : Core S True held installed used V :=
  { h with owners := h.owners.comeBack }

lemma mono (h : Core S back held installed used V) {used' : Nat → Prop} (hu : ∀ n, used n → used' n) :
    Core S back held installed used' V :=
  { h with fresh := fun n hn hnu => h.fresh n hn fun hun => hnu (hu n hun) }

lemma unused (h : Core S back held installed used V) {n : Nat} (hz : V.word 0 n = 0) :
    Core S back held installed (fun m => used m ∧ m ≠ n) V := by
  refine { h with fresh := fun m hm hmu => ?_ }
  by_cases hmn : m = n
  · rw [hmn, hz]
  · exact h.fresh m hm fun hu => hmu ⟨hu, hmn⟩

/-! ### Tables -/

lemma links (h : Core S False held installed used V) (st : Links v V V') : Core S False held installed used V' := by
  have hk := st.keepsPages
  obtain ⟨f, o, hm⟩ := st.moves
  refine ⟨hk.root.trans h.root, h.plain.links st, hk.mapped ▸ h.frames, h.owners.take hm, h.held, ?_, ?_⟩ <;>
    rw [hk.pages]
  · exact h.outside
  · exact h.fresh

lemma unlinks (h : Core S back held installed used V) (st : Unlinks v V V') :
    Core S True held installed used V' := by
  have hk := st.keepsPages
  obtain ⟨f, o, hm⟩ := st.moves
  refine ⟨hk.root.trans h.root, h.plain.unlinks st, hk.mapped ▸ h.frames, h.owners.give hm, h.held, ?_, ?_⟩ <;>
    rw [hk.pages]
  · exact h.outside
  · exact h.fresh

lemma grows (h : Core S False held installed used V) (st : Grows v V V') : Core S False held installed used V' := by
  induction st with
  | refl => exact h
  | tail _ st ih => exact ih.links st

lemma shrinks (h : Core S back held installed used V) (st : Shrinks v V V') :
    Core S True held installed used V' := by
  induction st with
  | refl => exact h.comeBack
  | tail _ st ih => exact ih.unlinks st

/-! ### Pages -/

/-- Frames of heap pages and frames that are held are neither free nor tables. -/
lemma loose (h : Core S back held installed used V) {o : Owner} {f : PhysAddr}
    (ho : V.Owns S.window held o f) (hn : o = .holder ∨ ∃ n, o = .page n) : V.Loose f := by
  refine ⟨h.frames _ ((h.owners.mem _).mpr ⟨_, ho⟩), fun hf => ?_, fun {l n} hl ht => ?_⟩
  · have := h.owners.unique ho (q := .free) hf
    rcases hn with rfl | ⟨n, rfl⟩ <;> cases this
  · rcases Nat.lt_or_eq_of_le hl with hlt | rfl
    · have := h.owners.unique ho (q := .link l n) ⟨hlt, ht⟩
      rcases hn with rfl | ⟨n, rfl⟩ <;> cases this
    · have hroot : f = V.root := by
        rw [View.table?_root] at ht
        split at ht
        · exact (Option.some.inj ht).symm
        · cases ht
      have := h.owners.unique ho (q := .root) hroot
      rcases hn with rfl | ⟨n, rfl⟩ <;> cases this

lemma mark (h : Core S back held installed used V) (hv : index 0 v ∈ S.window) (hu : ¬ used (index 0 v)) :
    Core S back held installed (fun n => used n ∨ n = index 0 v)
      (V.setWord 0 (index 0 v) pendingEntry.raw) := by
  have hpages := V.pages_put v pendingEntry.raw
  have hpending : ¬ (⟨pendingEntry.raw⟩ : Entry).Present := by decide
  have hold : ¬ (V.entry v).Present := by
    unfold View.entry
    rw [h.fresh _ hv hu]
    exact Entry.not_present_zero
  have howners := h.owners.congr (View.owns_put_idle (fun _ => hold) fun _ => hpending)
  have hsame : (V.setWord 0 (index 0 v) pendingEntry.raw).Owns S.window held =
      (V.put v pendingEntry.raw).Owns S.window held := by
    funext o f
    cases o <;> rfl
  refine ⟨h.root, h.plain.put v pendingEntry.raw, h.frames, hsame ▸ howners, h.held, fun n hn => ?_, fun n hn hnu => ?_⟩
  · rw [show (V.setWord 0 (index 0 v) pendingEntry.raw).word 0 n = _ from hpages n,
      if_neg fun he : n = index 0 v => hn (he ▸ hv)]
    exact h.outside n hn
  · obtain ⟨hnu, hne⟩ := not_or.mp hnu
    exact (hpages n).trans ((if_neg hne).trans (h.fresh n hn hnu))

lemma install (h : Core S back held installed used V) (hv : index 0 v ∉ S.window) {w : UInt64}
    (hw : (⟨w⟩ : Entry).Present) :
    Core S back held (fun n => installed n ∨ n = index 0 v) used (V.put v w) := by
  refine ⟨h.root, h.plain.put v _, h.frames, h.owners.congr (View.owns_put_idle (absurd · hv) (absurd · hv)), h.held,
    fun n hn => ?_, fun n hn hnu => ?_⟩
  · rw [V.pages_put]
    by_cases hne : n = index 0 v
    · rw [if_pos hne]
      exact .inr ⟨hw, .inr hne⟩
    · rw [if_neg hne]
      exact (h.outside n hn).imp_right fun hi => ⟨hi.1, .inl hi.2⟩
  · rw [V.pages_put, if_neg fun he : n = index 0 v => hv (he ▸ hn)]
    exact h.fresh n hn hnu

lemma uninstall (h : Core S back held installed used V) (hv : index 0 v ∉ S.window) :
    Core S back held (fun n => installed n ∧ n ≠ index 0 v) used (V.put v 0) := by
  refine ⟨h.root, h.plain.put v _, h.frames, h.owners.congr (View.owns_put_idle (absurd · hv) (absurd · hv)), h.held,
    fun n hn => ?_, fun n hn hnu => ?_⟩
  · rw [V.pages_put]
    by_cases hne : n = index 0 v
    · rw [if_pos hne]
      exact .inl rfl
    · rw [if_neg hne]
      exact (h.outside n hn).imp_right fun hi => ⟨hi.1, hi.2, hne⟩
  · rw [V.pages_put, if_neg fun he : n = index 0 v => hv (he ▸ hn)]
    exact h.fresh n hn hnu

/-- Releasing a page of the window frees the frame behind it. -/
lemma releasePage (h : Core S back held installed used V) (hv : index 0 v ∈ S.window) :
    Core S True held installed (fun n => used n ∧ n ≠ index 0 v) (V.releasePage v) := by
  have howners : Trail S.pool S.own True ((V.releasePage v).Owns S.window held) := by
    unfold View.releasePage
    by_cases hp : (V.entry v).Present
    · rw [if_pos hp]
      refine h.owners.give (f := (V.entry v).base) (o := .page (index 0 v))
        ⟨⟨hv, hp, rfl⟩, fun g => List.mem_cons, fun g => ?_, fun o ho hq g => ?_⟩
      · refine ((V.put v 0).owns_free _ (p := .page (index 0 v)) nofun g).trans ?_
        rw [V.owns_put_self]
        exact ⟨fun hg => absurd hg.2.1 Entry.not_present_zero, fun hg => absurd hg.1.2.2.symm hg.2⟩
      · exact ((V.put v 0).owns_free _ hq g).trans (V.owns_put v 0 ho g)
    · rw [if_neg hp]
      exact h.owners.comeBack.congr (View.owns_put_idle (fun _ => hp) fun _ => Entry.not_present_zero)
  have hpages : ∀ n, (V.releasePage v).word 0 n = if n = index 0 v then 0 else V.word 0 n := V.pages_put v 0
  refine ⟨h.root, h.plain.put v 0, h.frames, howners, h.held, fun n hn => ?_, fun n hn hnu => ?_⟩
  · rw [hpages, if_neg fun he : n = index 0 v => hn (he ▸ hv)]
    exact h.outside n hn
  · rw [hpages]
    split
    · rfl
    · next hne => exact h.fresh n hn fun hu => hnu ⟨hu, hne⟩

/-! ### Frames -/

lemma backPage (h : Core S False held installed used V) (hv : index 0 v ∈ S.window) (hu : used (index 0 v))
    (hp : ¬ (V.entry v).Present) {f : PhysAddr} {fs : List PhysAddr} (hf : V.free = f :: fs) (hn : f ∉ fs)
    {w : UInt64} (hw : (⟨w⟩ : Entry).Present) (hb : (⟨w⟩ : Entry).base = f) :
    Core S False held installed used ({ V with free := fs }.put v w) := by
  refine ⟨h.root, Plain.put (V := { V with free := fs }) h.plain v w, h.frames,
    h.owners.take (f := f) (o := .page (index 0 v))
      ⟨View.mem_first hf, fun g => ?_, View.mem_rest hf hn, fun o ho hq g => ?_⟩,
    h.held, fun n hno => ?_, fun n hnw hnu => ?_⟩
  · rw [View.owns_put_self, hb]
    constructor
    · exact fun hg => .inl hg.2.2.symm
    · rintro (rfl | hg)
      · exact ⟨hv, hw, rfl⟩
      · exact absurd hg.2.1 hp
  · rw [View.owns_put _ v w hq, V.owns_free fs ho]
  · rw [View.pages_put, if_neg fun he : n = index 0 v => hno (he ▸ hv)]
    exact h.outside n hno
  · rw [View.pages_put, if_neg fun he : n = index 0 v => hnu (he ▸ hu)]
    exact h.fresh n hnw hnu

lemma take (h : Core S False held installed used V) {f : PhysAddr} {fs : List PhysAddr} (hf : V.free = f :: fs)
    (hn : f ∉ fs) : Core S False (f :: held) installed used { V with free := fs } := by
  have hfree : V.Owns S.window held .free f := View.mem_first hf
  have hheld : f ∉ held := fun hm => by
    have := h.owners.unique hfree (q := .holder) hm
    cases this
  refine ⟨h.root, h.plain, h.frames, h.owners.take (o := .holder)
    ⟨hfree, fun g => List.mem_cons, View.mem_rest hf hn, fun o ho hq g => ?_⟩,
    List.nodup_cons.mpr ⟨hheld, h.held⟩, h.outside, h.fresh⟩
  cases o with
  | free => exact absurd rfl ho
  | holder => exact absurd rfl hq
  | link | page | root => rfl

lemma give (h : Core S back held installed used V) {f : PhysAddr} (hf : f ∈ held) :
    Core S True (held.erase f) installed used { V with free := f :: V.free } := by
  refine ⟨h.root, h.plain, h.frames, h.owners.give (o := .holder)
    ⟨hf, fun g => List.mem_cons, fun g => ?_, fun o ho hq g => ?_⟩, h.held.erase f, h.outside, h.fresh⟩
  · show g ∈ held.erase f ↔ g ∈ held ∧ g ≠ f
    rw [h.held.mem_erase_iff, and_comm]
  · cases o with
    | free => exact absurd rfl hq
    | holder => exact absurd rfl ho
    | link | page | root => rfl

end Core

end Nucleus.Paging
