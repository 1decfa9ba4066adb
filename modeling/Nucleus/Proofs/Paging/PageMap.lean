import Nucleus.Proofs.Paging.Plain

/-!
The page tables as a map from page numbers to entries. Starting from a zeroed root, hierarchies stay plain
whatever the operations do, so that all walks come to the same entry of a page: a run of the operations is a
run on the map of these entries.
-/

namespace Nucleus.Paging

open Memory Relation

/-! ### The map and its operations -/

/-- The entry of each page by the number of the page, which are bits 12 to 47 of an address; zero if it has
none. -/
abbrev PageMap : Type := Nat → UInt64

namespace PageMap

def entry (M : PageMap) (v : VirtAddr) : Entry := ⟨M (index 0 v)⟩

def set (M : PageMap) (v : VirtAddr) (e : Entry) : PageMap := fun n => if n = index 0 v then e.raw else M n

lemma entry_set_of_ne {M : PageMap} {v w : VirtAddr} (h : index 0 v ≠ index 0 w) (e : Entry) :
    (M.set w e).entry v = M.entry v := congrArg Entry.mk (if_neg h)

lemma entry_foldl_of_ne {M : PageMap} {v w : VirtAddr} (h : index 0 v ≠ index 0 w) (es : List Entry) :
    (es.foldl (fun M e => M.set w e) M).entry v = M.entry v := by
  induction es generalizing M with
  | nil => rfl
  | cons e es ih => exact ih.trans (entry_set_of_ne h e)

end PageMap

inductive TableOp where
  | map (v : VirtAddr) (p : PhysAddr) (flags : Flags)
  | unmap (v : VirtAddr)
  /-- Makes the missing tables and writes entries in the place of the page, one after the other. -/
  | create (v : VirtAddr) (entries : List Entry)
  | reclaim (v : VirtAddr)

inductive TableAnswer where
  | mapped (r : Except MapError Unit)
  | unmapped (old : Option Entry)
  | created (r : Except MapError Unit)
  | reclaimed (tables : Nat)
  deriving DecidableEq

def writeAll (a : Nat) : List Entry → StoreM Unit
  | [] => return
  | e :: es => do
    setEntry a e
    writeAll a es

namespace TableOp

def address : TableOp → VirtAddr
  | map v _ _ | unmap v | create v _ | reclaim v => v

def run (root : PhysAddr) : TableOp → StoreM TableAnswer
  | map v p flags => return .mapped (← Paging.map root v p flags)
  | unmap v => return .unmapped (← Paging.unmap root v)
  | create v es => do
    match ← leafOrCreate root v with
    | .error e => return .created (.error e)
    | .ok a =>
      writeAll a es
      return .created (.ok ())
  | reclaim v => return .reclaimed (← Paging.reclaim root v)

def runAll (root : PhysAddr) : List TableOp → StoreM (List TableAnswer)
  | [] => return []
  | op :: ops => do
    let answer ← op.run root
    return answer :: (← runAll root ops)

end TableOp

/-- What an operation does to the map when it gives the answer. -/
inductive MapStep (M : PageMap) : TableOp → TableAnswer → PageMap → Prop where
  | mapped (v : VirtAddr) (p : PhysAddr) (flags : Flags) :
      MapStep M (.map v p flags) (.mapped (.ok ())) (M.set v (.make p (flags ∪ .present)))
  | mapFailed (v : VirtAddr) (p : PhysAddr) (flags : Flags) (e : MapError) :
      MapStep M (.map v p flags) (.mapped (.error e)) M
  | unmapped (v : VirtAddr) (used : ¬ (M.entry v).Unused) :
      MapStep M (.unmap v) (.unmapped (some (M.entry v))) (M.set v .empty)
  | nothingMapped (v : VirtAddr) (unused : (M.entry v).Unused) : MapStep M (.unmap v) (.unmapped none) M
  | created (v : VirtAddr) (es : List Entry) :
      MapStep M (.create v es) (.created (.ok ())) (es.foldl (fun M e => M.set v e) M)
  | createFailed (v : VirtAddr) (es : List Entry) (e : MapError) :
      MapStep M (.create v es) (.created (.error e)) M
  | reclaimed (v : VirtAddr) (n : Nat) : MapStep M (.reclaim v) (.reclaimed n) M

inductive MapRun : PageMap → List TableOp → List TableAnswer → PageMap → Prop where
  | nil (M : PageMap) : MapRun M [] [] M
  | cons {M M' M'' : PageMap} {op : TableOp} {ops : List TableOp} {answer : TableAnswer}
      {answers : List TableAnswer} (step : MapStep M op answer M') (rest : MapRun M' ops answers M'') :
      MapRun M (op :: ops) (answer :: answers) M''

/-- What the tables below `root` tell about each page is what the map holds. -/
structure Holds (s : Store) (root : PhysAddr) (M : PageMap) : Prop where
  found : ∀ v, ¬ (M.entry v).Unused → entry? s root v = some (M.entry v)
  unused : ∀ v, (M.entry v).Unused → entry? s root v = none ∨ entry? s root v = some .empty
  translated : ∀ v, translate s root v = if (M.entry v).Present then
    some (.ofNat ((M.entry v).base.toNat + v.toNat % pageSize)) else none

/-! ### Steps on the map -/

lemma View.pages_put_eq_set (V : View) (v : VirtAddr) (e : Entry) :
    (V.put v e.raw).word 0 = PageMap.set (V.word 0) v e := funext (V.pages_put v e.raw)

/-- The entries of the pages of a plain hierarchy are all that can be looked up. -/
lemma Shows.holds {s : Store} {V : View} (h : Shows s V) (hp : Plain V) : Holds s V.root (V.word 0) := by
  refine ⟨fun v hu => ?_, fun v hu => ?_, fun v => ?_⟩
  · have hleaf : ∃ a, V.Leaf v a := by
      by_contra hn
      exact hu ((h.word_zero_of_no_leaf (not_exists.mp hn)).resolve_left hp.not_barred)
    obtain ⟨a, ha⟩ := hleaf
    unfold entry?
    rw [h.leaf?_eq_some.mpr ha, Option.map_some, h.load_leaf ha]
    rfl
  · unfold entry?
    cases hl : leaf? s V.root v with
    | none => exact .inl rfl
    | some a =>
      right
      rw [Option.map_some, h.load_leaf (h.leaf?_eq_some.mp hl), show V.word 0 (index 0 v) = 0 from hu]
      rfl
  · rw [h.translate_eq, hp.translate_eq h (Nat.le_refl _), byteOf_page]
    rfl

namespace TableOp

variable {s : Store} {V : View}

lemma writeAll_ends {v : VirtAddr} {a : Nat} (h : Shows s V) (hp : Plain V) (ha : V.Leaf v a) (es : List Entry) :
    Ends (writeAll a es) s fun _ s' => ∃ V', Shows s' V' ∧ Plain V' ∧ V'.root = V.root ∧
      V'.word 0 = es.foldl (fun M e => PageMap.set M v e) (V.word 0) := by
  induction es generalizing s V with
  | nil => exact ends_pure ⟨V, h, hp, rfl, rfl⟩
  | cons e es ih =>
    refine Ends.bind (h.setEntry_leaf ha e) ?_
    rintro _ s₁ h₁
    have hp₁ : Plain (V.setWord 0 (index 0 v) e.raw) := hp.put v e.raw
    have ha₁ : (V.setWord 0 (index 0 v) e.raw).Leaf v a := by
      refine ⟨hp₁.not_barred, ?_⟩
      obtain ⟨-, t, ht, hat⟩ := ha
      exact ⟨t, (V.table?_put v e.raw 0 _).trans ht, hat⟩
    refine (ih h₁ hp₁ ha₁).mono ?_
    rintro _ s' ⟨V', h', hp', hr', hw'⟩
    refine ⟨V', h', hp', hr', hw'.trans ?_⟩
    rw [List.foldl_cons, ← V.pages_put_eq_set v e]
    rfl

/-- **Every operation is a step on the map**: it ends, and the tables it leaves are plain again. -/
lemma run_ends (h : Shows s V) (hp : Plain V) (op : TableOp) : Ends (op.run V.root) s fun answer s' =>
    ∃ V', Shows s' V' ∧ Plain V' ∧ V'.root = V.root ∧ MapStep (V.word 0) op answer (V'.word 0) := by
  cases op with
  | map v p flags =>
    refine Ends.bind (h.map_ends p flags) ?_
    rintro r s' ⟨V', hg, (⟨e, rfl, h'⟩ | ⟨rfl, -, h'⟩)⟩
    · refine ends_pure ⟨V', h', hp.grows hg, hg.keepsPages.root, ?_⟩
      rw [hg.keepsPages.pages]
      exact .mapFailed v p flags e
    · refine ends_pure ⟨_, h', (hp.grows hg).put v _, hg.keepsPages.root, ?_⟩
      rw [V'.pages_put_eq_set, hg.keepsPages.pages]
      exact .mapped v p flags
  | unmap v =>
    refine Ends.bind h.unmap_ends ?_
    rintro r s' (⟨rfl, h', hz⟩ | ⟨rfl, hnz, -, h'⟩)
    · exact ends_pure ⟨V, h', hp, rfl, .nothingMapped v (hz.resolve_left hp.not_barred)⟩
    · refine ends_pure ⟨_, h', hp.put v 0, rfl, ?_⟩
      rw [show (V.put v 0).word 0 = _ from V.pages_put_eq_set v .empty]
      exact .unmapped v hnz
  | create v es =>
    refine Ends.bind h.leafOrCreate_ends ?_
    rintro r s₁ ⟨V', hg, h₁, ha⟩
    have hk := hg.keepsPages
    cases r with
    | error e =>
      refine ends_pure ⟨V', h₁, hp.grows hg, hk.root, ?_⟩
      rw [hk.pages]
      exact .createFailed v es e
    | ok a =>
      refine Ends.bind (writeAll_ends h₁ (hp.grows hg) (ha a rfl) es) ?_
      rintro _ s₂ ⟨V'', h₂, hp₂, hr₂, hw₂⟩
      refine ends_pure ⟨V'', h₂, hp₂, hr₂.trans hk.root, ?_⟩
      rw [hw₂, hk.pages]
      exact .created v es
  | reclaim v =>
    refine Ends.bind (h.reclaim_ends hp.nullInUse) ?_
    rintro n s' ⟨V', hs, h', -, -⟩
    refine ends_pure ⟨V', h', hp.shrinks hs, hs.keepsPages.root, ?_⟩
    rw [hs.keepsPages.pages]
    exact .reclaimed v n

lemma runAll_ends (h : Shows s V) (hp : Plain V) (ops : List TableOp) : Ends (runAll V.root ops) s
    fun answers s' => ∃ V', Shows s' V' ∧ Plain V' ∧ V'.root = V.root ∧
      MapRun (V.word 0) ops answers (V'.word 0) := by
  induction ops generalizing s V with
  | nil => exact ends_pure ⟨V, h, hp, rfl, .nil _⟩
  | cons op ops ih =>
    refine Ends.bind (op.run_ends h hp) ?_
    rintro answer s₁ ⟨V₁, h₁, hp₁, hr₁, hstep⟩
    have hrest := ih h₁ hp₁
    rw [hr₁] at hrest
    refine Ends.bind hrest ?_
    rintro answers s₂ ⟨V₂, h₂, hp₂, hr₂, hrun⟩
    exact ends_pure ⟨V₂, h₂, hp₂, hr₂, .cons hstep hrun⟩

end TableOp

lemma MapStep.entry_of_ne {M M' : PageMap} {op : TableOp} {answer : TableAnswer} (st : MapStep M op answer M')
    {v : VirtAddr} (hv : index 0 v ≠ index 0 op.address) : M'.entry v = M.entry v := by
  cases st with
  | mapped | unmapped => exact PageMap.entry_set_of_ne hv _
  | created w es => exact PageMap.entry_foldl_of_ne hv es
  | mapFailed | nothingMapped | createFailed | reclaimed => rfl

/-! ### Runs from a zeroed root -/

/-- **The page tables refine a map.** From a zeroed root on, every run of operations ends, its answers and the
map of all pages follow the steps on the map, and looking up and translating read this map. No operation on one
page changes the translation of another one. -/
theorem tables_refine_map {s : Store} {root : PhysAddr} {fs : List PhysAddr}
    (below : s.frames.mapped.stop.toNat ≤ 2 ^ 52) (aligned : root.PageAligned) (zeroed : TableEmpty s.ram root)
    (free : FreeFrames s fs) (apart : root ∉ fs) (ops : List TableOp) :
    Ends (TableOp.runAll root ops) s fun answers s' => ∃ M, MapRun (fun _ => 0) ops answers M ∧ Holds s' root M ∧
      ∀ op : TableOp, Ends (op.run root) s' fun answer t => ∃ M', MapStep M op answer M' ∧ Holds t root M' ∧
        ∀ v, index 0 v ≠ index 0 op.address → translate t root v = translate s' root v := by
  have hshows := Shows.zeroed below aligned zeroed free apart
  refine (TableOp.runAll_ends hshows (.zeroed zeroed) ops).mono ?_
  rintro answers s' ⟨V, h, hp, hr, hrun⟩
  have hempty : (View.of s root fs).word 0 = fun _ => 0 := funext (wordAt_of_zeroed zeroed (Nat.zero_le _))
  have hroot : V.root = root := hr
  rw [hempty] at hrun
  subst hroot
  refine ⟨V.word 0, hrun, h.holds hp, fun op => (op.run_ends h hp).mono ?_⟩
  rintro answer t ⟨V', h', hp', hr', hstep⟩
  have hholds : Holds t V.root (V'.word 0) := hr' ▸ h'.holds hp'
  refine ⟨V'.word 0, hstep, hholds, fun v hv => ?_⟩
  rw [hholds.translated, (h.holds hp).translated, hstep.entry_of_ne hv]

def mapTwo : List TableOp :=
  [.map ⟨0x40000000⟩ ⟨0x9000⟩ .writable, .map ⟨0x40001000⟩ ⟨0xA000⟩ .writable]

/-- Two pages are mapped, and one of them is unmapped through its last byte. -/
theorem tables_refine_map_two_pages : ∃ s t M M',
    TableOp.runAll ⟨0x1000⟩ mapTwo sixFrames = .ok [.mapped (.ok ()), .mapped (.ok ())] s ∧
      MapRun (fun _ => 0) mapTwo [.mapped (.ok ()), .mapped (.ok ())] M ∧ Holds s ⟨0x1000⟩ M ∧
      translate s ⟨0x1000⟩ ⟨0x40000FFF⟩ = some ⟨0x9FFF⟩ ∧
      (TableOp.unmap ⟨0x40000FFF⟩).run ⟨0x1000⟩ s =
        .ok (.unmapped (some (.make ⟨0x9000⟩ (.writable ∪ .present)))) t ∧
      MapStep M (.unmap ⟨0x40000FFF⟩) (.unmapped (some (.make ⟨0x9000⟩ (.writable ∪ .present)))) M' ∧
      Holds t ⟨0x1000⟩ M' ∧ translate t ⟨0x1000⟩ ⟨0x40000FFF⟩ = none ∧
      translate t ⟨0x1000⟩ ⟨0x40001008⟩ = some ⟨0xA008⟩ := by
  have hknown : (do
      let answers ← TableOp.runAll ⟨0x1000⟩ mapTwo
      let s ← get
      let answer ← (TableOp.unmap ⟨0x40000FFF⟩).run ⟨0x1000⟩
      let t ← get
      return (answers, answer, translate s ⟨0x1000⟩ ⟨0x40000FFF⟩, translate t ⟨0x1000⟩ ⟨0x40000FFF⟩,
        translate t ⟨0x1000⟩ ⟨0x40001008⟩) : StoreM _).run' sixFrames =
      some ([.mapped (.ok ()), .mapped (.ok ())], .unmapped (some (.make ⟨0x9000⟩ (.writable ∪ .present))),
        some ⟨0x9FFF⟩, none, some ⟨0xA008⟩) := by decide +kernel
  obtain ⟨_, hrun⟩ := eq_ok_of_run' hknown
  obtain ⟨answers, s, hmaps, hrun⟩ := of_bind_eq_ok hrun
  obtain ⟨_, _, hget, hrun⟩ := of_bind_eq_ok hrun
  cases hget
  obtain ⟨answer, t, hunmap, hrun⟩ := of_bind_eq_ok hrun
  obtain ⟨_, _, hget, hrun⟩ := of_bind_eq_ok hrun
  cases hget
  injection hrun with hanswer
  simp only [Prod.mk.injEq] at hanswer
  obtain ⟨rfl, rfl, hfirst, hgone, hother⟩ := hanswer
  obtain ⟨M, hM, hholds, hsteps⟩ := (tables_refine_map (by decide) (by decide) tableEmpty_sixFrames
    freeFrames_sixFrames (by decide) mapTwo).elim hmaps
  obtain ⟨M', hM', hholds', -⟩ := (hsteps (.unmap ⟨0x40000FFF⟩)).elim hunmap
  exact ⟨s, t, M, M', hmaps, hM, hholds, hfirst, hunmap, hM', hholds', hgone, hother⟩

end Nucleus.Paging
