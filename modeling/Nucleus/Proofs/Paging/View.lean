import Nucleus.Paging.Demand
import Nucleus.Proofs.Memory.FreeFrames
import Nucleus.Proofs.Paging.Offset

/-!
What a store shows of its page tables. The entries of a level are numbered over the whole address space, so
that entry `n` lies in slot `n % 512` of table `n / 512` and links table `n` of the level below. A `View` gives
each entry by its level and number, an entry without a table being zero, and lists the free frames; `Depicts s V`
says that the tables of the store `s` are a tree of distinct tables apart from the free frames and that `V` is
what they hold. `Shows s V` adds that an entry has room for the address of every frame, so that tables can be linked.
Writing an entry changes the view at this entry alone.
-/

namespace Nucleus.Paging

open Memory

/-! ### Numbers of entries -/

/-- The number of the entry of level `l` that is responsible for `v`; at level 0 the number of its page. -/
def index (l : Nat) (v : VirtAddr) : Nat := v.page % 2 ^ 36 / entriesPerTable ^ l

lemma index_succ (l : Nat) (v : VirtAddr) : index (l + 1) v = index l v / entriesPerTable := by
  unfold index
  rw [show entriesPerTable ^ (l + 1) = entriesPerTable ^ l * entriesPerTable from rfl, Nat.div_div_eq_div_mul]

lemma index_above_root (v : VirtAddr) : index (Level.root + 1) v = 0 := by
  unfold index Level.root entriesPerTable
  omega

lemma slot_eq_index {l : Nat} (hl : l ≤ Level.root) (v : VirtAddr) : slot l v = index l v % entriesPerTable := by
  rw [slot_eq hl, span_eq]
  unfold index Addr.page pageSize entriesPerTable
  unfold Level.root at hl
  obtain rfl | rfl | rfl | rfl : l = 0 ∨ l = 1 ∨ l = 2 ∨ l = 3 := by omega
  all_goals simp only [Nat.reduceMul, Nat.reduceAdd, Nat.reducePow]
  all_goals omega

/-- Addresses with the same page number have the same entries at all levels. -/
lemma index_of_page {v w : VirtAddr} (h : index 0 v = index 0 w) (l : Nat) : index l v = index l w := by
  unfold index at h ⊢
  rw [Nat.pow_zero, Nat.div_one, Nat.div_one] at h
  rw [h]

@[simp] lemma index_pageBase (l : Nat) (v : VirtAddr) : index l v.pageBase = index l v := by
  unfold index
  rw [Addr.page_pageBase]

/-! ### Tables in memory -/

section Reachable

variable {s : Store} {t : PhysAddr} {l : Nat} {v : VirtAddr}

lemma entryIn?_of_mem (h : t ∈ s.frames.mapped) : entryIn? s t l v = some ⟨s.ram.load (slotAddress t l v)⟩ := by
  unfold entryIn?
  rw [Window.visible?_of_mem h]
  rfl

lemma entryIn?_of_not_mem (h : t ∉ s.frames.mapped) : entryIn? s t l v = none := by
  unfold entryIn?
  rw [Window.visible?_of_not_mem h]
  rfl

lemma leafFrom_zero_of_mem (h : t ∈ s.frames.mapped) : leafFrom s v 0 t = some (slotAddress t 0 v) := by
  unfold leafFrom
  rw [Window.visible?_of_mem h]
  rfl

lemma leafFrom_of_not_mem (h : t ∉ s.frames.mapped) : leafFrom s v l t = none := by
  cases l with
  | zero =>
    unfold leafFrom
    rw [Window.visible?_of_not_mem h]
    rfl
  | succ l => rw [leafFrom, entryIn?_of_not_mem h]

end Reachable

/-- The table that an entry of level `l` with the word `w` links, if it is reachable. A large page ends the
hierarchy at the two middle levels. -/
def childOf (mapped : PhysRange) (l : Nat) (w : UInt64) : Option PhysAddr :=
  if (⟨w⟩ : Entry).Present ∧ (l = Level.root ∨ ¬ (⟨w⟩ : Entry).Huge) ∧ (⟨w⟩ : Entry).base ∈ mapped then
    some (⟨w⟩ : Entry).base
  else none

@[simp] lemma childOf_zero (mapped : PhysRange) (l : Nat) : childOf mapped l 0 = none :=
  if_neg fun h => Entry.not_present_zero h.1

lemma childOf_eq_some {mapped : PhysRange} {l : Nat} {w : UInt64} {t : PhysAddr} :
    childOf mapped l w = some t ↔
      (⟨w⟩ : Entry).Present ∧ (l = Level.root ∨ ¬ (⟨w⟩ : Entry).Huge) ∧ (⟨w⟩ : Entry).base ∈ mapped ∧
        (⟨w⟩ : Entry).base = t := by
  unfold childOf
  split
  · next h => exact ⟨fun ht => ⟨h.1, h.2.1, h.2.2, Option.some.inj ht⟩, fun ht => congrArg some ht.2.2.2⟩
  · next h =>
    constructor
    · rintro ⟨⟩
    · exact fun ht => absurd ⟨ht.1, ht.2.1, ht.2.2.1⟩ h

/-- The table number `n` that lies `up` levels below the root. -/
def tableBelow (s : Store) (root : PhysAddr) : Nat → Nat → Option PhysAddr
  | 0, n => if n = 0 ∧ root ∈ s.frames.mapped then some root else none
  | up + 1, n => (tableBelow s root up (n / entriesPerTable)).bind fun t =>
      childOf s.frames.mapped (Level.root - up) (s.ram.slot t (n % entriesPerTable))

def tableAt (s : Store) (root : PhysAddr) (l n : Nat) : Option PhysAddr := tableBelow s root (Level.root - l) n

/-- The entry number `n` of level `l`, zero if its table is not linked. -/
def wordAt (s : Store) (root : PhysAddr) (l n : Nat) : UInt64 :=
  match tableAt s root l (n / entriesPerTable) with
  | none => 0
  | some t => s.ram.slot t (n % entriesPerTable)

lemma tableAt_root (s : Store) (root : PhysAddr) (n : Nat) :
    tableAt s root Level.root n = if n = 0 ∧ root ∈ s.frames.mapped then some root else none := rfl

lemma tableAt_of_lt {s : Store} {root : PhysAddr} {l : Nat} (hl : l < Level.root) (n : Nat) :
    tableAt s root l n = childOf s.frames.mapped (l + 1) (wordAt s root (l + 1) n) := by
  have hup : Level.root - l = (Level.root - (l + 1)) + 1 := by omega
  have hlevel : Level.root - (Level.root - (l + 1)) = l + 1 := by omega
  unfold wordAt tableAt
  rw [hup, tableBelow, hlevel]
  cases tableBelow s root (Level.root - (l + 1)) (n / entriesPerTable) with
  | none => exact (childOf_zero ..).symm
  | some t => rfl

/-! ### Views -/

/-- What a store shows of its page tables and free frames. -/
structure View where
  /-- The physical memory that is reachable. -/
  mapped : PhysRange
  root : PhysAddr
  /-- The entry of the given level and number. -/
  word : Nat → Nat → UInt64
  /-- The free frames, the next one to be handed out first. -/
  free : List PhysAddr
  /-- The addresses whose cached mappings were dropped, in order. -/
  dropped : List VirtAddr

namespace View

variable (V : View)

def table? (l n : Nat) : Option PhysAddr :=
  if l = Level.root then if n = 0 ∧ V.root ∈ V.mapped then some V.root else none
  else childOf V.mapped (l + 1) (V.word (l + 1) n)

/-- Table number `n` of level `l` is linked and holds no entry. -/
def Empty (l n : Nat) : Prop :=
  V.table? l n ≠ none ∧ ∀ i < entriesPerTable, V.word l (entriesPerTable * n + i) = 0

def entry (v : VirtAddr) : Entry := ⟨V.word 0 (index 0 v)⟩

def setWord (l n : Nat) (w : UInt64) : View :=
  { V with word := fun k m => if k = l ∧ m = n then w else V.word k m }

def of (s : Store) (root : PhysAddr) (free : List PhysAddr) : View :=
  ⟨s.frames.mapped, root, wordAt s root, free, s.dropped⟩

variable {V}

lemma table?_root (n : Nat) :
    V.table? Level.root n = if n = 0 ∧ V.root ∈ V.mapped then some V.root else none := if_pos rfl

lemma table?_of_lt {l : Nat} (hl : l < Level.root) (n : Nat) :
    V.table? l n = childOf V.mapped (l + 1) (V.word (l + 1) n) := if_neg (Nat.ne_of_lt hl)

lemma mem_of_table? {l n : Nat} {t : PhysAddr} (h : V.table? l n = some t) : t ∈ V.mapped := by
  unfold table? at h
  split at h
  · split at h
    · next hr => cases h; exact hr.2
    · cases h
  · obtain ⟨-, -, hm, rfl⟩ := childOf_eq_some.mp h
    exact hm

@[simp] lemma entry_pageBase (v : VirtAddr) : V.entry v.pageBase = V.entry v := by
  unfold entry
  rw [index_pageBase]

variable (V) in
lemma word_setWord (k m l n : Nat) (w : UInt64) :
    (V.setWord l n w).word k m = if k = l ∧ m = n then w else V.word k m := rfl

variable (V) in
@[simp] lemma pages_setWord_succ (l n : Nat) (w : UInt64) : (V.setWord (l + 1) n w).word 0 = V.word 0 := by
  funext m
  rw [word_setWord, if_neg fun h => Nat.succ_ne_zero l h.1.symm]

@[simp] lemma free_setWord (l n : Nat) (w : UInt64) : (V.setWord l n w).free = V.free := rfl

/-- Writing an entry changes which table it links, and no other link. -/
lemma table?_setWord {l : Nat} (hl : l ≤ Level.root) (n : Nat) (w : UInt64) (k m : Nat) :
    (V.setWord l n w).table? k m = if k + 1 = l ∧ m = n then childOf V.mapped l w else V.table? k m := by
  unfold table?
  by_cases hk : k = Level.root
  · have hn : ¬ (k + 1 = l ∧ m = n) := by omega
    rw [if_pos hk, if_pos hk, if_neg hn]
    rfl
  · rw [if_neg hk, if_neg hk, word_setWord]
    by_cases h : k + 1 = l ∧ m = n
    · rw [if_pos h, if_pos h, h.1]
      rfl
    · rw [if_neg h, if_neg h]
      rfl

variable (V) in
lemma word_setWord_succ (k m l n : Nat) (w : UInt64) :
    (V.setWord (l + 1) n w).word (k + 1) m = if k = l ∧ m = n then w else V.word (k + 1) m := by
  simp only [word_setWord, Nat.add_right_cancel_iff]

lemma table?_setWord_succ {l : Nat} (hl : l < Level.root) (n : Nat) (w : UInt64) (k m : Nat) :
    (V.setWord (l + 1) n w).table? k m = if k = l ∧ m = n then childOf V.mapped (l + 1) w else V.table? k m := by
  rw [table?_setWord (show l + 1 ≤ Level.root from hl)]
  simp only [Nat.add_right_cancel_iff]

lemma table?_of {s : Store} {root : PhysAddr} {free : List PhysAddr} {l : Nat} (hl : l ≤ Level.root) (n : Nat) :
    (of s root free).table? l n = tableAt s root l n := by
  rcases Nat.lt_or_eq_of_le hl with hlt | rfl
  · rw [table?_of_lt hlt, tableAt_of_lt hlt]
    rfl
  · rw [table?_root, tableAt_root]
    rfl

end View

/-! ### What a store shows -/

/-- The tables of the store `s` are a tree of distinct tables, apart from its free frames, and the view `V` is
what they hold. -/
structure Depicts (s : Store) (V : View) : Prop where
  mapped : s.frames.mapped = V.mapped
  dropped : s.dropped = V.dropped
  free : FreeFrames s V.free
  root : V.root.PageAligned
  words : ∀ {l n t}, l ≤ Level.root → V.table? l n = some t →
    ∀ i < entriesPerTable, s.ram.slot t i = V.word l (entriesPerTable * n + i)
  grounded : ∀ {l n}, l ≤ Level.root → V.table? l (n / entriesPerTable) = none → V.word l n = 0
  distinct : ∀ {l m k n t}, l ≤ Level.root → k ≤ Level.root → V.table? l m = some t →
    V.table? k n = some t → l = k ∧ m = n
  apart : ∀ {l n t}, l ≤ Level.root → V.table? l n = some t → t ∉ V.free

/-- The store `s` depicts `V`, and each frame has an address that fits into an entry. -/
structure Shows (s : Store) (V : View) : Prop extends Depicts s V where
  below : V.mapped.stop.toNat ≤ 2 ^ 52

/-- The hierarchy is a tree: each table is linked in one place. -/
def DistinctTables (s : Store) (root : PhysAddr) : Prop :=
  ∀ {l m k n t}, l ≤ Level.root → k ≤ Level.root → tableAt s root l m = some t → tableAt s root k n = some t →
    l = k ∧ m = n

namespace Depicts

variable {s : Store} {V : View}

theorem of {root : PhysAddr} {fs : List PhysAddr} (hr : root.PageAligned) (hf : FreeFrames s fs)
    (hd : DistinctTables s root) (ha : ∀ {l n t}, l ≤ Level.root → tableAt s root l n = some t → t ∉ fs) :
    Depicts s (.of s root fs) := by
  refine ⟨rfl, rfl, hf, hr, ?_, ?_, ?_, ?_⟩
  · intro l n t hl ht i hi
    rw [View.table?_of hl] at ht
    have hdiv : (entriesPerTable * n + i) / entriesPerTable = n := by unfold entriesPerTable at *; omega
    have hmod : (entriesPerTable * n + i) % entriesPerTable = i := by unfold entriesPerTable at *; omega
    show _ = wordAt s root l _
    unfold wordAt
    rw [hdiv, ht, hmod]
  · intro l n hl ht
    rw [View.table?_of hl] at ht
    show wordAt s root l n = 0
    unfold wordAt
    rw [ht]
  · intro l m k n t hl hk hm hn
    rw [View.table?_of hl] at hm
    rw [View.table?_of hk] at hn
    exact hd hl hk hm hn
  · intro l n t hl ht
    rw [View.table?_of hl] at ht
    exact ha hl ht

variable (h : Depicts s V)

include h

lemma aligned {l n : Nat} {t : PhysAddr} (ht : V.table? l n = some t) : t.PageAligned := by
  unfold View.table? at ht
  split at ht
  · split at ht
    · cases ht
      exact h.root
    · cases ht
  · obtain ⟨-, -, -, rfl⟩ := childOf_eq_some.mp ht
    exact Entry.base_aligned _

lemma slot_eq_word {l n : Nat} {t : PhysAddr} (hl : l ≤ Level.root)
    (ht : V.table? l (n / entriesPerTable) = some t) : s.ram.slot t (n % entriesPerTable) = V.word l n := by
  rw [h.words hl ht _ (Nat.mod_lt _ (by decide)), Nat.div_add_mod]

/-- A view is determined by its store: its tables and entries are those in memory. -/
theorem table?_and_word {l : Nat} (hl : l ≤ Level.root) (n : Nat) :
    tableAt s V.root l n = V.table? l n ∧ wordAt s V.root l n = V.word l n := by
  have hword : ∀ l ≤ Level.root, (∀ n, tableAt s V.root l n = V.table? l n) →
      ∀ n, wordAt s V.root l n = V.word l n := by
    intro l hl ht n
    unfold wordAt
    rw [ht]
    cases hn : V.table? l (n / entriesPerTable) with
    | none => exact (h.grounded hl hn).symm
    | some t => exact h.slot_eq_word hl hn
  -- from the root down: a table is found through the entry above it
  have htable : ∀ up, ∀ l, l + up = Level.root → ∀ n, tableAt s V.root l n = V.table? l n := by
    intro up
    induction up with
    | zero =>
      rintro l rfl n
      show tableAt s V.root Level.root n = V.table? Level.root n
      rw [tableAt_root, View.table?_root, h.mapped]
    | succ up ih =>
      intro l hl n
      rw [tableAt_of_lt (by omega), View.table?_of_lt (by omega), h.mapped,
        hword (l + 1) (by omega) (ih (l + 1) (by omega))]
  have ht := htable (Level.root - l) l (by omega)
  exact ⟨ht n, hword l hl ht n⟩

end Depicts

theorem Shows.of {s : Store} {root : PhysAddr} {fs : List PhysAddr} (hb : s.frames.mapped.stop.toNat ≤ 2 ^ 52)
    (hr : root.PageAligned) (hf : FreeFrames s fs) (hd : DistinctTables s root)
    (ha : ∀ {l n t}, l ≤ Level.root → tableAt s root l n = some t → t ∉ fs) : Shows s (.of s root fs) :=
  ⟨.of hr hf hd ha, hb⟩

/-! ### Zeroed roots -/

lemma wordAt_of_zeroed {s : Store} {root : PhysAddr} (hz : TableEmpty s.ram root) {l : Nat} (hl : l ≤ Level.root)
    (n : Nat) : wordAt s root l n = 0 := by
  unfold wordAt
  rcases Nat.lt_or_eq_of_le hl with hlt | rfl
  · rw [tableAt_of_lt hlt, wordAt_of_zeroed hz hlt, childOf_zero]
  · rw [tableAt_root]
    split
    · rfl
    · next t ht =>
      split at ht
      · cases ht
        exact hz _ (Nat.mod_lt _ (by decide))
      · cases ht
termination_by Level.root - l

lemma tableAt_of_zeroed {s : Store} {root : PhysAddr} (hz : TableEmpty s.ram root) {l n : Nat} {t : PhysAddr}
    (hl : l ≤ Level.root) (ht : tableAt s root l n = some t) : l = Level.root ∧ n = 0 ∧ t = root := by
  rcases Nat.lt_or_eq_of_le hl with hlt | rfl
  · simp [tableAt_of_lt hlt, wordAt_of_zeroed hz hlt] at ht
  · rw [tableAt_root] at ht
    split at ht
    · next h0 =>
      cases ht
      exact ⟨rfl, h0.1, rfl⟩
    · cases ht

lemma Shows.zeroed {s : Store} {root : PhysAddr} {fs : List PhysAddr} (hb : s.frames.mapped.stop.toNat ≤ 2 ^ 52)
    (hr : root.PageAligned) (hz : TableEmpty s.ram root) (hf : FreeFrames s fs) (ha : root ∉ fs) :
    Shows s (.of s root fs) := by
  refine .of hb hr hf ?_ ?_
  · intro l m k n t hl hk hm hn
    obtain ⟨rfl, rfl, -⟩ := tableAt_of_zeroed hz hl hm
    obtain ⟨rfl, rfl, -⟩ := tableAt_of_zeroed hz hk hn
    exact ⟨rfl, rfl⟩
  · intro l n t hl ht
    obtain ⟨-, -, rfl⟩ := tableAt_of_zeroed hz hl ht
    exact ha

/-- A store with a zeroed page at 0x1000 and six free frames after it. -/
def sixFrames : Store := ⟨.ofBackground fun _ => 0, ⟨.identity ⟨⟨0⟩, ⟨0x8000⟩⟩, [⟨2, 8⟩], .null, 6, false⟩, #[]⟩

lemma freeFrames_sixFrames :
    FreeFrames sixFrames [⟨0x7000⟩, ⟨0x6000⟩, ⟨0x5000⟩, ⟨0x4000⟩, ⟨0x3000⟩, ⟨0x2000⟩] :=
  ⟨⟨[], rfl, rfl⟩, nofun, by decide, by decide, rfl⟩

lemma tableEmpty_sixFrames : TableEmpty sixFrames.ram ⟨0x1000⟩ := by decide +kernel

end Nucleus.Paging
