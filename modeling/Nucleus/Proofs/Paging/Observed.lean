import Nucleus.Proofs.Paging.Walk

/-!
What can be observed of the page tables of a store: the number of free frames, the linked tables with their entries,
and the translations. A store in which the tables are a tree apart from the free frames is orderly; it shows a view,
and stores that show equal views cannot be told apart.
-/

namespace Nucleus.Paging

open Memory

/-- The tables below `root` are a tree of distinct tables that the free frames `fs` lie apart from. -/
structure Orderly (s : Store) (root : PhysAddr) (fs : List PhysAddr) : Prop where
  below : s.frames.mapped.stop.toNat ≤ 2 ^ 52
  aligned : root.PageAligned
  distinct : DistinctTables s root
  free : FreeFrames s fs
  apart : ∀ l ≤ Level.root, ∀ n t, tableAt s root l n = some t → t ∉ fs

/-- The stores `s` and `s'` cannot be told apart by their free frames, tables and translations. -/
structure SameTables (s s' : Store) (root : PhysAddr) : Prop where
  freeFrames : s'.frames.count = s.frames.count
  tables : ∀ l ≤ Level.root, ∀ n, tableAt s' root l n = tableAt s root l n
  contents : ∀ l ≤ Level.root, ∀ n t, tableAt s root l n = some t →
    ∀ i < entriesPerTable, s'.ram.slot t i = s.ram.slot t i
  translations : ∀ v, translate s' root v = translate s root v

lemma SameTables.refl (s : Store) (root : PhysAddr) : SameTables s s root :=
  ⟨rfl, fun _ _ _ => rfl, fun _ _ _ _ _ _ _ => rfl, fun _ => rfl⟩

lemma Orderly.shows {s : Store} {root : PhysAddr} {fs : List PhysAddr} (h : Orderly s root fs) :
    Shows s (.of s root fs) :=
  .of h.below h.aligned h.free h.distinct fun hl ht => h.apart _ hl _ _ ht

namespace Shows

variable {s s' : Store} {V V' : View}

lemma orderly (h : Shows s V) : Orderly s V.root V.free := by
  refine ⟨h.mapped ▸ h.below, h.root, ?_, h.free, ?_⟩
  · intro l m k n t hl hk hm hn
    rw [(h.table?_and_word hl m).1] at hm
    rw [(h.table?_and_word hk n).1] at hn
    exact h.distinct hl hk hm hn
  · intro l hl n t ht
    rw [(h.table?_and_word hl n).1] at ht
    exact h.apart hl ht

lemma entry?_eq_some (h : Shows s V) {v : VirtAddr} {e : Entry} :
    entry? s V.root v = some e ↔ (∃ a, V.Leaf v a) ∧ V.entry v = e := by
  unfold entry?
  rw [Option.map_eq_some_iff]
  constructor
  · rintro ⟨a, ha, rfl⟩
    have hleaf := h.leaf?_eq_some.mp ha
    exact ⟨⟨a, hleaf⟩, congrArg Entry.mk (h.load_leaf hleaf).symm⟩
  · rintro ⟨⟨a, ha⟩, rfl⟩
    exact ⟨a, h.leaf?_eq_some.mpr ha, congrArg Entry.mk (h.load_leaf ha)⟩

/-- Stores whose views have the same entries and as many free frames cannot be told apart. -/
lemma sameTables (h : Shows s V) (h' : Shows s' V') (hm : V'.mapped = V.mapped) (hr : V'.root = V.root)
    (hw : ∀ l ≤ Level.root, V'.word l = V.word l) (hf : V'.free.length = V.free.length) :
    SameTables s s' V.root := by
  have htable : ∀ l ≤ Level.root, ∀ n, V'.table? l n = V.table? l n := by
    intro l hl n
    unfold View.table?
    split
    · rw [hm, hr]
    · rw [hm, hw _ (by omega)]
  refine ⟨?_, fun l hl n => ?_, fun l hl n t ht i hi => ?_, fun v => ?_⟩
  · rw [h'.free.count, h.free.count, hf]
  · rw [(h.table?_and_word hl n).1, ← hr, (h'.table?_and_word hl n).1, htable l hl]
  · have ht₀ : V.table? l n = some t := (h.table?_and_word hl n).1.symm.trans ht
    rw [h.words hl ht₀ i hi, h'.words hl ((htable l hl n).trans ht₀) i hi, hw l hl]
  · rw [h.translate_eq, ← hr, h'.translate_eq]
    exact View.translate_congr fun l hl => by rw [hw l hl]

end Shows

/-! ### A small hierarchy -/

def ladderTable (l : Nat) : PhysAddr := .ofNat (pageSize * (Level.root + 1 - l))

/-- The first entry of this table: it links the table below; at level 0 the page waits for its first access. -/
def ladderWord : Nat → UInt64
  | 0 => pendingEntry.raw
  | l + 1 => (linkTo (ladderTable l)).raw

/-- Memory with one table of each level, of which only the first entries are used, and four free frames. -/
def ladder : Store where
  ram := .ofBackground fun i =>
    if i % entriesPerTable = 0 ∧ 1 ≤ i / entriesPerTable ∧ i / entriesPerTable ≤ Level.root + 1 then
      ladderWord (Level.root + 1 - i / entriesPerTable)
    else 0
  frames := ⟨.identity ⟨⟨0⟩, ⟨0x9000⟩⟩, [⟨5, 9⟩], .null, 4, false⟩
  events := #[]

lemma toNat_ladderTable (l : Nat) : (ladderTable l).toNat = pageSize * (Level.root + 1 - l) := by
  refine Addr.toNat_ofNat ?_
  unfold pageSize Level.root
  omega

lemma slot_ladder {l i : Nat} (hl : l ≤ Level.root) (hi : i < entriesPerTable) :
    ladder.ram.slot (ladderTable l) i = if i = 0 then ladderWord l else 0 := by
  have hnumber : (pageSize * (Level.root + 1 - l) + 8 * i) / 8 = entriesPerTable * (Level.root + 1 - l) + i := by
    unfold pageSize entriesPerTable
    omega
  have hload : ladder.ram.slot (ladderTable l) i =
      ladder.ram.background (entriesPerTable * (Level.root + 1 - l) + i) := by
    unfold Ram.slot
    rw [toNat_ladderTable, Ram.load_eq_word (by unfold pageSize; omega), hnumber]
    exact Std.TreeMap.getD_emptyc
  rw [hload]
  unfold ladder Ram.ofBackground Level.root entriesPerTable at *
  dsimp only
  by_cases h0 : i = 0
  · rw [if_pos h0, if_pos (by omega)]
    congr 1
    omega
  · rw [if_neg h0, if_neg (by omega)]

lemma wordAt_ladder_of {l : Nat} (hl : l ≤ Level.root)
    (ht : ∀ n, tableAt ladder ⟨0x1000⟩ l n = if n = 0 then some (ladderTable l) else none) (n : Nat) :
    wordAt ladder ⟨0x1000⟩ l n = if n = 0 then ladderWord l else 0 := by
  unfold wordAt
  rw [ht]
  by_cases hn : n / entriesPerTable = 0
  · have hmod : n % entriesPerTable = n := Nat.mod_eq_of_lt (Nat.lt_of_div_eq_zero (by decide) hn)
    rw [if_pos hn, hmod]
    exact slot_ladder hl (hmod ▸ Nat.mod_lt n (by decide))
  · rw [if_neg hn, if_neg]
    rintro rfl
    exact hn (Nat.zero_div _)

lemma tableAt_ladder {l : Nat} (hl : l ≤ Level.root) (n : Nat) :
    tableAt ladder ⟨0x1000⟩ l n = if n = 0 then some (ladderTable l) else none := by
  rcases Nat.lt_or_eq_of_le hl with hlt | rfl
  · have hframe : IsFrame ladder.frames.mapped (ladderTable l) := by
      unfold Level.root at hlt
      obtain rfl | rfl | rfl : l = 0 ∨ l = 1 ∨ l = 2 := by omega
      all_goals exact ⟨by decide, by decide, by decide⟩
    rw [tableAt_of_lt hlt, wordAt_ladder_of hlt (tableAt_ladder hlt)]
    split
    · exact childOf_linkTo hframe (by decide) (l + 1)
    · exact childOf_zero ..
  · rw [tableAt_root]
    have hroot : (⟨0x1000⟩ : PhysAddr) ∈ ladder.frames.mapped := by decide
    simp only [hroot, and_true]
    rfl
termination_by Level.root - l

lemma wordAt_ladder {l : Nat} (hl : l ≤ Level.root) (n : Nat) :
    wordAt ladder ⟨0x1000⟩ l n = if n = 0 then ladderWord l else 0 :=
  wordAt_ladder_of hl (tableAt_ladder hl) n

lemma orderly_ladder : Orderly ladder ⟨0x1000⟩ [⟨0x8000⟩, ⟨0x7000⟩, ⟨0x6000⟩, ⟨0x5000⟩] := by
  have htable : ∀ {l n t}, l ≤ Level.root → tableAt ladder ⟨0x1000⟩ l n = some t →
      n = 0 ∧ t.toNat = pageSize * (Level.root + 1 - l) := by
    intro l n t hl ht
    rw [tableAt_ladder hl] at ht
    split at ht
    · next hn =>
      cases ht
      exact ⟨hn, toNat_ladderTable l⟩
    · cases ht
  refine ⟨by decide, by decide, ?_, ⟨⟨[], rfl, rfl⟩, nofun, by decide, by decide, rfl⟩, ?_⟩
  · intro l m k n t hl hk hm hn
    obtain ⟨rfl, hl'⟩ := htable hl hm
    obtain ⟨rfl, hk'⟩ := htable hk hn
    unfold pageSize at hl' hk'
    exact ⟨by omega, rfl⟩
  · intro l hl n t ht hm
    obtain ⟨-, haddress⟩ := htable hl ht
    unfold pageSize Level.root at haddress
    have hfree : ∀ f ∈ [(⟨0x8000⟩ : PhysAddr), ⟨0x7000⟩, ⟨0x6000⟩, ⟨0x5000⟩], 0x5000 ≤ f.toNat := by decide
    have := hfree t hm
    omega

end Nucleus.Paging
