import Nucleus.Proofs.Paging.Backing
import Nucleus.Proofs.Paging.Window

/-!
Releasing a range of pages. Pages that were marked lose their marks and the frames behind them, and the tables
that were made for them are given back on the way, once for each lowest table. In a tidy hierarchy that does not
use the pages there is nothing to release, and the store stays as it is.
-/

namespace Nucleus.Paging

open Memory

/-- `v` is the address of one of the pages from number `i` after `start` on and below number `j`. -/
def Among (start : VirtAddr) (i j : Nat) (v : VirtAddr) : Prop := ∃ k, i ≤ k ∧ k < j ∧ v = pageAt start k

/-- The pages from number `i` after `start` on, of which there are `n`, have addresses, and `V₀` does not use
them. -/
structure Unused (V₀ : View) (start : VirtAddr) (i n : Nat) : Prop where
  aligned : start.PageAligned
  fits : start.toNat + (i + n) * pageSize < 2 ^ 64
  unused : ∀ j, i ≤ j → j < i + n → V₀.word 0 (index 0 (pageAt start j)) = 0

namespace Unused

variable {V₀ : View} {start : VirtAddr} {i n : Nat}

lemma tail (h : Unused V₀ start i (n + 1)) : Unused V₀ start (i + 1) n := by
  have he : i + 1 + n = i + (n + 1) := by omega
  refine ⟨h.aligned, he ▸ h.fits, fun j hj hn => h.unused j (by omega) (by omega)⟩

lemma head_fits (h : Unused V₀ start i (n + 1)) : start.toNat + (i + 1) * pageSize < 2 ^ 64 :=
  Nat.lt_of_le_of_lt (Nat.add_le_add_left (Nat.mul_le_mul_right _ (by omega)) _) h.fits

lemma head_address (h : Unused V₀ start i (n + 1)) : pageFrom start i = .ok (pageAt start i) :=
  pageFrom_eq (Nat.lt_of_le_of_lt (Nat.add_le_add_left (Nat.mul_le_mul_right _ (by omega)) _) h.fits)

lemma head_unused (h : Unused V₀ start i (n + 1)) : V₀.word 0 (index 0 (pageAt start i)) = 0 :=
  h.unused i (Nat.le_refl i) (by omega)

lemma word_eq_zero (h : Unused V₀ start 0 n) {v : VirtAddr} (hv : start ≤ v)
    (hn : v.toNat < start.toNat + n * pageSize) : V₀.word 0 (index 0 v) = 0 := by
  have hle : start.toNat ≤ v.toNat := Addr.le_def.mp hv
  have haligned := h.aligned
  have hfits := h.fits
  rw [Nat.zero_add] at hfits
  let k := (v.toNat - start.toNat) / pageSize
  have hk : k < n := Nat.div_lt_of_lt_mul (by rw [Nat.mul_comm]; omega)
  have hpage : (pageAt start k).page = v.page := by
    have hkn : k * pageSize ≤ n * pageSize := Nat.mul_le_mul_right _ (Nat.le_of_lt hk)
    rw [page_pageAt (by omega)]
    show start.toNat / pageSize + (v.toNat - start.toNat) / pageSize = v.toNat / pageSize
    unfold Addr.PageAligned pageSize at *
    omega
  have hindex : index 0 v = index 0 (pageAt start k) := by
    unfold index
    rw [hpage]
  rw [hindex]
  exact h.unused k (Nat.zero_le k) (by omega)

end Unused

/-! ### Pages with marks -/

/-- **Releasing pages that are marked** takes the marks away. Between two pages the idle tables are on the way
to the next page; after the last page of a table, and after the last page at all, there are none. -/
lemma Extended.releaseFrom_ends {V₀ : View} {s : Store} {start : VirtAddr} (ht : V₀.Tidy)
    (hf : ∀ f ∈ V₀.free, f ≠ .null) {idle : VirtAddr → Prop} {i n : Nat} (hu : Unused V₀ start i n)
    (h : Extended s V₀ (Among start i (i + n)) fun w => (0 < n ∧ w = pageAt start i) ∨ idle w) :
    Ends (releaseFrom V₀.root start i n) s fun _ s' => Extended s' V₀ (fun _ => False) idle := by
  induction n generalizing i s with
  | zero =>
    refine ends_pure (h.mono ?_ ?_)
    · rintro v ⟨k, hik, hki, -⟩
      omega
    · exact fun v hv => hv.elim (fun hn => absurd hn.1 (Nat.lt_irrefl 0)) id
  | succ n ih =>
    rw [releaseFrom, ends_check_bind hu.head_address]
    refine Ends.bind (h.releaseOne_ends hu.head_unused) ?_
    rintro _ s₁ h₁
    have hrest : ∀ v, Among start i (i + (n + 1)) v ∧ index 0 v ≠ index 0 (pageAt start i) →
        Among start (i + 1) (i + 1 + n) v := by
      rintro _ ⟨⟨k, hik, hki, rfl⟩, hne⟩
      refine ⟨k, ?_, by omega, rfl⟩
      rcases Nat.lt_or_eq_of_le hik with hlt | rfl
      · exact hlt
      · exact absurd rfl hne
    have hidle : Extended s₁ V₀ (Among start (i + 1) (i + 1 + n)) fun w => w = pageAt start i ∨ idle w := by
      refine h₁.mono hrest ?_
      rintro v (hv | ⟨-, hv⟩ | hv)
      exacts [.inl hv, .inl hv, .inr hv]
    by_cases hend : n = 0 ∨ EndsTable (pageAt start i)
    · rw [if_pos hend]
      refine Ends.bind (hidle.reclaim_ends ht hf) ?_
      rintro _ s₂ h₂
      exact ih hu.tail (h₂.mono (fun _ => id) fun _ => .inr)
    · rw [if_neg hend]
      obtain ⟨hn, hin⟩ := not_or.mp hend
      -- nothing is given back here, but the tables that may be idle now are above the next page, too
      refine ih hu.tail (hidle.reroute ?_)
      rintro w (rfl | hw)
      · exact ⟨_, .inl ⟨by omega, rfl⟩, fun l => (index_pageAt_succ hu.aligned hu.head_fits hin l).symm⟩
      · exact ⟨w, .inr hw, fun _ => rfl⟩

/-! ### Nothing to release -/

namespace Depicts

variable {s : Store} {V : View} {v : VirtAddr}

/-- The links on the way to an address lead to tables in use, if none of its tables is empty. -/
lemma linksFrom_used (h : Depicts s V) (hu : ∀ l < Level.root, ¬ V.Empty l (index (l + 1) v)) {l : Nat}
    {t : PhysAddr} (hl : l ≤ Level.root) (ht : V.table? l (index (l + 1) v) = some t) :
    ∀ k ∈ linksFrom s v l t, ¬ (k.table ∈ s.frames.mapped ∧ TableEmpty s.ram k.table) := by
  induction l generalizing t with
  | zero => exact fun k hk => nomatch hk
  | succ l ih =>
    rw [linksFrom_succ (h.entryIn?_eq hl ht)]
    split
    · exact fun k hk => nomatch hk
    · next hp =>
      obtain ⟨hpr, hhuge⟩ := not_or.mp hp
      rcases child_or_unreachable hl (not_not.mp hpr) hhuge with hc | ⟨hm, -⟩
      · rintro k (_ | ⟨_, hk⟩)
        · rintro ⟨-, hempty⟩
          refine hu l hl ⟨by rw [hc]; exact Option.some_ne_none _, fun i hi => ?_⟩
          rw [← h.words (Nat.le_of_lt hl) hc i hi]
          exact hempty i hi
        · exact ih (Nat.le_of_lt hl) hc k hk
      · rw [linksFrom_unreachable (h.mapped ▸ hm)]
        intro k hk
        rw [List.mem_singleton.mp hk, h.mapped]
        exact fun hk => hm hk.1

lemma reclaim_eq (h : Depicts s V) (hu : ∀ l < Level.root, ¬ V.Empty l (index (l + 1) v)) :
    reclaim V.root v s = .ok 0 s := by
  have hlinks : ∀ k ∈ (linksFrom s v Level.root V.root).reverse,
      ¬ (k.table ∈ s.frames.mapped ∧ TableEmpty s.ram k.table) := by
    intro k hk
    rw [List.mem_reverse] at hk
    rcases h.root_table (v := v) with ⟨-, ht⟩ | ⟨hr, -⟩
    · exact h.linksFrom_used hu (Nat.le_refl _) ht k hk
    · rw [linksFrom_unreachable hr] at hk
      exact nomatch hk
  have hunlink : unlinkEmpty (linksFrom s v Level.root V.root).reverse 0 s = .ok 0 s := by
    generalize (linksFrom s v Level.root V.root).reverse = ks at hlinks
    cases ks with
    | nil => rfl
    | cons k ks =>
      show (if (s.frames.window.visible? k.table).isSome ∧ TableEmpty s.ram k.table then _ else _ : StoreM Nat) s = _
      rw [if_neg fun hk => hlinks k (List.mem_cons_self ..) ⟨Window.isSome_visible?.mp hk.1, hk.2⟩]
      rfl
  unfold reclaim
  exact bind_of_ok hunlink

end Depicts

namespace Shows

variable {s : Store} {V : View} {v : VirtAddr}

lemma releaseOne_eq (h : Shows s V) (h0 : V.word 0 (index 0 v) = 0) : releaseOne V.root v s = .ok () s := by
  have hunmap : unmap V.root v s = .ok none s := by
    unfold unmap
    have hget : (get : StoreM Store) s = .ok s s := rfl
    rw [bind_of_ok hget]
    cases hl : leaf? s V.root v with
    | none => rfl
    | some a =>
      have hload := (h.load_leaf (h.leaf?_eq_some.mp hl)).trans h0
      have hentry : getEntry a s = .ok ⟨s.ram.load a⟩ s := rfl
      dsimp only
      rw [bind_of_ok hentry]
      exact congrFun (if_pos hload) s
  unfold releaseOne
  exact bind_of_ok hunmap

/-- Releasing pages that a tidy hierarchy does not use does nothing at all. -/
lemma releaseFrom_eq (h : Shows s V) (ht : V.Tidy) {start : VirtAddr} {i n : Nat} (hu : Unused V start i n) :
    releaseFrom V.root start i n s = .ok () s := by
  induction n generalizing i with
  | zero => rfl
  | succ n ih =>
    have haddress : Store.check (pageFrom start i) s = .ok (pageAt start i) s := by
      rw [hu.head_address]
      rfl
    rw [releaseFrom, bind_of_ok haddress, bind_of_ok (h.releaseOne_eq hu.head_unused)]
    by_cases hend : n = 0 ∨ EndsTable (pageAt start i)
    · rw [if_pos hend, bind_of_ok (h.reclaim_eq fun l hl => ht.used l hl _)]
      exact ih hu.tail
    · rw [if_neg hend]
      exact ih hu.tail

end Shows

end Nucleus.Paging
