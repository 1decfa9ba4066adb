import Nucleus.Proofs.Paging.Branch
import Nucleus.Proofs.Paging.Observed

/-!
Mappings that fail. A large page or an unreachable table on the way is found before any table is made, and then all is
as before. A lack of frames is found when some tables may have been made already: these are not given back, so the
mapping has used up the last free frames for a branch that holds no entry.
-/

namespace Nucleus.Paging

open Memory Relation

variable {s : Store} {V V' : View} {v : VirtAddr}

lemma Grows.eq_of_free_nil (h : Grows v V V') (hf : V.free = []) : V' = V := by
  rcases ReflTransGen.cases_head h with heq | ⟨V₁, st, -⟩
  · exact heq.symm
  · obtain @⟨l, f, fs, -, free, -, -, -, -, -, -⟩ := st
    rw [free] at hf
    cases hf

/-- **A mapping that fails** has made tables on the way without writing an entry of a page. -/
lemma Shows.map_fails (h : Shows s V) (p : PhysAddr) (flags : Flags) : Ends (map V.root v p flags) s fun r s' =>
    ∀ e, r = .error e → ∃ V', Grows v V V' ∧ Shows s' V' ∧ Made V V' v (.error e) := by
  unfold map
  refine Ends.bind (P := fun _ s' => Shows s' V) (ends_modify (h.emit rfl)) ?_
  rintro _ s₁ h₁
  refine Ends.bind h₁.leafOrCreate_made ?_
  rintro (e | a) s₂ ⟨V', hg, h₂, hmade⟩
  · apply ends_pure
    intro e' he
    obtain rfl := Except.error.inj he
    exact ⟨V', hg, h₂, hmade⟩
  · refine Ends.bind (h₂.setEntry_leaf (hmade.leaf a rfl) _) ?_
    intro _ s₃ _
    exact ends_modify_bind.mpr (ends_pure nofun)

/-- **What a failed mapping leaves behind.** In every orderly store a mapping ends, and one that fails leaves the store
as it was exactly where it did not run out of frames or where there were none to begin with. Where it ran out of
frames, no frame is free any more: all of them are tables now, a branch on the way to `v` without entries, and the
hierarchy apart from it and all translations are as before. -/
theorem failed_map_keeps_or_spends {root : PhysAddr} {fs : List PhysAddr} (h : Orderly s root fs) (v : VirtAddr)
    (p : PhysAddr) (flags : Flags) : Ends (map root v p flags) s fun r s' => ∀ e, r = .error e →
      (SameTables s s' root ↔ e ≠ .outOfMemory ∨ s.frames.count = 0) ∧
      (e = .outOfMemory → s'.frames.count = 0 ∧ ∃ low, WithBranch s s' root v low fs.reverse) := by
  refine (h.shows.map_fails p flags).mono ?_
  intro r s' hfails e he
  obtain ⟨V', hg, hs', hmade⟩ := hfails e he
  have hs := h.shows
  have hsame : V' = .of s root fs → SameTables s s' root := by
    rintro rfl
    exact hs.sameTables hs' rfl rfl (fun _ _ => rfl) rfl
  refine ⟨⟨fun hst => ?_, ?_⟩, ?_⟩
  · -- all frames were spent, and there were some
    by_contra hboth
    obtain ⟨hoom, hpos⟩ := not_or.mp hboth
    have hspent := hmade.spent (congrArg _ (not_not.mp hoom))
    have hcount := hs'.free.count
    rw [hst.freeFrames, hspent] at hcount
    exact hpos hcount
  · rintro (hne | hzero)
    · -- any other failure comes before the first table is made
      exact hsame (hmade.unchanged e rfl hne)
    · have hnil : fs = [] := List.length_eq_zero_iff.mp (h.free.count.symm.trans hzero)
      exact hsame (hg.eq_of_free_nil hnil)
  · rintro rfl
    have hspent := hmade.spent rfl
    obtain ⟨low, ts, hb⟩ := hg.branch hs.toGrounded
    have hts : fs = ts.reverse := by
      have hfree : fs = ts.reverse ++ V'.free := hb.free
      rw [hfree, hspent, List.append_nil]
    refine ⟨?_, low, ?_⟩
    · rw [hs'.free.count, hspent, List.length_nil]
    · rw [hts, List.reverse_reverse]
      exact hs.withBranch hs'.toDepicts hb

lemma orderly_single : Orderly .single ⟨0x1000⟩ [⟨0x2000⟩] :=
  (Shows.zeroed (by decide) (by decide) (by decide +kernel) freeFrames_single (by decide)).orderly

/-- With one free frame, the first of three missing tables is made and stays. -/
theorem failed_map_keeps_or_spends_one_frame : Orderly .single ⟨0x1000⟩ [⟨0x2000⟩] ∧ ∃ s' low,
    map ⟨0x1000⟩ ⟨0x40000000⟩ ⟨0x7000⟩ .writable .single = .ok (.error .outOfMemory) s' ∧ s'.frames.count = 0 ∧
      WithBranch .single s' ⟨0x1000⟩ ⟨0x40000000⟩ low [⟨0x2000⟩] := by
  have hrun : (map ⟨0x1000⟩ ⟨0x40000000⟩ ⟨0x7000⟩ .writable).run' .single = some (.error .outOfMemory) := by
    decide +kernel
  obtain ⟨s', hrun⟩ := eq_ok_of_run' hrun
  have hends := failed_map_keeps_or_spends orderly_single ⟨0x40000000⟩ ⟨0x7000⟩ .writable
  obtain ⟨-, hspent⟩ := hends.elim hrun _ rfl
  obtain ⟨hcount, low, hwith⟩ := hspent rfl
  exact ⟨orderly_single, s', low, hrun, hcount, hwith⟩

/-- A mapping that fails can leave less free frames than before. -/
theorem failed_map_takes_frame : ¬ ∀ (s : Store) (root : PhysAddr) (fs : List PhysAddr), Orderly s root fs →
    ∀ (v : VirtAddr) (p : PhysAddr) (flags : Flags) (e : MapError) (s' : Store),
      map root v p flags s = .ok (.error e) s' → SameTables s s' root := by
  intro hclaim
  have hrun : ((map ⟨0x1000⟩ ⟨0x40000000⟩ ⟨0x7000⟩ .writable >>= fun r =>
      return (r, (← get).frames.count)).run' .single) = some (.error .outOfMemory, 0) := by decide +kernel
  obtain ⟨t, ht⟩ := eq_ok_of_run' hrun
  obtain ⟨r, s', hmap, hpair⟩ := of_bind_eq_ok ht
  injection hpair with hpair
  obtain ⟨rfl, hzero⟩ := Prod.mk.inj hpair
  have hsame := hclaim .single ⟨0x1000⟩ [⟨0x2000⟩] orderly_single _ _ _ _ _ hmap
  have hone : s'.frames.count = 1 := hsame.freeFrames
  omega

end Nucleus.Paging
