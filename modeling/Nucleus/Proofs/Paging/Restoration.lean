import Nucleus.Proofs.Paging.Reservation

/-!
Reservations that succeed and are released again. In between, faults put frames behind some of the pages. The
release takes the frames back with the tables that were made, so the hierarchy is the one before the
reservation, and there is nothing to do for a second release.
-/

namespace Nucleus.Paging

open Memory

/-- Faults at the given addresses, one after the other, whether or not they can be resolved. -/
def touchAll (root : PhysAddr) : List VirtAddr → StoreM Unit
  | [] => return
  | a :: as => do
    let _ ← resolveFault root a
    touchAll root as

section Loops

variable {s : Store} {V₀ : View} {marked idle : VirtAddr → Prop}

lemma Extended.touchAll_ends (h : Extended s V₀ marked idle) {as : List VirtAddr}
    (h0 : ∀ a ∈ as, V₀.word 0 (index 0 a) = 0) :
    Ends (touchAll V₀.root as) s fun _ s' => Extended s' V₀ marked idle := by
  induction as generalizing s with
  | nil => exact ends_pure h
  | cons a as ih =>
    rw [touchAll]
    refine Ends.bind (h.resolveFault_ends (h0 a (List.mem_cons_self ..))) ?_
    exact fun _ s' h' => ih h' fun b hb => h0 b (List.mem_cons_of_mem a hb)

end Loops

/-! ### Back to the start -/

/-- **Releasing what was reserved** brings back the state before the reservation, whatever faults there were at
its pages, and releasing it twice is the same as releasing it once. -/
theorem release_undoes_reservation {s : Store} {root : PhysAddr} {fs : List PhysAddr} {h : Heap}
    (orderly : Orderly s root fs) (tidy : Tidy s root) (brk : h.brk.PageAligned)
    (unused : ∀ v, h.brk ≤ v → v < h.stop → wordAt s root 0 (index 0 v) = 0) (count : Nat) :
    Ends (tryReserve root h count) s fun r s₁ => ∀ v, r.1 = .ok v →
      ∀ as : List VirtAddr, (∀ a ∈ as, v ≤ a ∧ a.toNat < v.toNat + count * pageSize) →
        Ends (touchAll root as) s₁ fun _ s₂ => Ends (release root v count) s₂ fun _ s₃ =>
          SameTables s s₃ root ∧ release root v count s₃ = .ok () s₃ := by
  have hs := orderly.shows
  have ht : (View.of s root fs).Tidy := hs.tidy tidy
  have hnull : ∀ f ∈ (View.of s root fs).free, f ≠ .null := fun f hf => (hs.free.frames f hf).ne_null
  refine (hs.tryReserve_ends ht brk unused count).mono ?_
  rintro _ s₁ (⟨rfl, hu, h₁⟩ | ⟨⟨e, rfl⟩, -⟩)
  swap
  · exact nofun
  rintro v ⟨⟩ as has
  refine (h₁.touchAll_ends fun a ha => hu.word_eq_zero (has a ha).1 (has a ha).2).mono ?_
  intro _ s₂ h₂
  have hmarked : Extended s₂ (View.of s root fs) (Among h.brk 0 (0 + count))
      fun w => (0 < count ∧ w = pageAt h.brk 0) ∨ False := by
    rw [Nat.zero_add]
    exact h₂.mono (fun _ => id) nofun
  refine (Extended.releaseFrom_ends ht hnull hu hmarked).mono ?_
  intro _ s₃ h₃
  obtain ⟨V₃, hs₃, he⟩ := h₃.bare
  have hu₃ : Unused V₃ h.brk 0 count := by
    refine ⟨hu.aligned, hu.fits, fun j hij hj => ?_⟩
    rw [he.word_eq hs (Nat.zero_le _)]
    exact hu.unused j hij hj
  have hagain := hs₃.releaseFrom_eq (he.tidy hs ht) hu₃
  rw [he.root] at hagain
  exact ⟨he.sameTables hs hs₃, hagain⟩

/-- Of two further pages of the ladder the second one gets a frame before both are released. -/
theorem release_undoes_reservation_two_pages : ∃ h' s₁ s₂ s₃,
    tryReserve ⟨0x1000⟩ ⟨⟨0x1000⟩, ⟨0x200000⟩⟩ 2 ladder = .ok (.ok ⟨0x1000⟩, h') s₁ ∧
      touchAll ⟨0x1000⟩ [⟨0x2008⟩] s₁ = .ok () s₂ ∧ translate s₂ ⟨0x1000⟩ ⟨0x2008⟩ = some ⟨0x8008⟩ ∧
      release ⟨0x1000⟩ ⟨0x1000⟩ 2 s₂ = .ok () s₃ ∧ SameTables ladder s₃ ⟨0x1000⟩ ∧
      release ⟨0x1000⟩ ⟨0x1000⟩ 2 s₃ = .ok () s₃ := by
  have hruns : (do
      let r ← tryReserve ⟨0x1000⟩ ⟨⟨0x1000⟩, ⟨0x200000⟩⟩ 2
      touchAll ⟨0x1000⟩ [⟨0x2008⟩]
      return (r.1, translate (← get) ⟨0x1000⟩ ⟨0x2008⟩) : StoreM _).run' ladder =
        some (.ok ⟨0x1000⟩, some ⟨0x8008⟩) := by decide +kernel
  obtain ⟨_, hrun⟩ := eq_ok_of_run' hruns
  obtain ⟨⟨r, h'⟩, s₁, hreserve, hrun⟩ := of_bind_eq_ok hrun
  obtain ⟨_, s₂, htouch, hrun⟩ := of_bind_eq_ok hrun
  obtain ⟨_, _, hget, hrun⟩ := of_bind_eq_ok hrun
  cases hget
  injection hrun with hanswer
  obtain ⟨rfl, hbacked⟩ := Prod.mk.inj hanswer
  have hunused : ∀ v : VirtAddr, ⟨0x1000⟩ ≤ v → v < ⟨0x200000⟩ → wordAt ladder ⟨0x1000⟩ 0 (index 0 v) = 0 := by
    intro v hv hlt
    have hto : v.toNat < 0x200000 := hlt
    exact unused_ladder hv (by omega)
  have hundo := (release_undoes_reservation (h := ⟨⟨0x1000⟩, ⟨0x200000⟩⟩) orderly_ladder tidy_ladder (by decide)
    hunused 2).elim hreserve
  obtain ⟨_, s₃, hrelease, hsame, hagain⟩ := (hundo _ rfl [⟨0x2008⟩] (by decide)).elim htouch
  exact ⟨h', s₁, s₂, s₃, hreserve, htouch, hbacked, hrelease, hsame, hagain⟩

end Nucleus.Paging
