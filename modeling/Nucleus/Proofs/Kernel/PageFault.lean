import Nucleus.Kernel.PowerOn
import Nucleus.Proofs.Kernel.Quiet
import Nucleus.Proofs.Paging.Fault
import Nucleus.Proofs.Paging.PageMap

/-!
The reaction to page faults. It resumes the interrupted code exactly where a frame could be put behind a page that
waits for its first access; everything else halts the machine and leaves the memory core as it was.
-/

namespace Nucleus.Kernel

open Memory Paging Trap

/-! ### The cause -/

lemma notPresent_iff (address : VirtAddr) (table : PhysAddr) (code rip : UInt64) :
    (PageFault.new address table code rip).NotPresent ↔ code &&& 1 = 0 := by
  have hbit : (code &&& 0x1F) &&& 1 = code &&& 1 := by
    rw [UInt64.and_assoc]
    rfl
  have hval : (code &&& 1).toNat = code.toNat % 2 := Nat.and_two_pow_sub_one_eq_mod code.toNat 1
  show ¬ ((code &&& 0x1F) &&& 1 = 1) ↔ _
  rw [hbit, ← UInt64.toNat_inj, ← UInt64.toNat_inj, hval]
  show ¬ (code.toNat % 2 = 1) ↔ code.toNat % 2 = 0
  omega

/-! ### Trying to resolve a fault -/

lemma keepHeap_eq_ok {α : Type} {g : PhysAddr → StoreM α} {root : PhysAddr} {heap heap' : Heap} {s s' : Store} {a : α} :
    keepHeap g root heap s = .ok (a, heap') s' ↔ g root s = .ok a s' ∧ heap' = heap := by
  show EStateM.bind (g root) _ s = _ ↔ _
  unfold EStateM.bind
  cases g root s with
  | ok b t =>
    constructor
    · rintro ⟨⟩
      exact ⟨rfl, rfl⟩
    · rintro ⟨⟨⟩, rfl⟩
      rfl
  | error e t =>
    constructor
    · nofun
    · nofun

section Resolve

variable {i : Interrupting} {m m' : Machine} {core : MemoryCore} {a : VirtAddr}

/-- The core is in use, or not set up. -/
def Machine.Unavailable (m : Machine) : Prop := m.memoryBusy = true ∨ m.memory = none

lemma tryResolve_of_unavailable (h : m.Unavailable) : tryResolve a i m = .ok none m := by
  show (if m.memoryBusy = true then _ else _ : KernelM _) i m = _
  by_cases hb : m.memoryBusy = true
  · rw [if_pos hb]
    rfl
  · rw [if_neg hb]
    show (if m.memoryBusy = true then _ else _ : KernelM _) i m = _
    rw [if_neg hb, h.resolve_left hb]
    rfl

/-- The outcome on the core that is available is the one on the store. -/
lemma answer_of_tryResolve (hm : m.memory = some core) (hb : m.memoryBusy = false)
    {r : Option (Except UnresolvedFault PhysAddr)} (h : tryResolve a i m = .ok r m') :
    ∃ x s, resolveFault m.root a (m.store core) = .ok x s ∧ r = some x := by
  have hcore : withCore (keepHeap fun root => resolveFault root a) i m = .ok r m' := by
    rw [← h]
    show _ = (if m.memoryBusy = true then _ else _ : KernelM _) i m
    rw [hb]
    rfl
  obtain ⟨x, heap, s, hop, rfl⟩ := answer_of_withCore hm hcore
  exact ⟨x, s, (keepHeap_eq_ok.mp hop).1, rfl⟩

lemma tryResolve_finishes (hq : m.Quiet) (hm : m.memory = some core) (hb : m.memoryBusy = false)
    {x : Except UnresolvedFault PhysAddr} {s : Store} (hs : resolveFault m.root a (m.store core) = .ok x s) :
    Finishes (tryResolve a) i m fun r m' =>
      r = some x ∧ Told s.dropped { m with ram := s.ram, memory := some ⟨s.frames, core.heap⟩ } m' := by
  have hfree : ¬ m.memoryBusy = true := by
    rw [hb]
    exact Bool.false_ne_true
  unfold tryResolve
  rw [finishes_get_bind, if_neg hfree]
  exact withCore_finishes hq hb hm ((keepHeap_eq_ok (g := fun root => resolveFault root a)).mpr ⟨hs, rfl⟩)

end Resolve

/-! ### Answers -/

/-- What is left to do about a fault once it was tried to resolve it. -/
def afterAttempt (fault : PageFault) (f : Frame) : Option (Except UnresolvedFault PhysAddr) → KernelM Outcome
  | some (.ok frame) => do
    log (memoryRecord .trace ("[PF] " ++ fault.address.pretty ++ " backed by " ++ frame.pretty))
    return .resume
  | some (.error e) => do
    log (memoryRecord .error ("[PF] cannot resolve: " ++ e.message))
    reportPageFault fault f
  | none => do
    log (memoryRecord .error "[PF] memory core unavailable")
    reportPageFault fault f

section Handle

variable {i : Interrupting} {m m' : Machine} {core : MemoryCore} {f : Frame} {o : Outcome} {fault : PageFault}
  {r : Option (Except UnresolvedFault PhysAddr)} {fs : List PhysAddr}

lemma handlePageFault_eq : handlePageFault f i m =
    let fault := PageFault.new m.faultAddress m.root f.errorCode f.interrupted.rip
    if f.errorCode &&& 1 = 0 then EStateM.bind (tryResolve m.faultAddress i) (fun r => afterAttempt fault f r i) m
    else reportPageFault fault f i m := by
  have hcause := notPresent_iff m.faultAddress m.root f.errorCode f.interrupted.rip
  show (if PageFault.NotPresent _ then _ else _ : KernelM Outcome) i m = _
  by_cases hp : f.errorCode &&& 1 = 0
  · rw [if_pos (hcause.mpr hp), if_pos hp]
    refine congrArg (fun k => EStateM.bind (tryResolve m.faultAddress i) k m) (funext fun r => ?_)
    rcases r with _ | _ | _ <;> rfl
  · rw [if_neg fun hn => hp (hcause.mp hn), if_neg hp]

lemma answer_of_report (h : reportPageFault fault f i m = .ok o m') : o = .halt := by
  obtain ⟨_, _, -, h⟩ := of_kernel_bind_eq_ok h
  obtain ⟨_, _, -, h⟩ := of_kernel_bind_eq_ok h
  cases h
  rfl

lemma answer_of_afterAttempt (h : afterAttempt fault f r i m = .ok o m') : o = .resume ↔ ∃ g, r = some (.ok g) := by
  rcases r with _ | e | g <;> obtain ⟨_, _, -, h⟩ := of_kernel_bind_eq_ok h
  · simp [answer_of_report h]
  · simp [answer_of_report h]
  · cases h
    simp

lemma report_finishes (hq : m.Quiet) :
    Finishes (reportPageFault fault f) i m fun o m' => o = .halt ∧ Told [] m m' := by
  refine Finishes.bind (log_finishes hq _) ?_
  rintro _ m₁ ht
  refine Finishes.bind (log_finishes ht.quiet _) ?_
  rintro _ m₂ ht'
  exact finishes_pure ⟨rfl, ht.trans ht'⟩

lemma afterAttempt_finishes (hq : m.Quiet) (fault : PageFault) (r : Option (Except UnresolvedFault PhysAddr)) :
    Finishes (afterAttempt fault f r) i m fun _ m' => Told [] m m' := by
  rcases r with _ | e | g <;> refine Finishes.bind (log_finishes hq _) ?_ <;> rintro _ m₁ ht
  · exact (report_finishes ht.quiet).mono fun _ _ h => ht.trans h.2
  · exact (report_finishes ht.quiet).mono fun _ _ h => ht.trans h.2
  · exact finishes_pure ht

/-- **Without the core**, faults halt the machine. -/
lemma halts_of_unavailable (hu : m.Unavailable) (h : handlePageFault f i m = .ok o m') : o = .halt := by
  rw [handlePageFault_eq] at h
  dsimp only at h
  split at h
  · obtain ⟨r, t, hr, h⟩ := of_bind_eq_ok h
    rw [tryResolve_of_unavailable hu] at hr
    cases hr
    have hanswer := answer_of_afterAttempt h
    cases o with
    | halt => rfl
    | resume => simp at hanswer
  · exact answer_of_report h

lemma handlePageFault_finishes_of_unavailable (hu : m.Unavailable) (hq : m.Quiet) :
    Finishes (handlePageFault f) i m fun _ _ => True := by
  unfold Finishes
  rw [handlePageFault_eq]
  dsimp only
  split
  · obtain ⟨o, m', ho, -⟩ := afterAttempt_finishes (i := i) (f := f) hq
      (.new m.faultAddress m.root f.errorCode f.interrupted.rip) none
    refine ⟨o, m', ?_, trivial⟩
    unfold EStateM.bind
    rw [tryResolve_of_unavailable hu]
    exact ho
  · exact (report_finishes hq).mono fun _ _ _ => trivial

/-- **The answer to a fault** does not depend on what comes in between. -/
lemma resume_iff (hm : m.memory = some core) (hb : m.memoryBusy = false) (ho : Orderly (m.store core) m.root fs)
    (h : handlePageFault f i m = .ok o m') :
    o = .resume ↔ f.errorCode &&& 1 = 0 ∧ PageWaits (m.store core) m.root m.faultAddress ∧ 0 < core.frames.count := by
  have hcount : 0 < core.frames.count ↔ fs ≠ [] := by
    rw [show core.frames.count = fs.length from ho.free.count]
    exact List.length_pos_iff
  rw [hcount]
  rw [handlePageFault_eq] at h
  dsimp only at h
  split at h
  · next hbit =>
    obtain ⟨r, t, hr, h⟩ := of_bind_eq_ok h
    obtain ⟨x, s, hs, rfl⟩ := answer_of_tryResolve hm hb hr
    rw [answer_of_afterAttempt h]
    rcases (ho.resolveFault_ends m.faultAddress).elim hs with ⟨hw, g, fs', rfl, rfl, -⟩ | ⟨hn, ⟨e, rfl⟩, -⟩
    · simp [hbit, hw]
    · simp only [hbit, true_and, hn, iff_false]
      nofun
  · next hbit =>
    simp [answer_of_report h, hbit]

end Handle

/-! ### Effects -/

/-- The machine `m'` has the core `core'` in the place of `core`, ready for use and with the same heap. -/
structure Replaces (m m' : Machine) (core core' : MemoryCore) : Prop where
  memory : m'.memory = some core'
  heap : core'.heap = core.heap
  root : m'.root = m.root
  unlocked : m'.memoryBusy = false
  quiet : m'.Quiet

section Effects

variable {i : Interrupting} {m m' : Machine} {core core' : MemoryCore} {f : Frame} {fs : List PhysAddr}

lemma Told.replaces {vs : List VirtAddr} {s : Store} (hb : m.memoryBusy = false)
    (h : Told vs { m with ram := s.ram, memory := some ⟨s.frames, core.heap⟩ } m') :
    Replaces m m' core ⟨s.frames, core.heap⟩ ∧
      m'.store ⟨s.frames, core.heap⟩ = { s with events := #[] } ∧ m'.invalidations = m.invalidations ++ vs := by
  refine ⟨⟨h.memory, rfl, h.root, h.memoryBusy.trans hb, h.quiet⟩, ?_, h.invalidations⟩
  unfold Machine.store
  rw [h.ram]

/-- What a fault leaves behind: a frame behind the page, or everything as it was. -/
lemma handlePageFault_finishes (hq : m.Quiet) (hm : m.memory = some core) (hb : m.memoryBusy = false)
    (ho : Orderly (m.store core) m.root fs) : Finishes (handlePageFault f) i m fun o m' => ∃ core',
      Replaces m m' core core' ∧
      (o = .resume → ∃ g fs', fs = g :: fs' ∧ Orderly (m'.store core') m.root fs' ∧
        Backed (m.store core) (m'.store core') m.root m.faultAddress g ∧
        m'.invalidations = m.invalidations ++ [m.faultAddress.pageBase]) ∧
      (o = .halt → SameTables (m.store core) (m'.store core') m.root ∧ m'.invalidations = m.invalidations) := by
  unfold Finishes
  rw [handlePageFault_eq]
  dsimp only
  split
  · -- the page was not present: the kernel tries to put a frame behind it
    obtain ⟨x, s, hs, hcases⟩ := ho.resolveFault_ends m.faultAddress
    refine Finishes.bind (tryResolve_finishes hq hm hb hs) ?_
    rintro _ m₁ ⟨rfl, ht₁⟩
    obtain ⟨o, m₂, hrun, ht₂⟩ := afterAttempt_finishes (i := i) (f := f) ht₁.quiet
      (.new m.faultAddress m.root f.errorCode f.interrupted.rip) (some x)
    have hanswer := answer_of_afterAttempt hrun
    have ht := ht₁.trans ht₂
    rw [List.append_nil] at ht
    obtain ⟨hreplaces, hstore, hinv⟩ := ht.replaces hb
    refine ⟨o, m₂, hrun, _, hreplaces, ?_, ?_⟩ <;> rintro rfl <;> rw [hstore, hinv]
    · rcases hcases with ⟨-, g, fs', hfs, -, hdropped, hall⟩ | ⟨-, ⟨e, rfl⟩, -⟩
      · refine ⟨g, fs', hfs, (hall #[]).1, (hall #[]).2, ?_⟩
        rw [hdropped]
        rfl
      · simp at hanswer
    · rcases hcases with ⟨-, g, fs', -, rfl, -⟩ | ⟨-, -, hdropped, hall⟩
      · simp at hanswer
      · refine ⟨(hall #[]).2, ?_⟩
        rw [hdropped]
        exact List.append_nil _
  · -- any other fault is reported only
    refine (report_finishes hq).mono ?_
    rintro _ m' ⟨rfl, ht⟩
    refine ⟨core, ⟨ht.memory.trans hm, rfl, ht.root, ht.memoryBusy.trans hb, ht.quiet⟩, nofun, fun _ => ⟨?_, ?_⟩⟩
    · have hstore : m'.store core = m.store core := by
        unfold Machine.store
        rw [ht.ram]
      rw [hstore]
      exact .refl _ _
    · rw [ht.invalidations, List.append_nil]

lemma halts_of_not_waits (hq : m.Quiet) (hm : m.memory = some core) (hb : m.memoryBusy = false)
    (ho : Orderly (m.store core) m.root fs) (hn : ¬ PageWaits (m.store core) m.root m.faultAddress) :
    ∃ m' core', handlePageFault f i m = .ok .halt m' ∧ m'.memory = some core' ∧
      core'.frames.count = core.frames.count := by
  obtain ⟨o, m', h, core', hr, -, hhalt⟩ := handlePageFault_finishes (i := i) (f := f) hq hm hb ho
  cases o with
  | resume => exact absurd ((resume_iff hm hb ho h).mp rfl).2.1 hn
  | halt => exact ⟨m', core', h, hr.memory, (hhalt rfl).1.freeFrames⟩

end Effects

/-- After a fault on `m` was resumed with the machine `m'`: the first free frame is behind the page and nothing else
changed, the cached mapping of the page was dropped, and a further fault on the page halts and takes no frame. -/
structure Resumed (i : Interrupting) (m m' : Machine) (core core' : MemoryCore) (fs : List PhysAddr) : Prop where
  heap : core'.heap = core.heap
  backed : ∃ g fs', fs = g :: fs' ∧ FreeFrames (m'.store core') fs' ∧
    Backed (m.store core) (m'.store core') m.root m.faultAddress g
  invalidated : m'.invalidations = m.invalidations ++ [m.faultAddress.pageBase]
  again : ∀ f w, index 0 w = index 0 m.faultAddress → ∃ m'' core'',
    handlePageFault f i { m' with faultAddress := w } = .ok .halt m'' ∧ m''.memory = some core'' ∧
      core''.frames.count = core'.frames.count

/-- After a fault on `m` halted with the machine `m'`: the heap, the tables and the translations are as before. -/
structure Halted (m m' : Machine) (core core' : MemoryCore) : Prop where
  heap : core'.heap = core.heap
  same : SameTables (m.store core) (m'.store core') m.root
  invalidations : m'.invalidations = m.invalidations

/-- **The policy of page faults.** A fault is resumed exactly if the page was not present, its entry waits for the
first access and a frame is left. Then the frame is behind the page; else nothing changes. Without the core all faults
halt. The answers hold whatever traps come in between, the effects where none does. -/
theorem page_fault_policy (i : Interrupting) (m : Machine) (f : Frame) :
    (m.memoryBusy = true ∨ m.memory = none →
      (∀ o m', handlePageFault f i m = .ok o m' → o = .halt) ∧
        (m.Quiet → ∃ m', handlePageFault f i m = .ok .halt m')) ∧
    ∀ core fs, m.memory = some core → m.memoryBusy = false → Orderly (m.store core) m.root fs →
      (∀ o m', handlePageFault f i m = .ok o m' → (o = .resume ↔
        f.errorCode &&& 1 = 0 ∧ PageWaits (m.store core) m.root m.faultAddress ∧ 0 < core.frames.count)) ∧
      (m.Quiet → ∃ o m' core', handlePageFault f i m = .ok o m' ∧ m'.memory = some core' ∧
        (o = .resume → Resumed i m m' core core' fs) ∧ (o = .halt → Halted m m' core core')) := by
  refine ⟨fun hu => ⟨fun o m' h => halts_of_unavailable hu h, fun hq => ?_⟩, fun core fs hm hb ho =>
    ⟨fun o m' h => resume_iff hm hb ho h, fun hq => ?_⟩⟩
  · obtain ⟨o, m', h, -⟩ := handlePageFault_finishes_of_unavailable (i := i) (f := f) hu hq
    obtain rfl := halts_of_unavailable hu h
    exact ⟨m', h⟩
  · obtain ⟨o, m', h, core', hr, hresume, hhalt⟩ := handlePageFault_finishes (i := i) (f := f) hq hm hb ho
    refine ⟨o, m', core', h, hr.memory, fun he => ?_, fun he => ⟨hr.heap, (hhalt he).1, (hhalt he).2⟩⟩
    obtain ⟨g, fs', hfs, ho', hbacked, hinv⟩ := hresume he
    refine ⟨hr.heap, ⟨g, fs', hfs, ho'.free, hbacked⟩, hinv, fun f' w hw => ?_⟩
    have hnot : ¬ PageWaits (m'.store core') m'.root w := hr.root ▸ hbacked.not_waits ho' hw
    exact halts_of_not_waits (m := { m' with faultAddress := w }) ⟨hr.quiet.running, hr.quiet.silent⟩ hr.memory
      hr.unlocked (hr.root ▸ ho') hnot

/-- The computer with the ladder as its memory, after a fault in the page that waits. -/
def waitingMachine : Machine :=
  { Machine.powerOn ladder.ram ⟨0, 0⟩ with
    root := ⟨0x1000⟩
    faultAddress := ⟨0x123⟩
    memory := some ⟨ladder.frames, ⟨⟨0x1000⟩, ⟨0x200000⟩⟩⟩ }

/-- The first write to a heap page. -/
theorem page_fault_policy_first_write : ∃ core m' core' g, waitingMachine.memory = some core ∧
    handlePageFault ⟨.zero, 14, 2, ⟨0, 8, 0x202, 0, 0x10⟩⟩ (fun _ => throw .stuck) waitingMachine = .ok .resume m' ∧
      m'.memory = some core' ∧ Backed (waitingMachine.store core) (m'.store core') ⟨0x1000⟩ ⟨0x123⟩ g := by
  obtain ⟨hiff, hends⟩ := (page_fault_policy (fun _ => throw .stuck) waitingMachine
    ⟨.zero, 14, 2, ⟨0, 8, 0x202, 0, 0x10⟩⟩).2 _ _ rfl rfl orderly_ladder
  obtain ⟨o, m', core', h, hm, hresume, -⟩ := hends ⟨rfl, nofun⟩
  have hentry : entry? ladder ⟨0x1000⟩ ⟨0x123⟩ = some pendingEntry := by decide +kernel
  obtain rfl : o = .resume :=
    (hiff o m' h).mpr ⟨by decide, ⟨pendingEntry, hentry, by decide, by decide⟩, by decide⟩
  obtain ⟨g, fs', -, -, hbacked⟩ := (hresume rfl).backed
  exact ⟨_, m', core', g, rfl, h, hm, hbacked⟩

end Nucleus.Kernel
