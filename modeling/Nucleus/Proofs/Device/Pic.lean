import Mathlib.Data.List.Nodup
import Mathlib.Tactic.Common
import Nucleus.Device.Pic

/-!
Runs of calls on the interrupt controllers. Whether a line is suppressed is decided by the latest accepted call about
that line alone, although a remap overwrites both mask registers on its way, and from the first accepted remap on the
16 lines arrive on 16 vectors above those of the exceptions.
-/

namespace Nucleus.Device

/-! ### Single bits of a mask -/

section Bits

variable {m a b : UInt8}

lemma toBitVec_bit (ha : a < 8) : (1 <<< a : UInt8).toBitVec = BitVec.twoPow 8 a.toNat := by
  have hmod : a.toBitVec % 8 = a.toBitVec := BitVec.eq_of_toNat_eq (Nat.mod_eq_of_lt ha)
  rw [UInt8.toBitVec_shiftLeft, hmod]
  rfl

lemma getLsbD_bit (ha : a < 8) : (1 <<< a : UInt8).toBitVec.getLsbD b.toNat = decide (b = a) := by
  have hlt : a.toNat < 8 := ha
  rw [toBitVec_bit ha, BitVec.getLsbD_twoPow, decide_eq_true hlt, Bool.true_and]
  exact decide_eq_decide.mpr (UInt8.toNat_inj.trans eq_comm)

lemma and_bit_ne_zero (ha : a < 8) : m &&& (1 <<< a) ≠ 0 ↔ m.toBitVec.getLsbD a.toNat = true := by
  have hlt : a.toNat < 8 := ha
  rw [ne_eq, ← UInt8.toBitVec_inj, UInt8.toBitVec_and, toBitVec_bit ha, BitVec.and_twoPow]
  by_cases h : m.toBitVec.getLsbD a.toNat = true
  · simp only [h, if_true, iff_true]
    intro hz
    have hbit := congrArg (BitVec.getLsbD · a.toNat) hz
    simp [hlt] at hbit
  · simp [h]

/-- `change` gives the bit that it gets the value `v`, and leaves the other bits of the mask as they are. -/
def Puts (v : Bool) (change : UInt8 → UInt8 → UInt8) : Prop :=
  ∀ m a b : UInt8, a < 8 → b < 8 →
    (change m (1 <<< a) &&& (1 <<< b) ≠ 0 ↔ if b = a then v = true else m &&& (1 <<< b) ≠ 0)

lemma puts_or : Puts true fun m bit => m ||| bit := by
  intro m a b ha hb
  rw [and_bit_ne_zero hb, and_bit_ne_zero hb, UInt8.toBitVec_or, BitVec.getLsbD_or, getLsbD_bit ha]
  split <;> simp_all

lemma puts_and_not : Puts false fun m bit => m &&& ~~~bit := by
  intro m a b ha hb
  have hlt : b.toNat < 8 := hb
  rw [and_bit_ne_zero hb, and_bit_ne_zero hb, UInt8.toBitVec_and, UInt8.toBitVec_not, BitVec.getLsbD_and,
    BitVec.getLsbD_not, getLsbD_bit ha]
  split <;> simp_all

end Bits

/-! ### Windows -/

/-- Windows of eight vectors that do not overlap, for both start at multiples of eight. -/
structure Apart (windows : UInt8 × UInt8) : Prop where
  master : windows.1 % 8 = 0
  slave : windows.2 % 8 = 0
  ne : windows.1 ≠ windows.2

/-- Both windows lie above the vectors of the exceptions. -/
structure Above (windows : UInt8 × UInt8) : Prop extends Apart windows where
  master_le : 32 ≤ windows.1
  slave_le : 32 ≤ windows.2

def vectorOf (windows : UInt8 × UInt8) (line : UInt8) : UInt8 :=
  if line < 8 then windows.1 + line else windows.2 + (line - 8)

def powerOnWindows : UInt8 × UInt8 := (0x08, 0x70)

lemma apart_powerOnWindows : Apart powerOnWindows := ⟨rfl, rfl, by decide⟩

/-! ### Calls -/

inductive PicCall where
  | remap (master slave : UInt8)
  | mask (line : UInt8)
  | unmask (line : UInt8)
  | acknowledge (line : UInt8)
  deriving DecidableEq, Repr

namespace PicCall

/-- Whether the call suppresses the line or lets it through, if it does one of both. -/
def switch? (line : UInt8) : PicCall → Option Bool
  | mask l => if line = l then some true else none
  | unmask l => if line = l then some false else none
  | _ => none

/-- The first vectors of the windows that the call moves to, if it moves them. -/
def windows? : PicCall → Option (UInt8 × UInt8)
  | remap m s => some (m, s)
  | _ => none

end PicCall

namespace Controllers

/-- The step of a call. Acknowledging has no answer, and is never refused. -/
def call (c : Controllers) : PicCall → PicStep (Except PicError Unit)
  | .remap m s => c.remap m s
  | .mask l => c.mask l
  | .unmask l => c.unmask l
  | .acknowledge l => { c.acknowledge l with answer := .ok () }

def windows (c : Controllers) : UInt8 × UInt8 := (c.masterBase, c.slaveBase)

variable {c : Controllers} {k l : UInt8}

lemma toNat_lt_of_lt_lineCount (hl : l < lineCount) : l.toNat < 16 := hl

lemma mod_eight_lt (l : UInt8) : l % 8 < 8 := by
  show (l % 8).toNat < 8
  rw [UInt8.toNat_mod]
  exact Nat.mod_lt _ (by decide)

/-- Among the lines of one controller, the bit tells the line. -/
lemma mod_eight_inj (hk : k < lineCount) (hl : l < lineCount) (hside : k < 8 ↔ l < 8) : k % 8 = l % 8 ↔ k = l := by
  have hk := toNat_lt_of_lt_lineCount hk
  have hl := toNat_lt_of_lt_lineCount hl
  have hside : k.toNat < 8 ↔ l.toNat < 8 := hside
  rw [← UInt8.toNat_inj, ← UInt8.toNat_inj, UInt8.toNat_mod, UInt8.toNat_mod]
  show k.toNat % 8 = l.toNat % 8 ↔ _
  omega

lemma masks_updateMask (hl : l < lineCount) (change : UInt8 → UInt8 → UInt8) :
    (c.updateMask l change).controllers.masks =
      if l < 8 then { c.masks with master := change c.masks.master (1 <<< (l % 8)) }
      else { c.masks with slave := change c.masks.slave (1 <<< (l % 8)) } := by
  unfold updateMask
  rw [if_neg (UInt8.not_le.mpr hl)]
  split <;> rfl

lemma masked_updateMask {change : UInt8 → UInt8 → UInt8} {v : Bool} (hchange : Puts v change)
    (hk : k < lineCount) (hl : l < lineCount) :
    (c.updateMask l change).controllers.masks.Masked k ↔ if k = l then v = true else c.masks.Masked k := by
  rw [masks_updateMask hl]
  unfold MaskRegisters.Masked
  by_cases hside : k < 8 ↔ l < 8
  · have hbit (m : UInt8) : change m (1 <<< (l % 8)) &&& (1 <<< (k % 8)) ≠ 0 ↔
        if k = l then v = true else m &&& (1 <<< (k % 8)) ≠ 0 := by
      simpa only [mod_eight_inj hk hl hside] using hchange m _ _ (mod_eight_lt l) (mod_eight_lt k)
    by_cases hl8 : l < 8
    · rw [if_pos hl8, if_pos (hside.mpr hl8), if_pos (hside.mpr hl8), hbit]
    · rw [if_neg hl8, if_neg (hl8 ∘ hside.mp), if_neg (hl8 ∘ hside.mp), hbit]
  · have hne : k ≠ l := fun h => hside (h ▸ Iff.rfl)
    rw [if_neg hne]
    by_cases hl8 : l < 8
    · have hk8 : ¬ k < 8 := fun h => hside ⟨fun _ => hl8, fun _ => h⟩
      rw [if_pos hl8, if_neg hk8, if_neg hk8]
    · have hk8 : k < 8 := by_contra fun h => hside ⟨fun h' => absurd h' h, fun h' => absurd h' hl8⟩
      rw [if_neg hl8, if_pos hk8, if_pos hk8]

lemma masks_remap (c : Controllers) (m s : UInt8) : (c.remap m s).controllers.masks = c.masks := by
  unfold remap
  split <;> rfl

lemma controllers_acknowledge (c : Controllers) (l : UInt8) : (c.acknowledge l).controllers = c := by
  unfold acknowledge acknowledgement
  split <;> rfl

/-- What an accepted call does: it moves the windows and switches lines as it says, and no more. -/
structure Accepted (c : Controllers) (call : PicCall) (step : PicStep (Except PicError Unit)) : Prop where
  answer : step.answer = .ok ()
  windows : step.controllers.windows = call.windows?.getD c.windows
  above : ∀ w ∈ call.windows?, Above w
  masked : ∀ l < lineCount,
    step.controllers.masks.Masked l ↔ (call.switch? l).elim (c.masks.Masked l) (· = true)

/-- What a refused call does: nothing. -/
structure Refused (c : Controllers) (step : PicStep (Except PicError Unit)) : Prop where
  answer : ∃ e, step.answer = .error e
  controllers : step.controllers = c
  accesses : step.accesses = []

/-- Remaps to windows below or across each other are refused. -/
lemma above_of_remapRefusal? {m s : UInt8} (h : remapRefusal? m s = none) : Above (m, s) := by
  unfold remapRefusal? at h
  split at h
  · cases h
  split at h
  · cases h
  split at h
  · cases h
  · next hm hs hne =>
    obtain ⟨hm32, hm8⟩ := not_not.mp hm
    obtain ⟨hs32, hs8⟩ := not_not.mp hs
    exact ⟨⟨hm8, hs8, hne⟩, hm32, hs32⟩

lemma remap_cases (c : Controllers) (m s : UInt8) :
    Accepted c (.remap m s) (c.remap m s) ∨ Refused c (c.remap m s) := by
  have hmasks := masks_remap c m s
  unfold remap at *
  cases h : remapRefusal? m s with
  | some e => exact .inr ⟨⟨_, rfl⟩, rfl, rfl⟩
  | none =>
    rw [h] at hmasks
    refine .inl ⟨rfl, rfl, ?_, fun l _ => ?_⟩
    · rintro w ⟨⟩
      exact above_of_remapRefusal? h
    · rw [hmasks]
      rfl

lemma updateMask_cases {change : UInt8 → UInt8 → UInt8} {v : Bool} {call : PicCall} (hchange : Puts v change)
    (hw : call.windows? = none) (hs : ∀ k, call.switch? k = if k = l then some v else none) :
    Accepted c call (c.updateMask l change) ∨ Refused c (c.updateMask l change) := by
  by_cases hl : lineCount ≤ l
  · -- there is no such line, and both mask registers are left alone
    refine .inr ?_
    unfold updateMask
    rw [if_pos hl]
    exact ⟨⟨_, rfl⟩, rfl, rfl⟩
  · have hl' : l < lineCount := UInt8.not_le.mp hl
    refine .inl ⟨?_, ?_, ?_, fun k hk => ?_⟩
    · unfold updateMask
      rw [if_neg hl]
      rfl
    · rw [hw]
      unfold updateMask
      rw [if_neg hl]
      rfl
    · rw [hw]
      nofun
    · rw [masked_updateMask hchange hk hl', hs]
      split <;> rfl

/-- **One call** is accepted or refused. -/
lemma call_cases (c : Controllers) (k : PicCall) : Accepted c k (c.call k) ∨ Refused c (c.call k) := by
  cases k with
  | remap m s => exact remap_cases c m s
  | mask l => exact updateMask_cases puts_or rfl fun _ => rfl
  | unmask l => exact updateMask_cases puts_and_not rfl fun _ => rfl
  -- an acknowledgement goes to the command ports and leaves masks and windows alone
  | acknowledge l =>
    have hsame := controllers_acknowledge c l
    exact .inl ⟨rfl, congrArg windows hsame, nofun, fun l _ => by
      show (c.acknowledge _).controllers.masks.Masked l ↔ _
      rw [hsame]
      rfl⟩

/-! ### The vectors of the lines -/

/-- Windows that start at a multiple of eight end before the vectors do. -/
lemma toNat_of_mod_eight {b : UInt8} (h : b % 8 = 0) : b.toNat % 8 = 0 ∧ b.toNat ≤ 248 := by
  have hmod : b.toNat % 8 = 0 := by
    have hzero := congrArg UInt8.toNat h
    rwa [UInt8.toNat_mod] at hzero
  have hlt := b.toNat_lt
  exact ⟨hmod, by omega⟩

/-- **A line** arrives on its vector, and on no other. -/
lemma line?_eq_some_iff (h : Apart c.windows) {v : UInt8} :
    c.line? v = some l ↔ l < lineCount ∧ v = vectorOf c.windows l := by
  obtain ⟨hm8, hm⟩ := toNat_of_mod_eight h.master
  obtain ⟨hs8, hs⟩ := toNat_of_mod_eight h.slave
  have hne : c.masterBase.toNat ≠ c.slaveBase.toNat := h.ne ∘ UInt8.toNat.inj
  have hv := v.toNat_lt
  have hl := l.toNat_lt
  have height : (8 : UInt8).toNat = 8 := rfl
  have hsixteen : lineCount.toNat = 16 := rfl
  unfold line? vectorOf
  dsimp only [windows] at *
  -- the differences wrap around, so they are small for the vectors of the window only
  split_ifs <;>
    simp only [Option.some.injEq, false_iff, not_and, ← UInt8.toNat_inj, UInt8.lt_iff_toNat_lt, UInt8.toNat_sub,
      UInt8.toNat_add, height, hsixteen] at * <;>
    omega

lemma le_vectorOf (h : Above c.windows) (hl : l < lineCount) : 32 ≤ vectorOf c.windows l := by
  obtain ⟨-, hm⟩ := toNat_of_mod_eight h.master
  obtain ⟨-, hs⟩ := toNat_of_mod_eight h.slave
  have hm32 : 32 ≤ c.masterBase.toNat := h.master_le
  have hs32 : 32 ≤ c.slaveBase.toNat := h.slave_le
  have hl := toNat_lt_of_lt_lineCount hl
  have height : (8 : UInt8).toNat = 8 := rfl
  show 32 ≤ (vectorOf c.windows l).toNat
  unfold vectorOf
  dsimp only [windows] at *
  split_ifs with hlow <;>
    simp only [UInt8.lt_iff_toNat_lt, UInt8.toNat_add, UInt8.toNat_sub, height] at * <;>
    omega

def allLines : List UInt8 := (List.range lineCount.toNat).map UInt8.ofNat

lemma mem_allLines : l ∈ allLines ↔ l < lineCount := by
  unfold allLines
  rw [List.mem_map]
  constructor
  · rintro ⟨i, hi, rfl⟩
    have hi : i < 16 := List.mem_range.mp hi
    show (UInt8.ofNat i).toNat < 16
    rwa [UInt8.toNat_ofNat_of_lt' (Nat.lt_trans hi (by decide))]
  · exact fun h => ⟨l.toNat, List.mem_range.mpr h, UInt8.ofNat_toNat⟩

/-- The vectors of the lines in the order of the lines are all that carry a line, and none is one of an exception. -/
structure Delivers (c : Controllers) (vectors : List UInt8) : Prop where
  nodup : vectors.Nodup
  lines : vectors.map c.line? = allLines.map some
  mem : ∀ v, v ∈ vectors ↔ (c.line? v).isSome
  above : ∀ v ∈ vectors, 32 ≤ v

lemma delivers (h : Above c.windows) : Delivers c (allLines.map (vectorOf c.windows)) := by
  have hlines : (allLines.map (vectorOf c.windows)).map c.line? = allLines.map some := by
    rw [List.map_map]
    exact List.map_congr_left fun l hl => (line?_eq_some_iff h.toApart).mpr ⟨mem_allLines.mp hl, rfl⟩
  have hnodup : (allLines.map some).Nodup := by decide
  refine ⟨?_, hlines, fun v => ?_, fun v hv => ?_⟩
  · rw [← hlines] at hnodup
    exact hnodup.of_map _
  · rw [List.mem_map, Option.isSome_iff_exists]
    simp only [line?_eq_some_iff h.toApart, mem_allLines, eq_comm]
  · obtain ⟨l, hl, rfl⟩ := List.mem_map.mp hv
    exact le_vectorOf h (mem_allLines.mp hl)

/-! ### Runs -/

/-- The controllers after a run of calls, the latest first, that began with the given masks. -/
def afterCalls (masks : MaskRegisters) : List PicCall → Controllers
  | [] => powerOn masks
  | k :: past => ((afterCalls masks past).call k).controllers

/-- The calls of a run that were accepted, the latest first. -/
def accepted (masks : MaskRegisters) : List PicCall → List PicCall
  | [] => []
  | k :: past =>
    match ((afterCalls masks past).call k).answer with
    | .ok _ => k :: accepted masks past
    | .error _ => accepted masks past

variable {masks : MaskRegisters} {past : List PicCall} {k : PicCall}

lemma accepted_cons_of_accepted {call : PicCall}
    (h : Accepted (afterCalls masks past) call ((afterCalls masks past).call call)) :
    accepted masks (call :: past) = call :: accepted masks past := by
  rw [accepted, h.answer]

lemma accepted_cons_of_refused {call : PicCall}
    (h : Refused (afterCalls masks past) ((afterCalls masks past).call call)) :
    accepted masks (call :: past) = accepted masks past := by
  obtain ⟨e, he⟩ := h.answer
  rw [accepted, he]

/-- The latest accepted call about a line decides whether it is suppressed. -/
lemma masked_afterCalls (masks : MaskRegisters) (past : List PicCall) {l : UInt8} (hl : l < lineCount) :
    (afterCalls masks past).masks.Masked l ↔
      ((accepted masks past).findSome? (PicCall.switch? l)).elim (masks.Masked l) (· = true) := by
  induction past with
  | nil => rfl
  | cons k past ih =>
    rcases call_cases (afterCalls masks past) k with h | h
    · rw [accepted_cons_of_accepted h, List.findSome?_cons]
      show ((afterCalls masks past).call k).controllers.masks.Masked l ↔ _
      rw [h.masked l hl]
      cases k.switch? l with
      | none => exact ih
      | some v => rfl
    · rw [accepted_cons_of_refused h, ← ih]
      show ((afterCalls masks past).call k).controllers.masks.Masked l ↔ _
      rw [h.controllers]

lemma windows_afterCalls (masks : MaskRegisters) (past : List PicCall) :
    (afterCalls masks past).windows = ((accepted masks past).findSome? PicCall.windows?).getD powerOnWindows := by
  induction past with
  | nil => rfl
  | cons k past ih =>
    rcases call_cases (afterCalls masks past) k with h | h
    · rw [accepted_cons_of_accepted h, List.findSome?_cons]
      show ((afterCalls masks past).call k).controllers.windows = _
      rw [h.windows]
      cases k.windows? with
      | none => exact ih
      | some w => rfl
    · rw [accepted_cons_of_refused h, ← ih]
      show ((afterCalls masks past).call k).controllers.windows = _
      rw [h.controllers]

lemma above_of_mem_accepted (h : k ∈ accepted masks past) : ∀ w ∈ k.windows?, Above w := by
  induction past with
  | nil => cases h
  | cons call past ih =>
    rcases call_cases (afterCalls masks past) call with hc | hc
    · rw [accepted_cons_of_accepted hc] at h
      rcases List.mem_cons.mp h with rfl | h
      · exact hc.above
      · exact ih h
    · rw [accepted_cons_of_refused hc] at h
      exact ih h

/-- **Runs of the controllers.** After any calls on controllers that started up with any masks, a line is suppressed
iff the latest accepted call about it suppressed it, or there was none and it was suppressed at the start, so calls
that are not about it do not matter to it. A call that is refused makes no access and changes nothing. The windows are
where the latest accepted remap put them, and from the first one on they are apart, lie above the exceptions and
deliver the 16 lines, one to one, on 16 vectors. -/
theorem masks_and_windows_over_runs (masks : MaskRegisters) (past : List PicCall) :
    (∀ l < lineCount, (afterCalls masks past).masks.Masked l ↔
      ((accepted masks past).findSome? (PicCall.switch? l)).elim (masks.Masked l) (· = true)) ∧
    (∀ k, ∀ l < lineCount, k.switch? l = none →
      (((afterCalls masks past).call k).controllers.masks.Masked l ↔ (afterCalls masks past).masks.Masked l)) ∧
    (∀ k e, ((afterCalls masks past).call k).answer = .error e →
      ((afterCalls masks past).call k).accesses = [] ∧
      ((afterCalls masks past).call k).controllers = afterCalls masks past) ∧
    (afterCalls masks past).windows = ((accepted masks past).findSome? PicCall.windows?).getD powerOnWindows ∧
    ((∃ k ∈ accepted masks past, k.windows?.isSome) →
      Above (afterCalls masks past).windows ∧
      ∃ vectors, vectors.length = 16 ∧ Delivers (afterCalls masks past) vectors) := by
  refine ⟨fun l hl => masked_afterCalls masks past hl, fun k l hl h => ?_, fun k e h => ?_,
    windows_afterCalls masks past, ?_⟩
  · -- a call about another line
    rcases call_cases (afterCalls masks past) k with hc | hc
    · rw [hc.masked l hl, h]
      rfl
    · rw [hc.controllers]
  · -- a call that fails
    rcases call_cases (afterCalls masks past) k with hc | hc
    · rw [hc.answer] at h
      cases h
    · exact ⟨hc.accesses, hc.controllers⟩
  · -- a remap was accepted, so the windows are those of the latest one, which were checked
    rintro ⟨k, hk, hmoved⟩
    have habove : Above (afterCalls masks past).windows := by
      rw [windows_afterCalls]
      cases hlast : (accepted masks past).findSome? PicCall.windows? with
      | none =>
        rw [List.findSome?_eq_none_iff] at hlast
        rw [hlast k hk] at hmoved
        cases hmoved
      | some w =>
        obtain ⟨call, hcall, hw⟩ := List.exists_of_findSome?_eq_some hlast
        exact above_of_mem_accepted hcall w hw
    exact ⟨habove, _, List.length_map _, delivers habove⟩

/-- The windows are moved, line 3 is let through, line 5 is suppressed, and a wrong remap is refused. -/
theorem masks_and_windows_over_runs_two_lines :
    let start : MaskRegisters := ⟨0x08, 0xFF⟩
    let c := afterCalls start [.remap 0x20 0x20, .mask 5, .unmask 3, .remap 0x20 0x28]
    (start.Masked 3 ∧ ¬ c.masks.Masked 3) ∧ (¬ start.Masked 5 ∧ c.masks.Masked 5) ∧ c.masks.Masked 11 ∧
      c.windows = (0x20, 0x28) ∧ ∃ vectors, vectors.length = 16 ∧ Delivers c vectors := by
  intro start c
  obtain ⟨hmasked, -, -, hwindows, hdelivers⟩ :=
    masks_and_windows_over_runs start [.remap 0x20 0x20, .mask 5, .unmask 3, .remap 0x20 0x28]
  refine ⟨⟨?_, fun h => ?_⟩, ⟨?_, (hmasked 5 (by decide)).mpr rfl⟩, (hmasked 11 (by decide)).mpr ?_, hwindows,
    (hdelivers ⟨.remap 0x20 0x28, by decide, rfl⟩).2⟩
  · show (0x08 : UInt8) &&& (1 <<< (3 % 8 : UInt8)) ≠ 0
    decide
  · have hswitched : false = true := (hmasked 3 (by decide)).mp h
    cases hswitched
  · show ¬ (0x08 : UInt8) &&& (1 <<< (5 % 8 : UInt8)) ≠ 0
    decide
  · show (0xFF : UInt8) &&& (1 <<< (11 % 8 : UInt8)) ≠ 0
    decide

end Controllers

end Nucleus.Device
