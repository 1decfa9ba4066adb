import Mathlib.Tactic.Common
import Nucleus.Descriptor.Gate

/-!
Gates read back as they were installed, although the address of the handler is kept in three pieces and type, privilege
and presence share a byte. Over a run of installations each vector has the gate of its latest accepted one, and the
check of the table finds the least vector without a handler.
-/

namespace Nucleus.Descriptor

/-! ### Fields of a byte -/

lemma or_and_byte (a b c : UInt8) : (a ||| b) &&& c = (a &&& c) ||| (b &&& c) := by
  apply UInt8.eq_of_toBitVec_eq
  simp only [UInt8.toBitVec_and, UInt8.toBitVec_or, BitVec.and_or_distrib_right]

lemma or_and_absorb (a b : UInt8) : (a ||| b) &&& b = b := by
  apply UInt8.eq_of_toBitVec_eq
  ext i hi
  rw [UInt8.toBitVec_and, UInt8.toBitVec_or, BitVec.getElem_and, BitVec.getElem_or]
  cases b.toBitVec[i] <;> simp

section Fields

variable {old keep new mask : UInt8}

lemma and_written (hkeep : keep &&& mask = 0) (hnew : new &&& mask = new) :
    ((old &&& keep) ||| new) &&& mask = new := by
  rw [or_and_byte, UInt8.and_assoc, hkeep, UInt8.and_zero, UInt8.zero_or, hnew]

lemma and_kept (hkeep : keep &&& mask = mask) (hnew : new &&& mask = 0) :
    ((old &&& keep) ||| new) &&& mask = old &&& mask := by
  rw [or_and_byte, UInt8.and_assoc, hkeep, hnew, UInt8.or_zero]

end Fields

lemma and_seven {i : UInt8} (h : i ≤ 7) : i &&& 7 = i := by
  have hi : i.toNat ≤ 7 := h
  apply UInt8.toNat.inj
  rw [UInt8.toNat_and]
  show i.toNat &&& (2 ^ 3 - 1) = i.toNat
  rw [Nat.and_two_pow_sub_one_eq_mod]
  omega

lemma Ring.ofBits_field (r : Ring) : Ring.ofBits (((r.number <<< (5 : UInt8)) &&& 0x60) >>> 5) = r := by
  obtain ⟨n, hn⟩ := r
  have hn' : n.toNat ≤ 3 := hn
  have hcases : n = 0 ∨ n = 1 ∨ n = 2 ∨ n = 3 := by
    simp only [← UInt8.toNat_inj, UInt8.reduceToNat]
    omega
  unfold ofBits
  rw [Ring.mk.injEq]
  dsimp only
  obtain rfl | rfl | rfl | rfl := hcases <;> rfl

/-! ### What is written into a gate -/

namespace Gate

variable (g : Gate) (t : GateType) (r : Ring) (present : Bool) {mask : UInt8}

lemma handler_setHandler (a : UInt64) : (g.setHandler a).handler = a := by
  unfold handler setHandler
  apply UInt64.eq_of_toBitVec_eq
  apply BitVec.eq_of_getLsbD_eq
  intro i hi
  simp only [UInt64.toBitVec_or, UInt64.toBitVec_shiftLeft, UInt64.toBitVec_shiftRight, UInt16.toBitVec_toUInt64,
    UInt32.toBitVec_toUInt64, UInt64.toBitVec_toUInt16, UInt64.toBitVec_toUInt32]
  -- bit i lies in the piece that its place says
  by_cases hlow : i < 16
  · have hmiddle : i < 32 := by omega
    simp [hi, hlow, hmiddle]
  by_cases hmiddle : i < 32
  · have hi16 : 16 + (i - 16) = i := by omega
    have hpiece : i - 16 < 16 := by omega
    simp [hi, hlow, hmiddle, hi16, hpiece]
  · have hi32 : 32 + (i - 32) = i := by omega
    have hpiece : ¬ i - 16 < 16 := by omega
    simp [hi, hlow, hmiddle, hi32, hpiece]
    omega

lemma type?_setType : (g.setType t).type? = some t := by
  have hfield : (g.setType t).attributes &&& 0x0F = t.code := by
    cases t <;> exact and_written (by rfl) (by rfl)
  unfold type?
  rw [hfield]
  cases t <;> rfl

lemma attributes_setPrivilege (hkeep : 0x9F &&& mask = mask) (hnew : 0x60 &&& mask = 0) :
    (g.setPrivilege r).attributes &&& mask = g.attributes &&& mask :=
  and_kept hkeep (by rw [UInt8.and_assoc, hnew, UInt8.and_zero])

lemma attributes_setPresent (hkeep : 0x7F &&& mask = mask) (hnew : 0x80 &&& mask = 0) :
    (g.setPresent present).attributes &&& mask = g.attributes &&& mask := by
  cases present
  · show (g.attributes &&& 0x7F) &&& mask = _
    rw [UInt8.and_assoc, hkeep]
  · show (g.attributes ||| 0x80) &&& mask = _
    rw [or_and_byte, hnew, UInt8.or_zero]

lemma type?_setPrivilege : (g.setPrivilege r).type? = g.type? :=
  congrArg GateType.ofCode? (g.attributes_setPrivilege r (by rfl) (by rfl))

lemma type?_setPresent : (g.setPresent present).type? = g.type? :=
  congrArg GateType.ofCode? (g.attributes_setPresent present (by rfl) (by rfl))

lemma privilege_setPrivilege : (g.setPrivilege r).privilege = r := by
  have hfield : (g.setPrivilege r).attributes &&& 0x60 = (r.number <<< (5 : UInt8)) &&& 0x60 :=
    and_written (by rfl) (by rw [UInt8.and_assoc]; rfl)
  unfold privilege
  rw [hfield, r.ofBits_field]

lemma privilege_setPresent : (g.setPresent present).privilege = g.privilege :=
  congrArg (fun n : UInt8 => Ring.ofBits (n >>> 5)) (g.attributes_setPresent present (by rfl) (by rfl))

lemma present_setPresent : (g.setPresent true).Present := by
  show (g.attributes ||| 0x80) &&& 0x80 ≠ 0
  rw [or_and_absorb]
  decide

lemma not_present_empty : ¬ empty.Present := by decide

end Gate

/-! ### Installations -/

/-- What a gate is asked for. -/
structure Installation where
  vector : UInt8
  handler : UInt64
  selector : Selector
  stackIndex : UInt8
  type : GateType
  privilege : Ring
  deriving DecidableEq, Repr

/-- The stack slot is one that there is. -/
def Installation.Accepted (c : Installation) : Prop := c.stackIndex ≤ 7

instance (c : Installation) : Decidable c.Accepted := inferInstanceAs (Decidable (_ ≤ _))

/-- The gate is present and reads back what was asked for. -/
structure Gate.Reads (g : Gate) (c : Installation) : Prop where
  handler : g.handler = c.handler
  selector : g.selector = c.selector
  stackIndex : g.stackIndex = c.stackIndex
  type : g.type? = some c.type
  privilege : g.privilege = c.privilege
  present : g.Present

namespace GateTable

variable {t : GateTable} {c : Installation} {v w : UInt8}

def perform (t : GateTable) (c : Installation) : Except GateError GateTable :=
  t.install c.vector c.handler c.selector c.stackIndex c.type c.privilege

lemma toNat_lt_vectorCount (v : UInt8) : v.toNat < vectorCount := v.toNat_lt

lemma get_set (t : GateTable) (v w : UInt8) (g : Gate) : (t.set v g).get w = if v = w then g else t.get w := by
  have hset : (t.set v g).get w = if v.toNat = w.toNat then g else t.get w :=
    Vector.getElem_set (toNat_lt_vectorCount v) (toNat_lt_vectorCount w)
  rw [hset]
  by_cases h : v = w
  · rw [if_pos h, if_pos (congrArg UInt8.toNat h)]
  · rw [if_neg h, if_neg fun hn => h (UInt8.toNat.inj hn)]

lemma get_empty (v : UInt8) : empty.get v = .empty := Vector.getElem_replicate (toNat_lt_vectorCount v)

lemma perform_of_not_accepted (h : ¬ c.Accepted) : t.perform c = .error (.invalidStack c.stackIndex) :=
  if_pos (UInt8.not_le.mp h)

/-- An accepted installation changes the gate of its vector only, whatever gate that was. -/
lemma perform_of_accepted (t : GateTable) (h : c.Accepted) :
    ∃ g : Gate, g.Reads c ∧ t.perform c = .ok (t.set c.vector g) := by
  refine ⟨_, ?_, if_neg (UInt8.not_lt.mpr h)⟩
  exact {
    handler := Gate.handler_setHandler .empty c.handler
    selector := rfl
    stackIndex := by
      show (c.stackIndex &&& 7) &&& 7 = c.stackIndex
      rw [and_seven h, and_seven h]
    type := by rw [Gate.type?_setPresent, Gate.type?_setPrivilege, Gate.type?_setType]
    privilege := by rw [Gate.privilege_setPresent, Gate.privilege_setPrivilege]
    present := Gate.present_setPresent _ }

/-! ### The check of a table -/

lemma mem_vectors (v : UInt8) : v ∈ vectors :=
  List.mem_map.mpr ⟨v.toNat, List.mem_range.mpr v.toNat_lt, UInt8.ofNat_toNat⟩

lemma validate_eq_ok_iff : t.validate = .ok () ↔ ∀ v, t.Served v := by
  unfold validate
  cases h : vectors.find? (¬ t.Served ·) with
  | none =>
    rw [List.find?_eq_none] at h
    exact iff_of_true rfl fun v => by simpa using h v (mem_vectors v)
  | some v =>
    have hv := List.find?_some h
    exact iff_of_false (by simp) fun hall => by simp [hall v] at hv

lemma getElem_vectors {i : Nat} (hi : i < vectors.length) : vectors[i] = UInt8.ofNat i := by
  simp [vectors]

lemma find?_vectors_eq_some_iff {p : UInt8 → Bool} :
    vectors.find? p = some v ↔ p v = true ∧ ∀ w < v, p w = false := by
  have hlength : vectors.length = vectorCount := by simp [vectors]
  rw [List.find?_eq_some_iff_getElem]
  refine and_congr_right fun _ => ⟨?_, fun h => ?_⟩
  · rintro ⟨i, hi, rfl, hbelow⟩ w hw
    rw [getElem_vectors hi] at hw
    have hw' : w.toNat < i := by
      have hi' : i < UInt8.size := Nat.lt_of_lt_of_eq hi hlength
      exact Nat.lt_of_lt_of_eq hw (UInt8.toNat_ofNat_of_lt' hi')
    simpa [getElem_vectors] using hbelow w.toNat hw'
  · have hi : v.toNat < vectors.length := hlength ▸ v.toNat_lt
    refine ⟨v.toNat, hi, by rw [getElem_vectors, UInt8.ofNat_toNat], fun j hj => ?_⟩
    have hmod : (UInt8.ofNat j).toNat = j := UInt8.toNat_ofNat_of_lt' (Nat.lt_trans hj v.toNat_lt)
    rw [getElem_vectors, h _ (UInt8.lt_iff_toNat_lt.mpr (hmod.symm ▸ hj))]
    rfl

/-- The least vector that is not served is the one that the check names. -/
lemma validate_eq_error_iff {e : GateError} :
    t.validate = .error e ↔ ∃ v, e = .missing v ∧ ¬ t.Served v ∧ ∀ w < v, t.Served w := by
  have hfind : ∀ v, vectors.find? (¬ t.Served ·) = some v ↔ ¬ t.Served v ∧ ∀ w < v, t.Served w := fun v => by
    simp [find?_vectors_eq_some_iff]
  unfold validate
  cases h : vectors.find? (¬ t.Served ·) with
  | none =>
    refine iff_of_false (by simp) ?_
    rintro ⟨v, -, hv⟩
    rw [(hfind v).mpr hv] at h
    cases h
  | some v =>
    refine ⟨?_, ?_⟩
    · rintro ⟨⟩
      exact ⟨v, rfl, (hfind v).mp h⟩
    · rintro ⟨w, rfl, hw⟩
      rw [(hfind w).mpr hw] at h
      cases h
      rfl

/-! ### Runs -/

/-- The table after a run of installations, the latest first. Refused ones leave it as it is. -/
def afterInstallations : List Installation → GateTable
  | [] => .empty
  | c :: past =>
    match (afterInstallations past).perform c with
    | .ok t => t
    | .error _ => afterInstallations past

def latest? (v : UInt8) (past : List Installation) : Option Installation :=
  past.find? fun c => c.vector = v ∧ c.Accepted

/-- The latest accepted installation of the vector gives it a handler. -/
def HasHandler (past : List Installation) (v : UInt8) : Prop := ∃ c, latest? v past = some c ∧ c.handler ≠ 0

section Runs

variable {past : List Installation}

lemma afterInstallations_of_not_accepted (h : ¬ c.Accepted) :
    afterInstallations (c :: past) = afterInstallations past := by
  rw [afterInstallations, perform_of_not_accepted h]

lemma afterInstallations_of_accepted (past : List Installation) (h : c.Accepted) :
    (afterInstallations past).perform c = .ok (afterInstallations (c :: past)) ∧
    ((afterInstallations (c :: past)).get c.vector).Reads c ∧
    ∀ v ≠ c.vector, (afterInstallations (c :: past)).get v = (afterInstallations past).get v := by
  obtain ⟨g, hg, hok⟩ := (afterInstallations past).perform_of_accepted h
  rw [afterInstallations, hok]
  refine ⟨rfl, ?_, fun v hv => ?_⟩
  · show (GateTable.get _ _).Reads c
    rw [get_set, if_pos rfl]
    exact hg
  · show GateTable.get _ _ = _
    rw [get_set, if_neg hv.symm]

lemma get_afterInstallations (v : UInt8) (past : List Installation) :
    match latest? v past with
    | some c => ((afterInstallations past).get v).Reads c
    | none => (afterInstallations past).get v = .empty := by
  induction past with
  | nil => exact get_empty v
  | cons c past ih =>
    by_cases h : c.Accepted
    · obtain ⟨-, hreads, hothers⟩ := afterInstallations_of_accepted past h
      by_cases hv : c.vector = v
      · have hlatest : latest? v (c :: past) = some c := by simp [latest?, hv, h]
        rw [hlatest, ← hv]
        exact hreads
      · have hlatest : latest? v (c :: past) = latest? v past := by simp [latest?, hv]
        rw [hlatest, hothers v (Ne.symm hv)]
        exact ih
    · have hlatest : latest? v (c :: past) = latest? v past := by simp [latest?, h]
      rw [hlatest, afterInstallations_of_not_accepted h]
      exact ih

lemma served_afterInstallations (past : List Installation) (v : UInt8) :
    (afterInstallations past).Served v ↔ HasHandler past v := by
  have h := get_afterInstallations v past
  unfold Served HasHandler
  cases hlatest : latest? v past with
  | none =>
    rw [hlatest] at h
    rw [h]
    exact iff_of_false (fun hs => Gate.not_present_empty hs.1) (by simp)
  | some c =>
    rw [hlatest] at h
    simp [h.present, h.handler]

end Runs

/-- **Gates over runs of installations.** After any run, the gate of a vector reads back the handler, the selector, the
stack slot, the type and the privilege of the latest accepted installation of this vector and is present; a vector
without one has the empty gate. An installation is refused if it asks for a stack slot that does not exist, which
changes nothing, and carried out otherwise. The check accepts the table if the latest accepted installations give all
vectors a handler, and names the least vector without one if not. -/
theorem gates_over_runs (past : List Installation) :
    (∀ v c, latest? v past = some c → ((afterInstallations past).get v).Reads c) ∧
    (∀ v, latest? v past = none → (afterInstallations past).get v = .empty) ∧
    (∀ c : Installation, 7 < c.stackIndex →
      (afterInstallations past).perform c = .error (.invalidStack c.stackIndex) ∧
      afterInstallations (c :: past) = afterInstallations past) ∧
    (∀ c : Installation, c.stackIndex ≤ 7 →
      (afterInstallations past).perform c = .ok (afterInstallations (c :: past))) ∧
    ((afterInstallations past).validate = .ok () ↔ ∀ v, HasHandler past v) ∧
    ∀ e, (afterInstallations past).validate = .error e ↔
      ∃ v, e = .missing v ∧ ¬ HasHandler past v ∧ ∀ w < v, HasHandler past w := by
  refine ⟨fun v c h => ?_, fun v h => ?_, fun c hc => ?_, fun c hc => ?_, ?_, fun e => ?_⟩
  · have hget := get_afterInstallations v past
    rwa [h] at hget
  · have hget := get_afterInstallations v past
    rwa [h] at hget
  · have hnot : ¬ c.Accepted := UInt8.not_le.mpr hc
    exact ⟨perform_of_not_accepted hnot, afterInstallations_of_not_accepted hnot⟩
  · exact (afterInstallations_of_accepted past hc).1
  · rw [validate_eq_ok_iff]
    exact forall_congr' (served_afterInstallations past)
  · rw [validate_eq_error_iff]
    simp only [served_afterInstallations]

/-- Vector 14 is installed twice, the second time with a handler in the upper half and a user gate; a third one is
refused. The other vectors stay empty, and the check names vector 0. -/
theorem gates_over_runs_page_fault :
    let first : Installation := ⟨14, 0x1000, ⟨8⟩, 1, .interrupt, .kernel⟩
    let second : Installation := ⟨14, 0xFFFF8000DEADBEEF, ⟨0x2B⟩, 2, .trap, ⟨3, by decide⟩⟩
    let refused : Installation := ⟨14, 0x2000, ⟨8⟩, 8, .interrupt, .kernel⟩
    ((afterInstallations [refused, second, first]).get 14).Reads second ∧
    (afterInstallations [refused, second, first]).get 13 = .empty ∧
    afterInstallations [refused, second, first] = afterInstallations [second, first] ∧
    (afterInstallations [refused, second, first]).validate = .error (.missing 0) := by
  intro first second refused
  obtain ⟨hreads, hempty, -, -, -, herror⟩ := gates_over_runs [refused, second, first]
  obtain ⟨-, -, hrefused, -⟩ := gates_over_runs [second, first]
  refine ⟨hreads 14 second (by decide), hempty 13 (by decide), (hrefused refused (by decide)).2, (herror _).mpr ?_⟩
  exact ⟨0, rfl, fun ⟨c, hc, _⟩ => absurd hc (by simp [latest?, first, second, refused]), fun w hw =>
    absurd hw (Nat.not_lt_zero w.toNat)⟩

end GateTable

end Nucleus.Descriptor
