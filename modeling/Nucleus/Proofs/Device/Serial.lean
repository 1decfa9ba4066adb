import Mathlib.Tactic.Common
import Nucleus.Device.Serial

/-!
Output on a serial device, access by access, whatever the device answers. Every byte is sent once, and a carriage
return before each line feed, after the state of the device was read until it was ready, or often enough. The pieces
into which a text is cut leave no trace.
-/

namespace Nucleus.Device

def PortAccess.written? : PortAccess → Option (Port × UInt8)
  | write p v => some (p, v)
  | _ => none

namespace Serial

variable {base : Port} {answers : Nat → UInt8} {n m : Nat} {bs : List UInt8} {accesses : List PortAccess}

/-! ### Waiting -/

/-- From answer number `n` on, `k` answers are read: up to the first one that finds the device ready, but no more than
`limit`. -/
structure Awaits (answers : Nat → UInt8) (limit n k : Nat) : Prop where
  bounded : k ≤ limit
  /-- Only the last answer can find the device ready. -/
  busy : ∀ i, i + 1 < k → ¬ Ready (answers (n + i))
  ended : k = limit ∨ ∃ i, k = i + 1 ∧ Ready (answers (n + i))

lemma polls_awaits (answers : Nat → UInt8) (limit n : Nat) : Awaits answers limit n (polls answers n limit) := by
  induction limit generalizing n with
  | zero => exact ⟨Nat.le_refl 0, fun i hi => absurd hi (Nat.not_lt_zero _), .inl rfl⟩
  | succ limit ih =>
    unfold polls
    split
    · next hready => exact ⟨by omega, fun i hi => by omega, .inr ⟨0, rfl, hready⟩⟩
    · next hbusy =>
      obtain ⟨bounded, busy, ended⟩ := ih (n + 1)
      refine ⟨Nat.succ_le_succ bounded, fun i hi => ?_, ended.imp (congrArg Nat.succ) ?_⟩
      · cases i with
        | zero => exact hbusy
        | succ i =>
          rw [Nat.add_comm i 1, ← Nat.add_assoc]
          exact busy i (by omega)
      · rintro ⟨i, hk, hready⟩
        rw [Nat.add_assoc, Nat.add_comm 1 i] at hready
        exact ⟨i + 1, congrArg Nat.succ hk, hready⟩

/-! ### Bytes -/

/-- The accesses that carry bytes to the device, one by one, where `n` answers were read before and `m` afterwards.
Each byte goes to the data port after the state was read from the port five further up. -/
inductive Carries (base : Port) (answers : Nat → UInt8) : Nat → List UInt8 → List PortAccess → Nat → Prop
  | nil {n : Nat} : Carries base answers n [] [] n
  | byte {n k m : Nat} {b : UInt8} {bs : List UInt8} {accesses : List PortAccess} (awaits : Awaits answers 10000 n k)
      (rest : Carries base answers (n + k) bs accesses m) :
      Carries base answers n (b :: bs) (List.replicate k (.read (base + 5)) ++ .write base b :: accesses) m

lemma Carries.written (h : Carries base answers n bs accesses m) :
    accesses.filterMap PortAccess.written? = bs.map (base, ·) := by
  induction h with
  | nil => rfl
  | byte _ _ ih =>
    rw [List.filterMap_append, List.filterMap_replicate_of_none rfl, List.nil_append, List.map_cons, ← ih]
    rfl

lemma Carries.length_le (h : Carries base answers n bs accesses m) : accesses.length ≤ 10001 * bs.length := by
  induction h with
  | nil => exact Nat.le_refl 0
  | byte awaits _ ih =>
    have hbounded := awaits.bounded
    rw [List.length_append, List.length_replicate, List.length_cons, List.length_cons]
    omega

lemma sendByte_eq (room : base.toNat ≤ 0xFFFA) (answers : Nat → UInt8) (n : Nat) (b : UInt8) :
    sendByte base answers n b = .ok ⟨List.replicate (polls answers n patience) (.read (base + 5)) ++ [.write base b],
      n + polls answers n patience⟩ := by
  have hstatus : portAt base statusOffset = .ok (base + 5) := if_pos (Nat.add_lt_add_right (Nat.lt_succ_of_le room) 5)
  have hdata : portAt base dataOffset = .ok base :=
    (if_pos (Nat.lt_of_le_of_lt room (by decide))).trans (congrArg Except.ok (UInt16.add_zero base))
  unfold sendByte
  rw [hstatus, hdata]
  rfl

/-- **Bytes are carried**, whatever the device answers. -/
lemma sendRaw_carries (room : base.toNat ≤ 0xFFFA) (answers : Nat → UInt8) (n : Nat) (bs : List UInt8) :
    ∃ t, sendRaw base answers n bs = .ok t ∧ Carries base answers n bs t.accesses t.answersRead := by
  induction bs generalizing n with
  | nil => exact ⟨⟨[], n⟩, rfl, .nil⟩
  | cons b bs ih =>
    obtain ⟨t, ht, hcarries⟩ := ih (n + polls answers n patience)
    refine ⟨⟨List.replicate (polls answers n patience) (.read (base + 5)) ++ .write base b :: t.accesses, t.answersRead⟩,
      ?_, .byte (polls_awaits answers patience n) hcarries⟩
    rw [List.append_cons]
    unfold sendRaw
    rw [sendByte_eq room]
    dsimp only [bind, Except.bind]
    rw [ht]
    rfl

/-! ### Texts -/

/-- A byte as it goes to the device: a line feed has a carriage return before it. -/
def onLine (b : UInt8) : List UInt8 := if b = 10 then [13, 10] else [b]

lemma withReturns_eq (bs : List UInt8) : withReturns bs = bs.flatMap onLine := by
  induction bs with
  | nil => rfl
  | cons b bs ih =>
    unfold withReturns
    rw [List.flatMap_cons, ih]
    unfold onLine lineFeed
    split
    · next h =>
      rw [h]
      rfl
    · rfl

def sendPieces (base : Port) (answers : Nat → UInt8) (n : Nat) : List (List UInt8) → Checked Transmission
  | [] => .ok ⟨[], n⟩
  | p :: ps => do
    let first ← send base answers n p
    let rest ← sendPieces base answers first.answersRead ps
    return ⟨first.accesses ++ rest.accesses, rest.answersRead⟩

lemma sendRaw_append (base : Port) (answers : Nat → UInt8) (n : Nat) (as bs : List UInt8) :
    sendRaw base answers n (as ++ bs) = do
      let first ← sendRaw base answers n as
      let rest ← sendRaw base answers first.answersRead bs
      return ⟨first.accesses ++ rest.accesses, rest.answersRead⟩ := by
  induction as generalizing n with
  | nil =>
    dsimp only [List.nil_append, sendRaw, bind, Except.bind]
    cases sendRaw base answers n bs <;> rfl
  | cons a as ih =>
    simp only [List.cons_append, sendRaw, ih, bind_assoc, pure_bind, List.append_assoc]

/-- **Cutting a text into pieces** changes no access. -/
lemma sendPieces_eq (base : Port) (answers : Nat → UInt8) (n : Nat) (ps : List (List UInt8)) :
    sendPieces base answers n ps = send base answers n ps.flatten := by
  induction ps generalizing n with
  | nil => rfl
  | cons p ps ih =>
    have happend : send base answers n (p ++ ps.flatten) = _ :=
      (congrArg (sendRaw base answers n) (withReturns_append p ps.flatten)).trans (sendRaw_append ..)
    rw [List.flatten_cons, happend]
    unfold sendPieces
    simp only [ih]
    rfl

/-- **Output is complete and bounded** at every base port with a state port behind it, whatever the device answers.
Sending a text never ends with a fault. To the data port go the bytes of the text, and a carriage return before each
line feed, each of them once and in order. Before each byte the state is read up to the first answer that finds the
device ready, but at most 10000 times, and no answer is read twice or left out. A text that is sent in pieces makes the
accesses of the whole text, however it is cut. -/
theorem output_complete_and_bounded (room : base.toNat ≤ 0xFFFA) (answers : Nat → UInt8) (n : Nat) :
    (∀ bs, ∃ t, send base answers n bs = .ok t ∧
      t.accesses.filterMap PortAccess.written? = (bs.flatMap onLine).map (base, ·) ∧
      Carries base answers n (bs.flatMap onLine) t.accesses t.answersRead ∧
      t.accesses.length ≤ 10001 * (bs.flatMap onLine).length) ∧
    ∀ ps, sendPieces base answers n ps = send base answers n ps.flatten := by
  refine ⟨fun bs => ?_, sendPieces_eq base answers n⟩
  obtain ⟨t, ht, hcarries⟩ := sendRaw_carries room answers n (bs.flatMap onLine)
  refine ⟨t, ?_, hcarries.written, hcarries, hcarries.length_le⟩
  unfold send
  rw [withReturns_eq, ht]

/-- A device that takes longer than the driver waits. -/
def lateAnswers (i : Nat) : UInt8 := if i < 10001 then 0 else 0x20

/-- The first byte is sent although the device never was ready for it, and the next one after the two answers that
follow. The line feed can come in a piece of its own. -/
theorem output_complete_and_bounded_late : (0x3F8 : Port).toNat ≤ 0xFFFA ∧
    ∃ t, send 0x3F8 lateAnswers 0 [97, 10] = .ok t ∧ t.answersRead = 10003 ∧
      t.accesses.filterMap PortAccess.written? = [(0x3F8, 97), (0x3F8, 13), (0x3F8, 10)] ∧
      sendPieces 0x3F8 lateAnswers 0 [[97], [10]] = .ok t := by
  have room : (0x3F8 : Port).toNat ≤ 0xFFFA := by decide
  have hread : (send 0x3F8 lateAnswers 0 [97, 10]).map (·.answersRead) = .ok 10003 := by decide +kernel
  obtain ⟨hcomplete, hpieces⟩ := output_complete_and_bounded room lateAnswers 0
  obtain ⟨t, ht, hwritten, -, -⟩ := hcomplete [97, 10]
  rw [ht] at hread
  exact ⟨room, t, ht, Except.ok.inj hread, hwritten, (hpieces [[97], [10]]).trans ht⟩

end Serial

end Nucleus.Device
