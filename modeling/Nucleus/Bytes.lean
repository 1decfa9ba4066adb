/-!
Numbers in byte strings, the least significant byte first, and the cutting of byte strings into pieces of
equal length. A blob has a declared size, of which only the first bytes may be at hand: reading a list of
bytes is reading the blob that has all its bytes.
-/

namespace Nucleus

/-- The number that the bytes write, the least significant first. -/
def number : List UInt8 → Nat
  | [] => 0
  | b :: bs => b.toNat + 256 * number bs

/-- The `width` bytes of a number, the least significant first; higher bits are dropped. -/
def bytesOf : Nat → Nat → List UInt8
  | 0, _ => []
  | width + 1, n => UInt8.ofNat n :: bytesOf width (n / 256)

/-- The 32 bit number at offset `i`. -/
def u32 (bs : List UInt8) (i : Nat) : Nat := number ((bs.drop i).take 4)

/-- The 64 bit number at offset `i`. -/
def u64 (bs : List UInt8) (i : Nat) : UInt64 := UInt64.ofNat (number ((bs.drop i).take 8))

/-- The first `k` pieces of `n` bytes each, as far as there are bytes. -/
def pieces (n : Nat) : Nat → List UInt8 → List (List UInt8)
  | 0, _ => []
  | _ + 1, [] => []
  | k + 1, b :: bs => (b :: bs).take n :: pieces n k ((b :: bs).drop n)

theorem length_pieces {n k : Nat} {bs : List UInt8} (hn : 0 < n) (h : k * n ≤ bs.length) :
    (pieces n k bs).length = k := by
  induction k generalizing bs with
  | zero => rfl
  | succ k ih =>
    rw [Nat.succ_mul] at h
    cases bs with
    | nil =>
      rw [List.length_nil] at h
      omega
    | cons b bs =>
      rw [pieces, List.length_cons, ih]
      rw [List.length_drop]
      omega

theorem length_bytesOf (width n : Nat) : (bytesOf width n).length = width := by
  induction width generalizing n with
  | zero => rfl
  | succ width ih => rw [bytesOf, List.length_cons, ih]

theorem number_lt (bs : List UInt8) : number bs < Nat.pow 256 bs.length := by
  induction bs with
  | nil => exact Nat.one_pos
  | cons b bs ih =>
    have hb : b.toNat < 256 := b.toNat_lt
    show b.toNat + 256 * number bs < Nat.pow 256 bs.length * 256
    omega

/-- Writing a number that fits and reading it back gives the number. -/
theorem number_bytesOf {width n : Nat} (h : n < Nat.pow 256 width) : number (bytesOf width n) = n := by
  induction width generalizing n with
  | zero =>
    have : n = 0 := by simpa using h
    subst this
    rfl
  | succ width ih =>
    replace h : n < Nat.pow 256 width * 256 := h
    rw [bytesOf, number, ih (by omega), UInt8.toNat_ofNat']
    omega

/-! ### Blobs -/

/-- Bytes of a declared size, of which the first ones are at hand. -/
structure Blob where
  size : Nat
  bytes : List UInt8
  deriving DecidableEq, Repr

namespace Blob

def ofList (bs : List UInt8) : Blob := ⟨bs.length, bs⟩

/-- The first `n` bytes. -/
def take (n : Nat) (b : Blob) : Blob := ⟨min n b.size, b.bytes.take n⟩

/-- The bytes behind the first `n`. -/
def drop (n : Nat) (b : Blob) : Blob := ⟨b.size - n, b.bytes.drop n⟩

theorem take_ofList (n : Nat) (bs : List UInt8) : (ofList bs).take n = ofList (bs.take n) := by
  simp only [take, ofList, List.length_take]

theorem drop_ofList (n : Nat) (bs : List UInt8) : (ofList bs).drop n = ofList (bs.drop n) := by
  simp only [drop, ofList, List.length_drop]

end Blob

end Nucleus
