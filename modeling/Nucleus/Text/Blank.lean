/-!
The characters that separate words: those with the property White_Space.
-/

namespace Nucleus.Text

/-- The character separates words. -/
def Blank (c : Char) : Prop :=
  (0x09 ≤ c.toNat ∧ c.toNat ≤ 0x0D) ∨ c.toNat = 0x20 ∨ c.toNat = 0x85 ∨ c.toNat = 0xA0 ∨
  c.toNat = 0x1680 ∨ (0x2000 ≤ c.toNat ∧ c.toNat ≤ 0x200A) ∨ c.toNat = 0x2028 ∨ c.toNat = 0x2029 ∨
  c.toNat = 0x202F ∨ c.toNat = 0x205F ∨ c.toNat = 0x3000

instance (c : Char) : Decidable (Blank c) := by unfold Blank; infer_instance

theorem not_blank_equals : ¬ Blank '=' := by decide

theorem not_blank_quote : ¬ Blank '"' := by decide

end Nucleus.Text
