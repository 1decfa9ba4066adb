/-!
The written form of a set of named bits: the names of the bits that are set, in the order of the list,
joined by bars, or `(empty)`.
-/

namespace Nucleus.Text

/-- The names of the bits of `bits` that occur in `names`. -/
def flagNames (names : List (String × UInt64)) (bits : UInt64) : List String :=
  (names.filter fun n => bits &&& n.2 ≠ 0).map Prod.fst

def flags (names : List (String × UInt64)) (bits : UInt64) : String :=
  match flagNames names bits with
  | [] => "(empty)"
  | ns => " | ".intercalate ns

end Nucleus.Text
