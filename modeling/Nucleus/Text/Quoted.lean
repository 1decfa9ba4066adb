import Nucleus.Text.Number
import Nucleus.Text.Printable

/-!
Quoted texts: a text between double quotes in which quotes, backslashes and all characters that cannot be
printed are written as escapes.
-/

namespace Nucleus.Text

def escape (c : Char) : List Char :=
  match c with
  | '\x00' => ['\\', '0']
  | '\t' => ['\\', 't']
  | '\n' => ['\\', 'n']
  | '\r' => ['\\', 'r']
  | '"' => ['\\', '"']
  | '\\' => ['\\', '\\']
  | c => if Printable c then [c] else ['\\', 'u', '\x7b'] ++ hexDigits c.toNat ++ ['\x7d']

def quoted (s : String) : String := String.ofList ('"' :: (s.toList.flatMap escape ++ ['"']))

end Nucleus.Text
