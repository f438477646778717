import Stylesheet.Text.Unseen
/-! Texts as they are shown in reports, between double quotes and with escapes for what cannot be seen. -/

namespace Stylesheet.Text

/-- A character that leaves no mark of its own is written as its code point. -/
def escaped (c : Char) : List Char :=
  match c with
  | '"' => ['\\', '"']
  | '\\' => ['\\', '\\']
  | '\n' => ['\\', 'n']
  | '\r' => ['\\', 'r']
  | '\t' => ['\\', 't']
  | '\x00' => ['\\', '0']
  | c => if isUnseen c then ['\\', 'u', '{'] ++ Nat.toDigits 16 c.toNat ++ ['}'] else [c]

def quoted (s : String) : String := String.ofList ('"' :: s.toList.flatMap escaped ++ ['"'])

end Stylesheet.Text
