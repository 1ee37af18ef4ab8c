import Placeholder.Unicode.Hidden

/-! Text between double quotes, in one line, with hidden characters written by their code points. -/
namespace Placeholder.Text

/-- A character inside the quotes. Beside quotes, backslashes and the commonest controls, the characters
in `hidden` are escaped. -/
def escape (hidden : Char → Bool) : Char → List Char
  | '\x22' => ['\\', '\x22']
  | '\\' => ['\\', '\\']
  | '\x00' => ['\\', '0']
  | '\t' => ['\\', 't']
  | '\r' => ['\\', 'r']
  | '\n' => ['\\', 'n']
  | c => if hidden c then '\\' :: 'u' :: '\x7b' :: Nat.toDigits 16 c.toNat ++ ['\x7d'] else [c]

def quoteBy (hidden : Char → Bool) (text : String) : String :=
  String.ofList ('\x22' :: text.toList.flatMap (escape hidden) ++ ['\x22'])

/-- The text between quotes, with every character that does not show escaped. -/
def quote (text : String) : String :=
  quoteBy Unicode.isHidden text

end Placeholder.Text
