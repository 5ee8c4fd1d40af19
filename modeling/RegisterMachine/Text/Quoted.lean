import RegisterMachine.Text.Unprintable

/-!
# Quoted texts

A name in a message stands between double quotes. A double quote and a backslash inside it get a
backslash in front, the common control characters have short forms, and every other character
that cannot be printed on its own is given by its number. All else stands for itself.
-/

namespace RegisterMachine.Text

/-- How one character is written inside a quotation. -/
def escape (c : Char) : List Char :=
  match c with
  | '\x00' => ['\\', '0']
  | '\t' => ['\\', 't']
  | '\n' => ['\\', 'n']
  | '\r' => ['\\', 'r']
  | '"' => ['\\', '"']
  | '\\' => ['\\', '\\']
  | c =>
    if isUnprintable c then
      ['\\', 'u', '{'] ++ Nat.toDigits 16 c.toNat ++ ['}']
    else
      [c]

def quoted (text : String) : String :=
  String.ofList ('"' :: text.toList.flatMap escape ++ ['"'])

end RegisterMachine.Text
