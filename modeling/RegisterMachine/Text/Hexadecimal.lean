/-!
# Hexadecimal numbers

Words and addresses are written in lower-case hexadecimal behind a leading `0x`. A short number is
filled with zeros up to four digits; a long one takes as many digits as it needs.
-/

namespace RegisterMachine.Text

/-- The hexadecimal text of a number: `0x` and at least four digits. -/
def hexadecimal (n : Nat) : String :=
  "0x" ++ String.ofList (List.leftpad 4 '0' (Nat.toDigits 16 n))

theorem toList_hexadecimal (n : Nat) :
    (hexadecimal n).toList = '0' :: 'x' :: List.leftpad 4 '0' (Nat.toDigits 16 n) := by
  simp [hexadecimal]

end RegisterMachine.Text
