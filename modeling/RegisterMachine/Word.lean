/-!
# Words

The machine computes with words of sixteen bits. Arithmetic on them wraps, and they are compared
as unsigned numbers. In a byte string a word takes two bytes, the lower one first.
-/

namespace RegisterMachine

abbrev Word := UInt16

namespace Word

/-- The word made of a lower and an upper byte. -/
def ofBytes (low high : UInt8) : Word :=
  low.toUInt16 + 256 * high.toUInt16

/-- The two bytes of a word, the lower one first. -/
def toBytes (w : Word) : List UInt8 :=
  [w.toUInt8, (w / 256).toUInt8]

theorem toNat_ofBytes (low high : UInt8) :
    (ofBytes low high).toNat = low.toNat + 256 * high.toNat := by
  have hLow := low.toNat_lt
  have hHigh := high.toNat_lt
  simp [ofBytes]
  omega

/-- A word is made of its own two bytes. -/
theorem ofBytes_toBytes (w : Word) : ofBytes w.toUInt8 (w / 256).toUInt8 = w := by
  have hWord := w.toNat_lt
  apply UInt16.toNat_inj.mp
  simp [toNat_ofBytes]
  omega

/-- The truth value of a comparison as a word: one for true and zero for false. -/
def ofBool (b : Bool) : Word :=
  if b then 1 else 0

end Word

end RegisterMachine
