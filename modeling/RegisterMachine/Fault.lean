import RegisterMachine.Word
import RegisterMachine.Text.Hexadecimal

/-!
# Faults

An instruction that cannot be carried out faults. There are three causes: a division by zero, an
operand that names no register, and an address outside of memory. A fault also tells where the
instruction stands.
-/

namespace RegisterMachine

inductive FaultCause where
  | divisionByZero
  | noRegister (index : Word)
  /-- No word of memory has this address. -/
  | outsideMemory (address : Nat)
deriving DecidableEq

def FaultCause.message : FaultCause → String
  | divisionByZero => "division by zero"
  | noRegister index => "register index " ++ toString index.toNat ++ " is out of range"
  | outsideMemory address =>
    "memory address " ++ Text.hexadecimal address ++ " is out of range"

/-- A failed instruction: its address and the cause. -/
structure Fault where
  pc : Word
  cause : FaultCause
deriving DecidableEq

def Fault.message (f : Fault) : String :=
  f.cause.message ++ " (pc = " ++ Text.hexadecimal f.pc.toNat ++ ")"

end RegisterMachine
