import RegisterMachine.Registers

/-!
# Names of registers

The stack pointer and the program counter have names of their own. A general register is called
`R` with its number, of which a name shows the last two digits at most.
-/

namespace RegisterMachine

inductive RegisterName where
  | general (number : Word)
  | stackPointer
  | programCounter
deriving DecidableEq

def Register.name (r : Register) : RegisterName :=
  if r = .sp then
    .stackPointer
  else if r = .pc then
    .programCounter
  else
    .general (UInt16.ofNat r.val)

namespace RegisterName

/-- The name of the register with an index, if there is one. -/
def ofIndex? (index : Word) : Option RegisterName :=
  (Register.ofWord index).toOption.map Register.name

/-- The last two decimal digits of a number, or its only one. -/
def digits (n : Nat) : List Char :=
  if n < 10 then
    [Nat.digitChar n]
  else
    [Nat.digitChar (n / 10 % 10), Nat.digitChar (n % 10)]

def text : RegisterName → String
  | general number => String.ofList ('R' :: digits number.toNat)
  | stackPointer => "SP"
  | programCounter => "PC"

end RegisterName

/-- The names and contents of all registers in the order of their indices. -/
def Registers.named (regs : Registers) : List (RegisterName × Word) :=
  (List.finRange 16).map fun r => (Register.name r, regs.get r)

end RegisterMachine
