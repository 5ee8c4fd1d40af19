import RegisterMachine.Fault

/-!
# The register file

There are sixteen registers of one word each. Register 14 is the stack pointer and register 15 the
program counter; otherwise they are registers like all others, and instructions may read and write
them. An operand of an instruction is any word, so it has to be resolved to a register first.

A register file is seen through `get`: writing one register changes what `get` says of that
register and of no other (`get_set`), and two files that agree on every register are equal (`ext`).
-/

namespace RegisterMachine

abbrev Register := Fin 16

namespace Register

def count : Nat := 16

def sp : Register := 14

def pc : Register := 15

/-- The register that an operand names. -/
def ofWord (operand : Word) : Except FaultCause Register :=
  if h : operand.toNat < 16 then
    .ok ⟨operand.toNat, h⟩
  else
    .error (.noRegister operand)

theorem ofWord_of_lt {operand : Word} (h : operand.toNat < 16) :
    ofWord operand = .ok ⟨operand.toNat, h⟩ :=
  dif_pos h

theorem ofWord_of_le {operand : Word} (h : 16 ≤ operand.toNat) :
    ofWord operand = .error (.noRegister operand) :=
  dif_neg (Nat.not_lt.mpr h)

end Register

structure Registers where
  words : Vector Word 16
deriving DecidableEq

namespace Registers

def get (regs : Registers) (r : Register) : Word :=
  regs.words[r]

def set (regs : Registers) (r : Register) (w : Word) : Registers :=
  ⟨regs.words.set r w⟩

theorem get_set (regs : Registers) (r s : Register) (w : Word) :
    (regs.set r w).get s = if r = s then w else regs.get s := by
  simp [get, set, Vector.getElem_set, Fin.ext_iff]

@[simp]
theorem get_set_self (regs : Registers) (r : Register) (w : Word) :
    (regs.set r w).get r = w := by
  simp [get_set]

theorem get_set_of_ne (regs : Registers) {r s : Register} (w : Word) (h : r ≠ s) :
    (regs.set r w).get s = regs.get s := by
  simp [get_set, h]

@[ext]
theorem ext {regs regs' : Registers} (h : ∀ r, regs.get r = regs'.get r) : regs = regs' := by
  cases regs
  cases regs'
  congr 1
  apply Vector.ext
  intro i hi
  exact h ⟨i, hi⟩

@[simp]
theorem set_set (regs : Registers) (r : Register) (v w : Word) :
    (regs.set r v).set r w = regs.set r w := by
  ext s
  simp only [get_set]
  split <;> rfl

theorem set_comm (regs : Registers) {r s : Register} (v w : Word) (h : r ≠ s) :
    (regs.set r v).set s w = (regs.set s w).set r v := by
  ext t
  simp only [get_set]
  split
  · next hs => rw [if_neg fun hr => h (hr.trans hs.symm)]
  · rfl

@[simp]
theorem set_get (regs : Registers) (r : Register) : regs.set r (regs.get r) = regs := by
  ext s
  rw [get_set]
  split
  · next hEq => rw [hEq]
  · rfl

/-- The registers of a new machine: the stack pointer is at the top and all others are zero. -/
def initial : Registers :=
  Registers.set ⟨Vector.replicate 16 0⟩ .sp 65535

theorem get_initial (r : Register) : initial.get r = if Register.sp = r then 65535 else 0 := by
  rw [initial, get_set]
  simp [get]

def sp (regs : Registers) : Word :=
  regs.get .sp

def pc (regs : Registers) : Word :=
  regs.get .pc

def read (regs : Registers) (operand : Word) : Except FaultCause Word := do
  let r ← Register.ofWord operand
  return regs.get r

def write (regs : Registers) (operand w : Word) : Except FaultCause Registers := do
  let r ← Register.ofWord operand
  return regs.set r w

theorem read_of_lt (regs : Registers) {operand : Word} (h : operand.toNat < 16) :
    regs.read operand = .ok (regs.get ⟨operand.toNat, h⟩) := by
  rw [read, Register.ofWord_of_lt h]
  rfl

theorem read_of_le (regs : Registers) {operand : Word} (h : 16 ≤ operand.toNat) :
    regs.read operand = .error (.noRegister operand) := by
  rw [read, Register.ofWord_of_le h]
  rfl

theorem write_of_lt (regs : Registers) {operand : Word} (h : operand.toNat < 16) (w : Word) :
    regs.write operand w = .ok (regs.set ⟨operand.toNat, h⟩ w) := by
  rw [write, Register.ofWord_of_lt h]
  rfl

theorem write_of_le (regs : Registers) {operand : Word} (h : 16 ≤ operand.toNat) (w : Word) :
    regs.write operand w = .error (.noRegister operand) := by
  rw [write, Register.ofWord_of_le h]
  rfl

end Registers

end RegisterMachine
