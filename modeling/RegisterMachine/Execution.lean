import RegisterMachine.Config

/-!
# Execution of instructions

An instruction is executed by reading and writing registers and memory in place, one after another.
An operand is checked when it is used, and the first check that fails ends the execution with a
fault. What was written before stays written, so it matters in which order an instruction checks
and writes.

A jump sets the program counter to one instruction before its target, because every instruction is
followed by moving the program counter past one.
-/

namespace RegisterMachine

/-- A part of the execution of an instruction. It leaves a configuration behind also when it
faults. -/
abbrev Execution := EStateM FaultCause Config

namespace Execution

def readRegister (operand : Word) : Execution Word := fun c =>
  match c.registers.read operand with
  | .ok w => .ok w c
  | .error cause => .error cause c

def setRegister (r : Register) (w : Word) : Execution Unit :=
  modify fun c => { c with registers := c.registers.set r w }

def writeRegister (operand w : Word) : Execution Unit := fun c =>
  match Register.ofWord operand with
  | .ok r => setRegister r w c
  | .error cause => .error cause c

def readMemory (n : Nat) : Execution Word := fun c =>
  match c.memory.read n with
  | .ok w => .ok w c
  | .error cause => .error cause c

def writeMemory (n : Nat) (w : Word) : Execution Unit := fun c =>
  match Address.ofNat n with
  | .ok x => .ok () { c with memory := c.memory.set x w }
  | .error cause => .error cause c

def stackPointer : Execution Word := do
  return (← get).registers.sp

def faultIf (p : Prop) [Decidable p] (cause : FaultCause) : Execution Unit := fun c =>
  if p then .error cause c else .ok () c

/-- Replaces the first register by a function of the second and the third. -/
def combine (i : Instruction) (f : Word → Word → Word) : Execution Unit := do
  let x ← readRegister i.b
  let y ← readRegister i.c
  writeRegister i.a (f x y)

def compare (i : Instruction) (f : Word → Word → Bool) : Execution Unit :=
  combine i fun x y => Word.ofBool (f x y)

/-- Replaces the first register by the quotient of the second and the third, rounded down. -/
def quotient (i : Instruction) : Execution Unit := do
  let x ← readRegister i.b
  let y ← readRegister i.c
  faultIf (y = 0) .divisionByZero
  writeRegister i.a (x / y)

/-- Sets the program counter so that the next instruction is the one at the target. -/
def jump (target : Word) : Execution Unit :=
  setRegister .pc (target - Instruction.size)

/-- Takes the top word off the stack. The stack pointer is read again after the word is written,
because it may be the register that receives the word. -/
def pop (operand : Word) : Execution Unit := do
  let top ← readMemory (← stackPointer).toNat
  writeRegister operand top
  setRegister .sp ((← stackPointer) + 1)

/-- Puts a register on the stack. The register is read again after the stack pointer has moved,
because it may be the stack pointer itself. -/
def push (operand : Word) : Execution Unit := do
  let sp := (← stackPointer) - 1
  let _ ← readRegister operand
  faultIf (Memory.capacity ≤ sp.toNat) (.outsideMemory sp.toNat)
  setRegister .sp sp
  let w ← readRegister operand
  writeMemory sp.toNat w

end Execution

open Execution in
/-- The execution of an instruction, except for moving the program counter past it. -/
def Instruction.execute (i : Instruction) : Execution Unit :=
  match i.opcode with
  | .add => combine i (· + ·)
  | .multiply => combine i (· * ·)
  | .subtract => combine i (· - ·)
  | .divide => quotient i
  | .copy => do
    let w ← readRegister i.b
    writeRegister i.a w
  | .constant => writeRegister i.a i.b
  | .load => do
    let w ← readMemory i.b.toNat
    writeRegister i.a w
  | .store => do
    let w ← readRegister i.b
    writeMemory i.a.toNat w
  | .equal => compare i (· == ·)
  | .less => compare i (· < ·)
  | .lessEqual => compare i (· ≤ ·)
  | .greater => compare i (· > ·)
  | .greaterEqual => compare i (· ≥ ·)
  | .jump => jump i.a
  | .jumpIfZero => do
    let w ← readRegister i.b
    if w = 0 then
      jump i.a
  | .pop => pop i.a
  | .push => push i.a

end RegisterMachine
