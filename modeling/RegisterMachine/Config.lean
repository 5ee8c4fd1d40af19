import RegisterMachine.Instruction
import RegisterMachine.Memory
import RegisterMachine.Registers

/-!
# Configurations

A configuration is the contents of the registers and of memory. Everything that happens next
depends on it alone. Its next instruction is in the four words at the program counter; a fetch
reads them in turn and does not wrap around at the end of memory.
-/

namespace RegisterMachine

structure Config where
  registers : Registers
  memory : Memory

/-- What four words of memory stand for. -/
inductive Fetched where
  | instruction (i : Instruction)
  /-- The first word is the number of no operation. -/
  | undefined (opcode : Word)
deriving DecidableEq

def Fetched.ofWords (op a b c : Word) : Fetched :=
  match Instruction.decode op a b c with
  | some i => .instruction i
  | none => .undefined op

def Memory.fetch (m : Memory) (start : Nat) : Except FaultCause Fetched := do
  let op ← m.read start
  let a ← m.read (start + 1)
  let b ← m.read (start + 2)
  let c ← m.read (start + 3)
  return .ofWords op a b c

theorem Memory.fetch_of_slice {m : Memory} {start : Nat} {i : Instruction}
    (h : m.slice start 4 = i.encode) : m.fetch start = .ok (.instruction i) := by
  have hRead (k : Fin 4) : m.read (start + k) = .ok (i.encode.get k) := by
    have hIndex : k < (m.slice start 4).length := by
      rw [h]
      exact k.isLt
    rw [read_slice m start 4 k hIndex]
    congr 1
    exact List.getElem_of_eq h _
  have hOpcode : m.read start = .ok i.opcode.toWord := hRead 0
  have hA : m.read (start + 1) = .ok i.a := hRead 1
  have hB : m.read (start + 2) = .ok i.b := hRead 2
  have hC : m.read (start + 3) = .ok i.c := hRead 3
  rw [fetch, hOpcode, hA, hB, hC]
  change Except.ok (Fetched.ofWords i.opcode.toWord i.a i.b i.c) = _
  rw [Fetched.ofWords, Instruction.decode_encode]

namespace Config

/-- The reading of the four words at the program counter. -/
def fetch (c : Config) : Except Fault Fetched :=
  (c.memory.fetch c.registers.pc.toNat).mapError (Fault.mk c.registers.pc)

theorem fetch_of_slice {c : Config} {i : Instruction}
    (h : c.memory.slice c.registers.pc.toNat 4 = i.encode) : c.fetch = .ok (.instruction i) := by
  rw [fetch, Memory.fetch_of_slice h]
  rfl

/-- A fetch that faults tells where. -/
theorem pc_of_fetch_error {c : Config} {f : Fault} (h : c.fetch = .error f) :
    f.pc = c.registers.pc := by
  unfold fetch at h
  cases hFetch : c.memory.fetch c.registers.pc.toNat with
  | error cause =>
    rw [hFetch] at h
    cases h
    rfl
  | ok fetched =>
    rw [hFetch] at h
    cases h

def advance (c : Config) : Config :=
  { c with registers := c.registers.set .pc (c.registers.pc + Instruction.size) }

end Config

end RegisterMachine
