import RegisterMachine.Execution
import RegisterMachine.Memory.Image

/-!
# Machines

A machine is a configuration with a count of the instructions executed so far and a status. A
running machine stops in one of two ways: it halts at a word that is the number of no operation, or
an instruction faults. A stopped machine keeps its status.
-/

namespace RegisterMachine

/-- A regular stop: the address and the word that is no operation. -/
structure Halt where
  pc : Word
  opcode : Word
deriving DecidableEq

inductive Status where
  | running
  | halted (h : Halt)
  | faulted (f : Fault)
deriving DecidableEq

/-- A configuration at work. -/
structure Machine extends Config where
  steps : Nat := 0
  status : Status := .running

namespace Machine

def boot (m : Memory) : Machine :=
  { registers := .initial, memory := m }

def advance (m : Machine) : Machine :=
  { m with toConfig := m.toConfig.advance }

def load (m : Machine) (image : ByteArray) : Except ImageTooLarge (Nat × Machine) := do
  let (words, memory) ← m.memory.load image
  return (words, { m with memory })

end Machine

end RegisterMachine
