import RegisterMachine.Session

/-!
# The recorder

The recorder is an observer that writes down what it is shown: for each executed instruction the
count of steps, the program counter, the instruction itself, and what a fetch finds at that moment.
-/

namespace RegisterMachine

/-- What is seen of the machine after an executed instruction. -/
structure Sighting where
  steps : Nat
  pc : Word
  instruction : Instruction
  /-- What a fetch finds, unless it faults. -/
  next : Option Fetched
deriving DecidableEq

def Machine.sighting (m : Machine) (i : Instruction) : Sighting where
  steps := m.steps
  pc := m.registers.pc
  instruction := i
  next := m.fetch.toOption

def Observer.recorder : Observer (Array Sighting) where
  observe m i seen := (seen.push (m.sighting i), none)

end RegisterMachine
