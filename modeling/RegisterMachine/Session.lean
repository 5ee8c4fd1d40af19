import RegisterMachine.Log

/-!
# Sessions

A session is a machine together with an observer at work and a log. The observer is shown every
executed instruction and the machine just after it, with the program counter still at the
instruction; it keeps a state of its own and may report a failure, but it cannot change the
machine.

A session can make one step, run for a number of steps at most, or run until its machine stops.
Each call has an answer and leaves a session (`Outcome`); a fault is an answer, too.

* `step` executes one instruction or stops the machine. A stopped machine is left alone and answers
  again as it did when it stopped.
* `runFor` counts only executed instructions against its budget. A halt executes nothing, so one
  that is due when the budget is used up still happens; a fault that is due then does not.
* Steps are counted up to `maxSteps`. `run` has no answer if its machine still runs after that.
-/

namespace RegisterMachine

/-- Something that looks on while a machine runs. -/
structure Observer (σ : Type) where
  /-- The next state of the observer, and its failure if it has one to report. -/
  observe : Machine → Instruction → σ → σ × Option Console.Failure

def Observer.idle : Observer Unit where
  observe _ _ _ := ((), none)

structure Session (σ : Type) where
  machine : Machine
  watch : σ
  log : Log

/-- What a step has done, unless it faults. -/
inductive Step where
  | executed
  | halted (h : Halt)
deriving DecidableEq

/-- What a call answers, and the session that it leaves. -/
structure Outcome (σ α : Type) where
  answer : Except Fault α
  session : Session σ

instance {σ α : Type} : CoeOut (Outcome σ α) (Session σ) :=
  ⟨Outcome.session⟩

namespace Session

variable {σ : Type}

/-- Loads an image. The number of its words is noted, and it is answered, too. -/
def load (s : Session σ) (image : ByteArray) : Except ImageTooLarge (Nat × Session σ) := do
  let (words, machine) ← s.machine.load image
  return (words, { s with machine, log := s.log.add (.loaded words) })

def note (s : Session σ) (r : Record) : Session σ :=
  { s with log := s.log.add r }

def halt (s : Session σ) (h : Halt) : Session σ :=
  { s with machine := { s.machine with status := .halted h }, log := s.log.add (.halted h) }

def fault (s : Session σ) (f : Fault) : Session σ :=
  { s with machine := { s.machine with status := .faulted f }, log := s.log.add (.faulted f) }

/-- Shows the machine after an instruction to the observer, whose failure is noted. -/
def present (o : Observer σ) (i : Instruction) (s : Session σ) : Session σ :=
  let { machine, watch, log } := s
  let (watch, failure) := o.observe machine i watch
  match failure with
  | none => { machine, watch, log }
  | some failure => { machine, watch, log := log.add (.consoleFailed failure) }

def advance (s : Session σ) : Session σ :=
  { s with machine := s.machine.advance }

/-- Executes an instruction, counts it and shows it to the observer before the program counter
moves on. -/
def execute (o : Observer σ) (i : Instruction) (s : Session σ) : Outcome σ Step :=
  let { machine := { toConfig := config, steps, status }, watch, log } := s
  let pc := config.registers.pc
  match i.execute config with
  | .error cause config =>
    let machine := { toConfig := config, steps, status }
    ⟨.error { pc, cause }, fault { machine, watch, log } { pc, cause }⟩
  | .ok () config =>
    let machine := { toConfig := config, steps := steps + 1, status }
    ⟨.ok .executed, (present o i { machine, watch, log }).advance⟩

def step (o : Observer σ) (s : Session σ) : Outcome σ Step :=
  match s.machine.status with
  | .halted h => ⟨.ok (.halted h), s⟩
  | .faulted f => ⟨.error f, s⟩
  | .running =>
    let pc := s.machine.registers.pc
    match s.machine.fetch with
    | .error f => ⟨.error f, s.fault f⟩
    | .ok (.undefined opcode) => ⟨.ok (.halted { pc, opcode }), s.halt { pc, opcode }⟩
    | .ok (.instruction i) => (s.note (.executing pc i)).execute o i

@[simp]
theorem machine_present (o : Observer σ) (i : Instruction) (s : Session σ) :
    (present o i s).machine = s.machine := by
  unfold present
  dsimp only
  split <;> rfl

/-- An executed instruction is counted. -/
theorem steps_of_step_executed {o : Observer σ} {s t : Session σ}
    (h : s.step o = ⟨.ok .executed, t⟩) : t.machine.steps = s.machine.steps + 1 := by
  unfold step at h
  split at h
  · cases h
  · cases h
  · dsimp only at h
    split at h
    · cases h
    · cases h
    · unfold execute at h
      dsimp only [note] at h
      split at h
      · cases h
      · cases h
        simp [advance, Machine.advance]

/-- Makes steps until the machine stops, but only while fewer than a number of them are counted. -/
def runTo (o : Observer σ) (limit : Nat) (s : Session σ) : Outcome σ (Option Halt) :=
  if s.machine.steps < limit then
    match _ : s.step o with
    | ⟨.ok .executed, t⟩ => t.runTo o limit
    | ⟨.ok (.halted h), t⟩ => ⟨.ok (some h), t⟩
    | ⟨.error f, t⟩ => ⟨.error f, t⟩
  else
    ⟨.ok none, s⟩
termination_by limit - s.machine.steps
decreasing_by
  have hSteps := steps_of_step_executed ‹_›
  omega

/-- Answers how the machine has stopped. A running machine halts if it has no instruction to
execute next. -/
def settle (s : Session σ) : Outcome σ (Option Halt) :=
  match s.machine.status with
  | .halted h => ⟨.ok (some h), s⟩
  | .faulted f => ⟨.error f, s⟩
  | .running =>
    let pc := s.machine.registers.pc
    match s.machine.fetch with
    | .ok (.undefined opcode) => ⟨.ok (some { pc, opcode }), s.halt { pc, opcode }⟩
    | _ => ⟨.ok none, s⟩

/-- The largest number of steps that is counted. -/
def maxSteps : Nat := UInt64.size - 1

/-- Runs until the machine stops or a number of instructions has been executed. -/
def runFor (o : Observer σ) (budget : Nat) (s : Session σ) : Outcome σ (Option Halt) :=
  match s.runTo o (min (s.machine.steps + budget) maxSteps) with
  | ⟨.ok none, t⟩ => t.settle
  | stopped => stopped

/-- Runs until the machine stops, or until its steps can no longer be counted. -/
def run (o : Observer σ) (s : Session σ) : Outcome σ (Option Halt) :=
  s.runTo o (maxSteps + 1)

end Session

end RegisterMachine
