import RegisterMachine.CommandLine.Program

/-!
# Running on a host

A host has files, a terminal, and somewhere to write records and errors to. The program runs on a
host by making one step after another: what a step has noted and what it shows to the debugger is
written before the next one is made, so that a pausing debugger waits between two instructions and a
program that never stops is not silent.

Nothing is assumed of a host. What it is to do is decided by the machine alone, but for the pauses:
these end as the terminal answers.
-/

namespace RegisterMachine

/-- An observer that keeps what it was shown last. -/
def Observer.latest : Observer (Option (Registers × Instruction)) where
  observe m i _ := (some (m.registers, i), none)

/-- A session in which nothing has been noted yet. -/
def Session.fresh {σ : Type} (machine : Machine) (watch : σ) (threshold : Option Level) :
    Session σ :=
  { machine, watch, log := { threshold } }

namespace CommandLine

structure Host (m : Type → Type) where
  readFile : String → m Reading
  terminal : Terminal (ExceptT Console.Failure m)
  writeRecord : Record → m Unit
  writeError : String → m Unit

/-- Whether there is a debugger, and whether it pauses. -/
def Mode.pausing? : Mode → Option Bool
  | silent => none
  | trace => some false
  | step => some true

namespace Host

variable {m : Type → Type} [Monad m] (host : Host m) (threshold : Option Level)

def writeLog (log : Log) : m Unit :=
  forM log.records.toList host.writeRecord

/-- Writes what a call has noted, and tells what it answers and the machine that it leaves. -/
def report {σ α : Type} (outcome : Outcome σ α) : m (Except Fault α × Machine) := do
  host.writeLog outcome.session.log
  return (outcome.answer, outcome.session.machine)

/-- Lets the debugger present what was shown, if there is one, and tells whether it pauses the next
time. -/
def present (shown : Option (Registers × Instruction)) (pausing? : Option Bool) :
    m (Option Bool) := do
  match shown, pausing? with
  | some (regs, i), some pausing =>
    match ← (Debugger.present host.terminal regs i pausing).run with
    | .ok pausing => return some pausing
    | .error failure =>
      host.writeLog (Log.add { threshold } (.consoleFailed failure))
      return some false
  | _, _ => return pausing?

/-- Makes steps until the machine stops, but only while fewer than a number of them are counted. -/
def runTo (limit : Nat) (pausing? : Option Bool) (machine : Machine) :
    m (Except Fault (Option Halt) × Machine) :=
  if machine.steps < limit then
    match _ : (Session.fresh machine none threshold).step .latest with
    | ⟨.ok .executed, t⟩ => do
      host.writeLog t.log
      let pausing? ← host.present threshold t.watch pausing?
      runTo limit pausing? t.machine
    | ⟨.ok (.halted h), t⟩ => host.report ⟨.ok (some h), t⟩
    | ⟨.error f, t⟩ => host.report ⟨.error f, t⟩
  else
    return (.ok none, machine)
termination_by limit - machine.steps
decreasing_by
  have hSteps := Session.steps_of_step_executed ‹_›
  dsimp only [Session.fresh] at hSteps
  omega

/-- Runs until the machine stops or a number of instructions has been executed. -/
def runFor (budget : Nat) (pausing? : Option Bool) (machine : Machine) :
    m (Except Fault (Option Halt) × Machine) := do
  let limit := min (machine.steps + budget) Session.maxSteps
  match ← host.runTo threshold limit pausing? machine with
  | (.ok none, machine) => host.report (Session.fresh machine () threshold).settle
  | stopped => return stopped

def run (request : Request) (machine : Machine) : m (Except Fault (Option Halt) × Machine) :=
  let pausing? := request.mode.pausing?
  match request.limit with
  | some limit => host.runFor threshold limit pausing? machine
  | none => host.runTo threshold (Session.maxSteps + 1) pausing? machine

/-- Reads, loads and runs an image, and tells how that failed, if it did. -/
def perform (request : Request) : m (Option Failure) := do
  match prepare request.image (← host.readFile request.image) () { threshold } with
  | .error failure => return some failure
  | .ok s =>
    host.writeLog s.log
    let (answer, machine) ← host.run threshold request s.machine
    host.writeLog (conclude ⟨answer, .fresh machine () threshold⟩).log
    return failure? request.maxSteps answer

/-- Does what the arguments ask for. The exit code is returned. -/
def execute (args : List String) : m Nat := do
  match Command.ofArguments args with
  | .error e =>
    host.writeError e.text
    return 1
  | .ok .help =>
    let _ ← (host.terminal.write helpText).run
    return 0
  | .ok .version =>
    let _ ← (host.terminal.write versionText).run
    return 0
  | .ok (.run request) =>
    match ← host.perform threshold request with
    | none => return 0
    | some failure =>
      host.writeError failure.text
      return 1

end Host

end CommandLine

end RegisterMachine
