import RegisterMachine.Console
import RegisterMachine.Machine
import RegisterMachine.Text.Quoted

/-!
# The log

What happens to a machine is noted in a log. A record has a level of severity and names the part of
the program that it comes from. A log has a threshold: it keeps the records at least as severe as
that, in the order in which they are made, and drops all others.
-/

namespace RegisterMachine

/-- How severe a record is, from the most to the least severe. -/
inductive Level where
  | error
  | warn
  | info
  | debug
  | trace
deriving DecidableEq

namespace Level

/-- The position of a level; the most severe one comes first. -/
def rank : Level → Nat
  | error => 0
  | warn => 1
  | info => 2
  | debug => 3
  | trace => 4

def name : Level → String
  | error => "ERROR"
  | warn => "WARN"
  | info => "INFO"
  | debug => "DEBUG"
  | trace => "TRACE"

end Level

inductive Record where
  | loaded (words : Nat)
  | executing (pc : Word) (i : Instruction)
  | halted (h : Halt)
  | faulted (f : Fault)
  /-- The console of the debugger failed. -/
  | consoleFailed (failure : Console.Failure)
  /-- The image of the program was read from a file. -/
  | imageRead (words : Nat) (path : String)
  /-- A program has come to its end. How long it took is not part of the record, so that its line
  ends with the number of steps. -/
  | finished (h : Halt) (steps : Nat)
deriving DecidableEq

namespace Record

def level : Record → Level
  | executing .. => .trace
  | loaded .. | halted .. | faulted .. => .debug
  | imageRead .. | finished .. => .info
  | consoleFailed .. => .warn

/-- The part of the program that makes such records. -/
def source : Record → String
  | loaded .. | executing .. | halted .. | faulted .. => "taijitu_vm"
  | consoleFailed .. => "taijitu::debugger"
  | imageRead .. | finished .. => "taijitu"

def haltText (h : Halt) : String :=
  "halted at " ++ Text.hexadecimal h.pc.toNat ++ " (opcode " ++
    Text.hexadecimal h.opcode.toNat ++ ")"

def message : Record → String
  | loaded words => "loaded " ++ toString words ++ " words"
  | executing pc i => Text.hexadecimal pc.toNat ++ ": " ++ i.text
  | halted h => haltText h
  | faulted f => "fault: " ++ f.message
  | consoleFailed failure => "debugger I/O failed: " ++ failure.message
  | imageRead words path =>
    "loaded " ++ toString words ++ " words from " ++ Text.quoted path
  | finished h steps => haltText h ++ " after " ++ toString steps ++ " steps"

def text (r : Record) : String :=
  r.level.name ++ " " ++ r.message

def line (r : Record) : String :=
  r.level.name ++ " " ++ r.source ++ ": " ++ r.message

end Record

/-- The records kept so far. Without a threshold none are kept. -/
structure Log where
  threshold : Option Level
  records : Array Record := #[]

namespace Log

def keeps (threshold : Option Level) (r : Record) : Bool :=
  match threshold with
  | none => false
  | some level => r.level.rank ≤ level.rank

def add (log : Log) (r : Record) : Log :=
  if keeps log.threshold r then
    { log with records := log.records.push r }
  else
    log

@[simp]
theorem threshold_add (log : Log) (r : Record) : (log.add r).threshold = log.threshold := by
  unfold add
  split <;> rfl

theorem toList_records_add (log : Log) (r : Record) :
    (log.add r).records.toList = log.records.toList ++ [r].filter (keeps log.threshold) := by
  unfold add
  split <;> simp_all

end Log

end RegisterMachine
