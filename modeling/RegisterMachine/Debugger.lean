import RegisterMachine.Registers.Table
import RegisterMachine.Session

/-!
# The debugger

The debugger is an observer with a console. It writes every executed instruction and the register
table below it. A pausing debugger then asks for the enter key and waits for a line of input. When
there is no more input it ends the line of its question and never pauses again; when its console
fails it reports the failure and never pauses again, but it keeps trying to write.
-/

namespace RegisterMachine

structure Debugger where
  console : Console
  /-- Does it wait for a line after each instruction? -/
  pausing : Bool

namespace Debugger

def prompt : String := "Press enter to continue..."

def block (regs : Registers) (i : Instruction) : String :=
  i.text ++ "\n" ++ regs.table ++ "\n"

/-- Presents an executed instruction and tells whether to pause at the next one. -/
def present {m : Type → Type} [Monad m] (terminal : Terminal m) (regs : Registers)
    (i : Instruction) (pausing : Bool) : m Bool := do
  terminal.write (block regs i)
  if pausing then
    terminal.write prompt
    let line ← terminal.readLine
    if line.isEmpty then
      terminal.write "\n"
      return false
  return pausing

def observer : Observer Debugger where
  observe m i d :=
    match (present Console.terminal m.registers i d.pausing).run d.console with
    | .ok pausing console => ({ console, pausing }, none)
    | .error failure console => ({ console, pausing := false }, some failure)

end Debugger

end RegisterMachine
