/-!
# Consoles

A console is a byte string still to be read and an output that is written to. Reading takes one
line at a time. The output may have room for a limited number of bytes only; a text that does not
fit is written as far as there is room, and the write fails.

Reading and writing leave a console behind also when they fail, because what was written stays
written and what was read stays read.

A program that writes and reads does not depend on where it does so: it is given a `Terminal`, and
that of a console (`Console.terminal`) is one of them.
-/

namespace RegisterMachine

/-- Something that texts are written to and lines are read from. A line that is read is empty only
at the end of the input. -/
structure Terminal (m : Type → Type) where
  write : String → m Unit
  readLine : m (List UInt8)

structure Console where
  input : List UInt8
  output : ByteArray := .empty
  /-- The number of bytes that can still be written, if there is a limit. -/
  room : Option Nat := none

namespace Console

inductive Failure where
  | outputClosed
  | invalidText
deriving DecidableEq

def Failure.message : Failure → String
  | outputClosed => "output closed"
  | invalidText => "stream did not contain valid UTF-8"

/-- Writes a text as far as there is room. -/
def write (text : String) : EStateM Failure Console Unit := fun console =>
  let { input, output, room } := console
  let bytes := text.toUTF8
  match room with
  | none => .ok () { input, output := output ++ bytes, room }
  | some n =>
    if bytes.size ≤ n then
      .ok () { input, output := output ++ bytes, room := some (n - bytes.size) }
    else
      .error .outputClosed { input, output := output ++ bytes.extract 0 n, room := some 0 }

/-- The first line of a byte string, with the line feed that ends it, and the rest. -/
def splitLine : List UInt8 → List UInt8 × List UInt8
  | [] => ([], [])
  | b :: bytes =>
    if b = 10 then
      ([b], bytes)
    else
      let (line, rest) := splitLine bytes
      (b :: line, rest)

/-- A line and the rest are the whole byte string. -/
theorem splitLine_append (bytes : List UInt8) :
    (splitLine bytes).1 ++ (splitLine bytes).2 = bytes := by
  induction bytes with
  | nil => rfl
  | cons b bytes ih =>
    unfold splitLine
    split
    · rfl
    · simpa using ih

theorem splitLine_fst_eq_nil_iff {bytes : List UInt8} :
    (splitLine bytes).1 = [] ↔ bytes = [] := by
  cases bytes with
  | nil => simp [splitLine]
  | cons b bytes =>
    unfold splitLine
    split <;> simp

/-- Reads one line, which is empty only at the end of the input. A line that is not text is read,
too, but reading it fails. -/
def readLine : EStateM Failure Console (List UInt8) := fun console =>
  let { input, output, room } := console
  let (line, input) := splitLine input
  if line.toByteArray.validateUTF8 then
    .ok line { input, output, room }
  else
    .error .invalidText { input, output, room }

def terminal : Terminal (EStateM Failure Console) where
  write := write
  readLine := readLine

end Console

end RegisterMachine
