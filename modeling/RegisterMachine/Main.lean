import RegisterMachine.CommandLine.Host

/-!
# The command line

The outermost layer is the host that a process is: its files are those of the system, its terminal
consists of the standard input and the standard output, and records and errors are written to the
standard error.
-/

namespace RegisterMachine.CommandLine

def systemError : IO.Error → SystemError
  | .alreadyExists _ n text | .otherError n text | .resourceBusy n text
  | .resourceVanished n text | .unsupportedOperation n text | .hardwareFault n text
  | .unsatisfiedConstraints n text | .illegalOperation n text | .protocolError n text
  | .timeExpired n text | .interrupted _ n text | .noFileOrDirectory _ n text
  | .invalidArgument _ n text | .permissionDenied _ n text | .resourceExhausted _ n text
  | .inappropriateType _ n text | .noSuchThing _ n text => ⟨text, n.toNat⟩
  | .unexpectedEof => ⟨"unexpected end of file", 0⟩
  | .userError text => ⟨text, 0⟩

def readFile (path : String) : IO Reading := do
  match ← (IO.FS.Handle.mk path .read).toBaseIO with
  | .error e => return .cannotOpen (systemError e)
  | .ok handle =>
    match ← handle.readBinToEnd.toBaseIO with
    | .error e => return .cannotRead (systemError e)
    | .ok bytes => return .contents bytes

/-- Reads bytes up to a line feed or to the end of the input. -/
partial def readBytes (input : IO.FS.Stream) (line : List UInt8) : IO (List UInt8) := do
  match (← input.read 1).toList with
  | [] => return line.reverse
  | b :: _ => if b = 10 then return (b :: line).reverse else readBytes input (b :: line)

/-- Reads a line, which fails if the line is not text. -/
def readLine : ExceptT Console.Failure IO (List UInt8) := do
  let line ← readBytes (← IO.getStdin) []
  if line.toByteArray.validateUTF8 then
    return line
  else
    throwThe Console.Failure .invalidText

/-- Writes a text at once. If that is not possible, the output counts as closed. -/
def writeOutput (text : String) : ExceptT Console.Failure IO Unit := do
  let output ← IO.getStdout
  let written : IO Unit := output.putStr text *> output.flush
  match ← written.toBaseIO with
  | .ok () => return ()
  | .error _ => throwThe Console.Failure .outputClosed

def process : Host IO where
  readFile := readFile
  terminal := { write := writeOutput, readLine := readLine }
  writeRecord r := IO.eprintln r.line
  writeError := IO.eprint

end RegisterMachine.CommandLine

open RegisterMachine RegisterMachine.CommandLine in
def main (args : List String) : IO UInt32 := do
  let setting ← IO.getEnv "TAIJITU_LOG"
  let code ← process.execute (threshold setting) args
  return code.toUInt32
