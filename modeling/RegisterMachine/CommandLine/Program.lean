import RegisterMachine.CommandLine.Arguments
import RegisterMachine.CommandLine.FileTree
import RegisterMachine.Debugger

/-!
# The program

The program reads an image, loads it into the memory of a new machine and runs it, watched as the
command line asks. It succeeds if the machine halts. It fails if the image cannot be read or does
not fit, if an instruction faults, or if the machine still runs at its limit of steps.

All of this is a function of the arguments, the files, the standard input and the threshold of the
log (`answer`).
-/

namespace RegisterMachine.CommandLine

inductive Failure where
  | cannotOpen (path : String) (e : SystemError)
  | cannotRead (e : SystemError)
  | cannotLoad (e : ImageTooLarge)
  | stillRunning (limit : Nat)
  | faulted (f : Fault)
deriving DecidableEq

namespace Failure

def headline : Failure → String
  | cannotOpen path _ => "failed to open " ++ Text.quoted path
  | cannotRead _ => "failed to read file"
  | cannotLoad _ => "failed to load image"
  | stillRunning limit => "still running after " ++ toString limit ++ " steps"
  | faulted f => f.message

/-- What lies behind it, if anything. -/
def reason? : Failure → Option String
  | cannotOpen _ e | cannotRead e => some e.message
  | cannotLoad e => some e.message
  | stillRunning _ | faulted _ => none

def text (failure : Failure) : String :=
  match failure.reason? with
  | none => "Error: " ++ failure.headline ++ "\n"
  | some reason => "Error: " ++ failure.headline ++ "\n\nCaused by:\n    " ++ reason ++ "\n"

end Failure

def helpText : String :=
  "Runs a program image\n\nUsage: taijitu [--step | --trace] [--max-steps N] IMAGE\n\n" ++
  "  --step         Print registers after every instruction and wait for Enter\n" ++
  "  --trace        Print registers after every instruction, without pausing\n" ++
  "  --max-steps N  Stop with an error after this many instructions\n" ++
  "  -h, --help     Print help\n" ++
  "  -V, --version  Print version\n"

def versionText : String := "taijitu-cli 0.1.0\n"

def UsageError.text (e : UsageError) : String :=
  "error: " ++ e.message ++ "\n"

structure Report where
  log : Array Record
  output : ByteArray
  failure : Option Failure

/-- The text of the failure, if there was one. -/
def Report.errorText (r : Report) : String :=
  match r.failure with
  | none => ""
  | some failure => failure.text

inductive Answer where
  | help
  | version
  | refused (e : UsageError)
  | report (r : Report)

namespace Answer

def exitCode : Answer → Nat
  | help | version => 0
  | refused _ => 1
  | report r => if r.failure.isSome then 1 else 0

def output : Answer → ByteArray
  | help => helpText.toUTF8
  | version => versionText.toUTF8
  | refused _ => .empty
  | report r => r.output

def log : Answer → Array Record
  | help | version | refused _ => #[]
  | report r => r.log

def errorText : Answer → String
  | help | version => ""
  | refused e => e.text
  | report r => r.errorText

end Answer

/-- The threshold of the log by its setting: the name of a level, in letters of either case, or
`off`. Without a setting it is at the level of information. Any other setting picks records by the
part of the program that makes them; this is not modelled, and nothing is kept, as if no part were
picked. -/
def threshold (setting : Option String) : Option Level :=
  match setting with
  | none => some .info
  | some word =>
    match word.toLower with
    | "off" => none
    | "error" => some .error
    | "warn" => some .warn
    | "info" => some .info
    | "debug" => some .debug
    | "trace" => some .trace
    | _ => none

/-- The limit of steps, which is the largest one there is if none was given. -/
def Request.maxSteps (request : Request) : Nat :=
  request.limit.getD Session.maxSteps

def Request.run {σ : Type} (request : Request) (o : Observer σ) (s : Session σ) :
    Outcome σ (Option Halt) :=
  match request.limit with
  | some limit => s.runFor o limit
  | none => s.run o

/-- Why a run with a limit of steps failed, if it did, by its answer. -/
def failure? (limit : Nat) : Except Fault (Option Halt) → Option Failure
  | .ok (some _) => none
  | .ok none => some (.stillRunning limit)
  | .error f => some (.faulted f)

/-- A session with the image of a file in the memory of a new machine. -/
def prepare {σ : Type} (path : String) (file : Reading) (watch : σ) (log : Log) :
    Except Failure (Session σ) :=
  match file with
  | .cannotOpen e => .error (.cannotOpen path e)
  | .cannotRead e => .error (.cannotRead e)
  | .contents image =>
    let new : Session σ := { machine := .boot .zero, watch, log }
    match new.load image with
    | .error e => .error (.cannotLoad e)
    | .ok (words, s) => .ok (s.note (.imageRead words path))

def conclude {σ : Type} (outcome : Outcome σ (Option Halt)) : Session σ :=
  let { answer, session } := outcome
  match answer with
  | .ok (some h) => session.note (.finished h session.machine.steps)
  | _ => session

/-- Reads, loads and runs an image. The output is found in the state of the observer. -/
def perform {σ : Type} (o : Observer σ) (watch : σ) (output : σ → ByteArray) (request : Request)
    (file : Reading) (threshold : Option Level) : Report :=
  match prepare request.image file watch { threshold } with
  | .error failure => { log := #[], output := output watch, failure := some failure }
  | .ok s =>
    let outcome := request.run o s
    let s := conclude outcome
    { log := s.log.records
      output := output s.watch
      failure := failure? request.maxSteps outcome.answer }

/-- Fulfils a request, watched as it asks. -/
def Request.perform (request : Request) (file : Reading) (input : List UInt8)
    (threshold : Option Level) : Report :=
  let debugger (pausing : Bool) : Report :=
    CommandLine.perform Debugger.observer { console := { input }, pausing } (·.console.output)
      request file threshold
  match request.mode with
  | .silent => CommandLine.perform .idle () (fun _ => .empty) request file threshold
  | .trace => debugger false
  | .step => debugger true

def answer (args : List String) (read : String → Reading) (input : List UInt8)
    (threshold : Option Level) : Answer :=
  match Command.ofArguments args with
  | .error e => .refused e
  | .ok .help => .help
  | .ok .version => .version
  | .ok (.run request) => .report (request.perform (read request.image) input threshold)

end RegisterMachine.CommandLine
