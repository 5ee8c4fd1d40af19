/-!
# Command-line arguments

A command line names one image and may ask for a way of watching and for a limit of steps. Options
may stand before and behind the image; two dashes end them, and a single dash is no option.

Arguments are read from left to right and the first mistake decides, with two exceptions: whether
an image is missing, and whether two ways of watching were asked for, is only known at the end. The
options for help and for the version act as soon as they are met.
-/

namespace RegisterMachine.CommandLine

inductive Mode where
  | silent
  /-- Every instruction is written. -/
  | trace
  /-- Every instruction is written, with a pause behind it. -/
  | step
deriving DecidableEq

structure Request where
  image : String
  mode : Mode
  /-- The number of steps after which a program that still runs is given up. -/
  limit : Option Nat
deriving DecidableEq

inductive Command where
  | help
  | version
  | run (request : Request)
deriving DecidableEq

inductive UsageError where
  | unknownOption
  | repeatedOption
  | missingValue
  | unexpectedValue
  | invalidNumber
  | emptyImage
  | extraArgument
  | missingImage
  | conflictingModes
deriving DecidableEq

def UsageError.message : UsageError → String
  | unknownOption => "there is no such option"
  | repeatedOption => "an option is given twice"
  | missingValue => "an option lacks its value"
  | unexpectedValue => "an option takes no value"
  | invalidNumber => "the limit of steps is no number"
  | emptyImage => "the name of the image is empty"
  | extraArgument => "there is more than one image"
  | missingImage => "there is no image"
  | conflictingModes => "the program cannot be both traced and stepped through"

/-- A single argument, taken by itself. -/
inductive Argument where
  | value (text : String)
  | endOfOptions
  /-- An option behind two dashes, and the value attached to it by an equals sign. -/
  | long (name : String) (attached : Option String)
  /-- The first option behind a single dash. -/
  | short (letter : Char)
deriving DecidableEq

def Argument.ofString (text : String) : Argument :=
  match text.toList with
  | ['-', '-'] => .endOfOptions
  | '-' :: '-' :: chars =>
    let name := String.ofList (chars.takeWhile (· ≠ '='))
    match chars.dropWhile (· ≠ '=') with
    | [] => .long name none
    | _ :: attached => .long name (some (String.ofList attached))
  | '-' :: letter :: _ => .short letter
  | _ => .value text

/-- The number written by a text: decimal digits behind at most one plus sign. It must be less
than 2 to the power of 64. -/
def number? (text : String) : Option Nat :=
  let digits :=
    match text.toList with
    | '+' :: digits => digits
    | digits => digits
  let n := Nat.ofDigitChars 10 digits 0
  if digits ≠ [] ∧ digits.all Char.isDigit ∧ n < UInt64.size then some n else none

structure Given where
  image : Option String := none
  trace : Bool := false
  step : Bool := false
  limit : Option Nat := none

namespace Given

def withImage (given : Given) (text : String) : Except UsageError Given :=
  if given.image.isSome then
    .error .extraArgument
  else if text = "" then
    .error .emptyImage
  else
    .ok { given with image := some text }

def withTrace (given : Given) : Except UsageError Given :=
  if given.trace then .error .repeatedOption else .ok { given with trace := true }

def withStep (given : Given) : Except UsageError Given :=
  if given.step then .error .repeatedOption else .ok { given with step := true }

def withLimit (given : Given) (text : String) : Except UsageError Given :=
  if given.limit.isSome then
    .error .repeatedOption
  else
    match number? text with
    | none => .error .invalidNumber
    | some n => .ok { given with limit := some n }

def mode (given : Given) : Except UsageError Mode :=
  match given.trace, given.step with
  | true, true => .error .conflictingModes
  | true, false => .ok .trace
  | false, true => .ok .step
  | false, false => .ok .silent

def finish (given : Given) : Except UsageError Command := do
  let mode ← given.mode
  match given.image with
  | none => throw .missingImage
  | some image => return .run { image, mode, limit := given.limit }

def read (given : Given) : List String → Except UsageError Command
  | [] => given.finish
  | arg :: args =>
    match Argument.ofString arg with
    | .value text => do (← given.withImage text).read args
    | .endOfOptions => do (← args.foldlM withImage given).finish
    | .short 'h' | .long "help" none => .ok .help
    | .short 'V' | .long "version" none => .ok .version
    | .long "trace" none => do (← given.withTrace).read args
    | .long "step" none => do (← given.withStep).read args
    | .long "max-steps" (some text) => do (← given.withLimit text).read args
    | .long "max-steps" none =>
      match args with
      | [] => .error .missingValue
      | next :: args =>
        match Argument.ofString next with
        | .value text => do (← given.withLimit text).read args
        | _ => .error .missingValue
    | .long "help" (some _) | .long "version" (some _) | .long "trace" (some _)
    | .long "step" (some _) => .error .unexpectedValue
    | .short _ | .long _ _ => .error .unknownOption

end Given

def Command.ofArguments (args : List String) : Except UsageError Command :=
  Given.read {} args

end RegisterMachine.CommandLine
