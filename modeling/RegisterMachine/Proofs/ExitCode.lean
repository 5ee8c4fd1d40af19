import RegisterMachine.Proofs.Messages
import RegisterMachine.Proofs.Reports
import RegisterMachine.Proofs.Stops

/-!
# The exit code of the command line

Scripts see three things of a program: its exit code, the text of its error, and its output. They
are told by the machine that holds the image, when it is left alone: after how many instructions it
stops, if it does, and how (`Machine.StopsAfter`).

* `ends_of_request`: the three ways in which a program can end.
* `limitText`, `faultText`: what is to be read when a program fails; `limitText_inj` and
  `faultText_ne_limitText`: that tells what has failed; `text_stillRunning`, `text_faulted`: the
  program writes it.
* `Ends.failure_eq_none_iff`, `Ends.text_of_some`: which programs leave a failure, and which one.
* `command_line_outcome`: the exit code, the error and the output.
-/

namespace RegisterMachine

/-- Is it the record of a program that has come to its end? -/
def Record.isFinish : Record → Bool
  | finished .. => true
  | _ => false

namespace CommandLine

/-! ## How a program ends -/

/-- How a machine that works for a request can end after a number of instructions, and what is
answered then. -/
inductive Ends (request : Request) (m : Machine) (k : Nat) : Except Fault (Option Halt) → Prop where
  | halted (h : Halt) (hStop : m.StopsAfter k (.ok h))
      (hLimit : ∀ n, request.limit = some n → k ≤ n) : Ends request m k (.ok (some h))
  | faulted (f : Fault) (hStop : m.StopsAfter k (.error f))
      (hLimit : ∀ n, request.limit = some n → k < n) : Ends request m k (.error f)
  | exhausted (hLimit : request.limit = some k) (hLasts : m.Outlasts k) :
      Ends request m k (.ok none)

/-- A request lets a machine come to a stop after a number of instructions: a fault has to come
before the limit, and without a limit the steps must be few enough to be counted. -/
def Request.Allows (request : Request) (k : Nat) (stop : Except Fault Halt) : Prop :=
  match request.limit with
  | some n => k ≤ n ∧ ∀ f, stop = .error f → k < n
  | none => k ≤ Session.maxSteps

section

variable {request : Request} {m : Machine} {k n : Nat} {stop : Except Fault Halt}

theorem allows_of_some (hCase : request.limit = some n) :
    request.Allows k stop ↔ k ≤ n ∧ ∀ f, stop = .error f → k < n := by
  rw [Request.Allows, hCase]

theorem allows_of_none (hCase : request.limit = none) :
    request.Allows k stop ↔ k ≤ Session.maxSteps := by
  rw [Request.Allows, hCase]

/-- A stop that a request allows is where it ends. -/
theorem reach_of_stop (hRunning : m.status = .running) (hStop : m.StopsAfter k stop)
    (hAllows : request.Allows k stop) :
    request.reach m.toConfig = (k, true) ∧ request.answer m.toConfig = stop.map some := by
  obtain ⟨hLength, hVerdict⟩ := (Machine.stopsAfter_iff hRunning).mp hStop
  have hEnd := Config.upcoming?_of_verdict hVerdict
  have hReach : request.reach m.toConfig = (k, true) := by
    unfold Request.reach
    cases hCase : request.limit with
    | some n =>
      obtain ⟨hLe, hLt⟩ := (allows_of_some hCase).mp hAllows
      have hFault (f : Fault) (hError : (m.after k).verdict = .error f) : k < n :=
        hLt f (Machine.map_halted_inj (hVerdict.symm.trans hError))
      dsimp only
      rw [(Config.course_of_stop hEnd hLe).1, hLength,
        Config.stopsBy_of_stop hLength hEnd hLe hFault]
    | none =>
      have hLt : k < UInt64.size := Nat.lt_succ_of_le ((allows_of_none hCase).mp hAllows)
      dsimp only
      rw [(Config.course_of_stop hEnd (Nat.le_of_lt hLt)).1, hLength, decide_eq_true hLt]
  refine ⟨hReach, ?_⟩
  rw [Request.answer, hReach]
  dsimp only
  rw [if_pos rfl, hVerdict]
  cases stop <;> rfl

/-- A machine that does not stop in time is where the limit ends a request. -/
theorem reach_of_outlasts (hRunning : m.status = .running) (hLimit : request.limit = some n)
    (hLasts : m.Outlasts n) :
    request.reach m.toConfig = (n, false) ∧ request.answer m.toConfig = .ok none := by
  have hFull : (m.course n).length = n := by
    by_contra hNot
    have hShort : (m.course n).length < n :=
      Nat.lt_of_le_of_ne (Config.length_course_le _ n) hNot
    obtain ⟨hCourse, hAfter⟩ := Config.course_length_course m.toConfig n
    obtain ⟨stop, hVerdict⟩ :=
      Config.exists_stop_of_upcoming? (Config.upcoming?_after_of_lt hShort)
    rw [← hAfter] at hVerdict
    have hStop := (Machine.stopsAfter_iff hRunning).mpr ⟨congrArg List.length hCourse, hVerdict⟩
    cases stop with
    | ok h => exact absurd hShort (Nat.lt_asymm (hLasts.1 _ h hStop))
    | error f => exact absurd hShort (Nat.not_lt.mpr (hLasts.2 _ f hStop))
  have hHalt (h : Halt) : (m.after n).verdict ≠ .ok (.halted h) := by
    intro hVerdict
    have hStop : m.StopsAfter n (.ok h) :=
      (Machine.stopsAfter_iff hRunning).mpr ⟨hFull, hVerdict⟩
    exact Nat.lt_irrefl n (hLasts.1 n h hStop)
  have hReach : request.reach m.toConfig = (n, false) := by
    rw [Request.reach, hLimit]
    dsimp only
    rw [hFull, Config.stopsBy_of_full hFull hHalt]
  refine ⟨hReach, ?_⟩
  rw [Request.answer, hReach]
  rfl

/-- A machine whose stops are all too late for a limit outlasts it. -/
theorem outlasts_of_not_allows (hLimit : request.limit = some n)
    (hLate : ∀ k stop, m.StopsAfter k stop → ¬request.Allows k stop) : m.Outlasts n := by
  constructor
  · intro k h hStop
    by_contra hNot
    refine hLate k _ hStop ((allows_of_some hLimit).mpr ⟨Nat.not_lt.mp hNot, fun f hError => ?_⟩)
    cases hError
  · intro k f hStop
    by_contra hNot
    have hLt : k < n := Nat.not_le.mp hNot
    exact hLate k _ hStop ((allows_of_some hLimit).mpr ⟨Nat.le_of_lt hLt, fun _ _ => hLt⟩)

theorem ends_of_stop (hStop : m.StopsAfter k stop) (hAllows : request.Allows k stop) :
    Ends request m k (stop.map some) := by
  cases stop with
  | ok h => exact .halted h hStop fun n hCase => ((allows_of_some hCase).mp hAllows).1
  | error f => exact .faulted f hStop fun n hCase => ((allows_of_some hCase).mp hAllows).2 f rfl

/-- A request ends in one of three ways if the program stops or there is a limit. -/
theorem ends_of_request (hRunning : m.status = .running)
    (hStops : request.limit = none → ∃ k stop, k ≤ Session.maxSteps ∧ m.StopsAfter k stop) :
    Ends request m (request.reach m.toConfig).1 (request.answer m.toConfig) := by
  by_cases hInTime : ∃ k stop, m.StopsAfter k stop ∧ request.Allows k stop
  · obtain ⟨k, stop, hStop, hAllows⟩ := hInTime
    obtain ⟨hReach, hAnswer⟩ := reach_of_stop hRunning hStop hAllows
    rw [hReach, hAnswer]
    exact ends_of_stop hStop hAllows
  · cases hCase : request.limit with
    | none =>
      obtain ⟨k, stop, hCount, hStop⟩ := hStops hCase
      exact absurd ⟨k, stop, hStop, (allows_of_none hCase).mpr hCount⟩ hInTime
    | some n =>
      have hLasts : m.Outlasts n :=
        outlasts_of_not_allows hCase fun k stop hStop hAllows => hInTime ⟨k, stop, hStop, hAllows⟩
      obtain ⟨hReach, hAnswer⟩ := reach_of_outlasts hRunning hCase hLasts
      rw [hReach, hAnswer]
      exact .exhausted hCase hLasts

end

/-! ## The text of an error -/

/-- What is to be read of a limit that was reached. -/
def limitText (limit : Nat) : String :=
  "Error: " ++ ("still running after " ++ toString limit ++ " steps") ++ "\n"

/-- An address as it is to be read: `0x` and at least four hexadecimal digits. -/
def addressText (n : Nat) : String :=
  "0x" ++ String.ofList ((Nat.toDigits 16 n).leftpad 4 '0')

def causeText : FaultCause → String
  | .divisionByZero => "division by zero"
  | .noRegister index => "register index " ++ toString index.toNat ++ " is out of range"
  | .outsideMemory address => "memory address " ++ addressText address ++ " is out of range"

/-- What is to be read of a fault: its cause, and where the instruction stands. -/
def faultText (f : Fault) : String :=
  "Error: " ++ (causeText f.cause ++ " (pc = " ++ addressText f.pc.toNat ++ ")") ++ "\n"

example : faultText ⟨4, .outsideMemory 65535⟩ =
    "Error: memory address 0xffff is out of range (pc = 0x0004)\n" := by
  decide +kernel

theorem limitText_inj {m n : Nat} (h : limitText m = limitText n) : m = n := by
  rw [limitText, limitText, String.append_left_inj, String.append_right_inj,
    String.append_left_inj, String.append_right_inj, Text.decimal_inj] at h
  exact h

theorem message_eq_causeText (cause : FaultCause) : cause.message = causeText cause := by
  cases cause <;> rfl

theorem faultText_eq (f : Fault) : faultText f = "Error: " ++ f.message ++ "\n" := by
  rw [faultText, ← message_eq_causeText]
  rfl

/-- No fault reads like a limit that was reached: they differ in their first letter. -/
theorem faultText_ne_limitText (f : Fault) (n : Nat) : faultText f ≠ limitText n := by
  intro h
  rw [faultText_eq, limitText, String.append_left_inj, String.append_right_inj] at h
  have hInitial := f.head?_message
  rw [h, String.append_assoc, String.toList_append] at hInitial
  have hLetter : f.cause.initial ≠ 's' := by cases f.cause <;> simp [FaultCause.initial]
  exact hLetter (Option.some.inj hInitial).symm

/-- The program writes what is to be read of a limit. -/
theorem text_stillRunning (n : Nat) : (Failure.stillRunning n).text = limitText n :=
  rfl

/-- The program writes what is to be read of a fault. -/
theorem text_faulted (f : Fault) : (Failure.faulted f).text = faultText f := by
  rw [faultText_eq]
  rfl

/-! ## The record of the end -/

theorem isFinish_of_mem_annotated {es : List Executed}
    {failures : List (Option Console.Failure)} {r : Record} (h : r ∈ annotated es failures) :
    ¬r.isFinish := by
  obtain ⟨rs, hMem, hr⟩ := List.mem_flatten.mp h
  rw [← List.map_uncurry_zip_eq_zipWith] at hMem
  obtain ⟨⟨e, failure⟩, -, rfl⟩ := List.mem_map.mp hMem
  obtain hFirst | hOther := List.mem_cons.mp hr
  · rw [hFirst]
    exact Bool.false_ne_true
  · obtain ⟨complaint, -, rfl⟩ := List.mem_map.mp hOther
    exact Bool.false_ne_true

theorem isFinish_of_mem_ending {rs : List Record} (hEnding : Ending rs) {r : Record}
    (h : r ∈ rs) : ¬r.isFinish := by
  cases hEnding with
  | none => cases h
  | halted halt | unfetched f =>
    cases List.mem_singleton.mp h
    exact Bool.false_ne_true
  | refused i f =>
    obtain hFirst | hSecond := List.mem_cons.mp h
    · cases hFirst
      exact Bool.false_ne_true
    · cases List.mem_singleton.mp hSecond
      exact Bool.false_ne_true

/-- Only the end of a program is noted as one. -/
theorem filter_isFinish_records (request : Request) (image : ByteArray)
    (failures : List (Option Console.Failure)) :
    let c := (Machine.ofImage image).toConfig
    (request.records image failures).filter Record.isFinish =
      finishing (request.answer c) (request.reach c).1 := by
  intro c
  have hRunning : ((annotated (request.course image) failures ++
      if (request.reach c).2 then (c.after (request.reach c).1).closing else []).filter
        Record.isFinish) = [] := by
    refine List.filter_eq_nil_iff.mpr fun r hr => ?_
    obtain hMem | hMem := List.mem_append.mp hr
    · exact isFinish_of_mem_annotated hMem
    · split at hMem
      · exact isFinish_of_mem_ending (ending_closing _) hMem
      · cases hMem
  unfold Request.records
  dsimp only
  rw [List.filter_append, List.filter_append, hRunning]
  have hLast : (finishing (request.answer c) (request.reach c).1).filter Record.isFinish =
      finishing (request.answer c) (request.reach c).1 := by
    unfold finishing
    split <;> rfl
  exact hLast

/-! ## What scripts see -/

theorem exitCode_eq_zero_iff {r : Report} :
    (Answer.report r).exitCode = 0 ↔ r.failure = none := by
  unfold Answer.exitCode
  cases hCase : r.failure <;> simp [hCase]

theorem exitCode_eq_one_iff {r : Report} :
    (Answer.report r).exitCode = 1 ↔ ∃ failure, r.failure = some failure := by
  unfold Answer.exitCode
  cases hCase : r.failure <;> simp [hCase]

theorem exitCode_report (r : Report) :
    (Answer.report r).exitCode = 0 ∨ (Answer.report r).exitCode = 1 := by
  unfold Answer.exitCode
  cases hCase : r.failure <;> simp [hCase]

theorem errorText_of_none {r : Report} (h : r.failure = none) : r.errorText = "" := by
  rw [Report.errorText, h]

theorem errorText_of_some {r : Report} {failure : Failure} (h : r.failure = some failure) :
    r.errorText = failure.text := by
  rw [Report.errorText, h]

namespace Ends

variable {request : Request} {m : Machine} {k : Nat} {answer : Except Fault (Option Halt)}

/-- Only a program that halts within the limit leaves no failure. -/
theorem failure_eq_none_iff (hEnds : Ends request m k answer) :
    failure? request.maxSteps answer = none ↔
      ∃ j h, m.StopsAfter j (.ok h) ∧ ∀ n, request.limit = some n → j ≤ n := by
  cases hEnds with
  | halted h hStop hLimit => exact ⟨fun _ => ⟨k, h, hStop, hLimit⟩, fun _ => rfl⟩
  | faulted f hStop hLimit =>
    refine ⟨fun hNone => ?_, ?_⟩
    · cases hNone
    · rintro ⟨j, h, hHalt, -⟩
      cases (Machine.stopsAfter_unique hStop hHalt).2
  | exhausted hLimit hLasts =>
    refine ⟨fun hNone => ?_, ?_⟩
    · cases hNone
    · rintro ⟨j, h, hHalt, hLe⟩
      exact absurd (hLe k hLimit) (Nat.not_le.mpr (hLasts.1 j h hHalt))

theorem exists_halt_of_none (hEnds : Ends request m k answer)
    (hNone : failure? request.maxSteps answer = none) :
    ∃ h, m.StopsAfter k (.ok h) ∧ answer = .ok (some h) := by
  cases hEnds with
  | halted h hStop hLimit => exact ⟨h, hStop, rfl⟩
  | faulted f hStop hLimit => cases hNone
  | exhausted hLimit hLasts => cases hNone

/-- Any other program leaves that it was still running at the limit, or its fault, and the text
tells which. -/
theorem text_of_some (hEnds : Ends request m k answer) {failure : Failure}
    (hSome : failure? request.maxSteps answer = some failure) :
    (∀ n, failure.text = limitText n ↔ request.limit = some n ∧ m.Outlasts n) ∧
      (request.limit = some k ∧ m.Outlasts k ∨
        ∃ f, m.StopsAfter k (.error f) ∧ failure.text = faultText f) := by
  cases hEnds with
  | halted h hStop hLimit => cases hSome
  | faulted f hStop hLimit =>
    cases hSome
    rw [text_faulted]
    refine ⟨fun n => ⟨fun hSame => absurd hSame (faultText_ne_limitText f n), ?_⟩,
      .inr ⟨f, hStop, rfl⟩⟩
    rintro ⟨hCase, hLasts⟩
    exact absurd (hLimit n hCase) (Nat.not_lt.mpr (hLasts.2 k f hStop))
  | exhausted hLimit hLasts =>
    have hMax : request.maxSteps = k := by rw [Request.maxSteps, hLimit, Option.getD_some]
    rw [hMax] at hSome
    cases hSome
    rw [text_stillRunning]
    refine ⟨fun n => ⟨fun hSame => ?_, ?_⟩, .inl ⟨hLimit, hLasts⟩⟩
    · cases limitText_inj hSame
      exact ⟨hLimit, hLasts⟩
    · rintro ⟨hCase, -⟩
      rw [hLimit] at hCase
      cases hCase
      rfl

end Ends

theorem length_course_reach (request : Request) (c : Config) :
    (c.course (request.reach c).1).length = (request.reach c).1 := by
  unfold Request.reach
  cases request.limit with
  | some n => exact congrArg List.length (Config.course_length_course c n).1
  | none => exact congrArg List.length (Config.course_length_course c UInt64.size).1

/-- What is left by the program of an image. -/
theorem exists_end_of_image {request : Request} {image : ByteArray}
    (hBound : ∀ n, request.limit = some n → n < UInt64.size) (hSize : image.size ≤ 131070)
    (hStops : request.limit = none →
      ∃ k stop, k ≤ Session.maxSteps ∧ (Machine.ofImage image).StopsAfter k stop)
    (input : List UInt8) (threshold : Option Level) :
    let m := Machine.ofImage image
    let r := request.perform (.contents image) input threshold
    ∃ k a, Ends request m k a ∧ r.failure = failure? request.maxSteps a ∧
      ((m.course k).map Executed.block).length = k ∧
      r.output = (request.transcript input ((m.course k).map Executed.block)).toUTF8 ∧
      r.log.toList.filter Record.isFinish = (finishing a k).filter (Log.keeps threshold) := by
  intro m r
  have hReport := Request.reportOf_request hBound hSize input threshold
  refine ⟨_, _, ends_of_request rfl hStops, hReport.failure, ?_, hReport.output, ?_⟩
  · rw [List.length_map]
    exact length_course_reach request m.toConfig
  · rw [hReport.log, List.filter_comm, filter_isFinish_records]

end CommandLine

end RegisterMachine
