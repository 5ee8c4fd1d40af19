import RegisterMachine.Proofs.Observation

/-!
# Determinism

What a machine answers, where it goes and what it notes about itself is a function of its
configuration. Observers, the count of steps and the log so far do not come into it; the count only
limits how far a run can go. `Config.report` is the answer of a run with a budget, and `Arrives`
describes a session by the number of instructions that were executed by the way and by whether the
machine has then been stopped.

* `course_length_course`, `upcoming?_after_of_lt`: a course that ends early ends where the machine
  stops.
* `endsAt_runFor`, `endsAt_run`: the instructions that the two kinds of run execute, and whether
  they stop the machine.
* `arrives_steps`, `arrives_runFor`, `arrives_run`: where a machine gets to by single steps, by a
  run with a budget, and by a run that stops.
* `inStep_of_arrives`: machines that execute the same instructions and stop in the same way.
-/

namespace RegisterMachine

/-! ## Courses that end -/

namespace Config

variable {c : Config} {k n : Nat}

theorem upcoming?_eq_none_iff : c.upcoming? = none ↔ c.verdict ≠ .ok .executed := by
  unfold upcoming? verdict
  cases c.fetch with
  | error f => simp
  | ok fetched =>
    cases fetched with
    | undefined opcode => simp
    | instruction i =>
      dsimp only
      cases c.obstacle? i <;> simp

/-- Nothing is executed after the last instruction of a course. -/
theorem course_length_course (c : Config) (n : Nat) :
    c.course (c.course n).length = c.course n ∧ c.after (c.course n).length = c.after n := by
  induction n generalizing c with
  | zero => exact ⟨rfl, rfl⟩
  | succ n ih =>
    cases hNext : c.upcoming? with
    | none => simp [course_of_none hNext, after_of_none hNext]
    | some i =>
      obtain ⟨hCourse, hAfter⟩ := ih (c.successor i)
      rw [course_succ_of_some hNext, List.length_cons, course_succ_of_some hNext,
        after_succ_of_some hNext, after_succ_of_some hNext, hCourse, hAfter]
      exact ⟨rfl, rfl⟩

/-- A course is shorter than asked for only if the machine stops. -/
theorem upcoming?_after_of_lt (h : (c.course n).length < n) : (c.after n).upcoming? = none := by
  induction n generalizing c with
  | zero => exact absurd h (Nat.not_lt_zero _)
  | succ n ih =>
    cases hNext : c.upcoming? with
    | none => rwa [after_of_none hNext]
    | some i =>
      rw [course_succ_of_some hNext, List.length_cons] at h
      rw [after_succ_of_some hNext]
      exact ih (Nat.lt_of_succ_lt_succ h)

theorem course_of_stop (hStop : (c.after k).upcoming? = none) (hLe : k ≤ n) :
    c.course n = c.course k ∧ c.after n = c.after k := by
  obtain ⟨d, rfl⟩ := Nat.exists_eq_add_of_le hLe
  rw [course_add, after_add, course_of_none hStop, after_of_none hStop, List.append_nil]
  exact ⟨rfl, rfl⟩

/-- Does a run with a budget stop the machine? A halt is seen when the budget is used up, a fault
only before. -/
def stopsBy (n : Nat) (c : Config) : Bool :=
  match (c.after n).verdict with
  | .ok .executed => false
  | .ok (.halted _) => true
  | .error _ => (c.course n).length < n

/-- What a run with a budget answers. -/
def report (n : Nat) (c : Config) : Except Fault (Option Halt) :=
  if c.stopsBy n then (c.after n).verdict.map Step.toRun else .ok none

theorem stopsBy_of_stop (hLength : (c.course k).length = k)
    (hStop : (c.after k).upcoming? = none) (hBudget : k ≤ n)
    (hFault : ∀ f, (c.after k).verdict = .error f → k < n) : c.stopsBy n = true := by
  obtain ⟨hCourse, hEnd⟩ := course_of_stop hStop hBudget
  rw [stopsBy, hEnd, hCourse, hLength]
  match hVerdict : (c.after k).verdict with
  | .ok .executed => exact absurd hVerdict (upcoming?_eq_none_iff.mp hStop)
  | .ok (.halted h) => rfl
  | .error f => exact decide_eq_true (hFault f hVerdict)

theorem stopsBy_of_full (hLength : (c.course n).length = n)
    (hHalt : ∀ h, (c.after n).verdict ≠ .ok (.halted h)) : c.stopsBy n = false := by
  rw [stopsBy, hLength]
  match hVerdict : (c.after n).verdict with
  | .ok .executed => rfl
  | .ok (.halted h) => exact absurd hVerdict (hHalt h)
  | .error f => exact decide_eq_false (Nat.lt_irrefl n)

/-- The records of a step that executes nothing. -/
def closing (c : Config) : List Record :=
  Machine.closing { toConfig := c }

end Config

theorem Machine.closing_of_running {m : Machine} (hRunning : m.status = .running) :
    m.closing = m.toConfig.closing := by
  unfold Config.closing Machine.closing
  rw [hRunning]

/-! ## What is noted -/

/-- Is a record one of those that follow the machine step by step? -/
def Record.isDetail (r : Record) : Bool :=
  r.level = .trace ∨ r.level = .debug

/-- The details that a log has got since it was an earlier one. -/
def Log.detailsSince (earlier log : Log) : List Record :=
  (log.records.toList.drop earlier.records.size).filter Record.isDetail

theorem Log.detailsSince_addAll (log : Log) (rs : List Record) :
    log.detailsSince (log.addAll rs) =
      (rs.filter Record.isDetail).filter (keeps log.threshold) := by
  rw [detailsSince, toList_records_addAll, ← Array.length_toList, List.drop_left,
    List.filter_filter, List.filter_filter]
  simp only [Bool.and_comm]

/-- What is selected from the records of a watched run, if all instructions are and no failures. -/
theorem filter_annotated {p : Record → Bool} (hRecord : ∀ e : Executed, p e.record)
    (hFailure : ∀ failure, ¬p (.consoleFailed failure)) {es : List Executed}
    {failures : List (Option Console.Failure)} (hLength : failures.length = es.length) :
    (annotated es failures).filter p = es.map Executed.record := by
  induction es generalizing failures with
  | nil => simp [annotated]
  | cons e es ih =>
    cases failures with
    | nil => cases hLength
    | cons failure failures =>
      have hOwn : (failure.toList.map Record.consoleFailed).filter p = [] := by
        cases failure with
        | none => rfl
        | some failure => exact List.filter_cons_of_neg (hFailure failure)
      have hFirst : annotated (e :: es) (failure :: failures) =
          e.record :: (failure.toList.map .consoleFailed ++ annotated es failures) := rfl
      rw [hFirst, List.filter_cons_of_pos (hRecord e), List.filter_append, hOwn,
        ih (Nat.succ.inj hLength)]
      rfl

/-- The failures of an observer are no details. -/
theorem filter_isDetail_annotated {es : List Executed} {failures : List (Option Console.Failure)}
    (hLength : failures.length = es.length) :
    (annotated es failures).filter Record.isDetail = es.map Executed.record :=
  filter_annotated (fun _ => rfl) (fun _ => Bool.false_ne_true) hLength

theorem Ending.filter_isDetail {rs : List Record} (h : Ending rs) :
    rs.filter Record.isDetail = rs := by
  cases h <;> rfl

/-- The status of a machine after a step, by the answer to the step. -/
def Status.ofStep : Except Fault Step → Status
  | .ok .executed => .running
  | .ok (.halted h) => .halted h
  | .error f => .faulted f

theorem Status.ofStep_eq_stopped_iff {answer : Except Fault Step} {stop : Except Fault Halt} :
    Status.ofStep answer = .stopped stop ↔ answer = stop.map .halted := by
  cases stop <;> unfold ofStep <;> split <;> simp [stopped, Except.map]

theorem Status.eq_running_or_stopped (status : Status) :
    status = .running ∨ ∃ stop, status = .stopped stop := by
  cases status with
  | running => exact .inl rfl
  | halted h => exact .inr ⟨.ok h, rfl⟩
  | faulted f => exact .inr ⟨.error f, rfl⟩

namespace Session

variable {σ τ : Type} {o : Observer σ} {s t : Session σ} {s' t' : Session τ} {k n : Nat}

theorem answer_ne_executed {answer : Except Fault Step} {stop : Except Fault Halt}
    (h : answer = stop.map .halted) : answer ≠ .ok .executed := by
  rw [h]
  cases stop <;> simp [Except.map]

/-! ## Where a machine gets to -/

/-- A running machine has executed a number of instructions, and after these a step has stopped it
or not. -/
structure Arrives (s : Session σ) (k : Nat) (stopped : Bool) (t : Session σ) : Prop
    extends Follows s k t where
  status : t.machine.status =
    if stopped then Status.ofStep (s.machine.after k).verdict else .running
  details : s.log.detailsSince t.log =
    ((s.machine.course k).map Executed.record ++
      if stopped then (s.machine.after k).closing else []).filter (Log.keeps s.log.threshold)

theorem arrives_of_after (hRunning : s.machine.status = .running)
    (hAfter : s.after o k = some t) : Arrives s k false t := by
  have hFollows := follows_of_after hAfter
  obtain ⟨failures, hLength, hLog, -⟩ := log_of_after hAfter
  refine ⟨hFollows, status_of_after hRunning hAfter, ?_⟩
  rw [hLog, Log.detailsSince_addAll,
    filter_isDetail_annotated (hLength.trans hFollows.length.symm)]
  simp

theorem status_step (o : Observer σ) (hRunning : s.machine.status = .running) :
    (s.step o).session.machine.status = Status.ofStep s.machine.verdict := by
  rw [← answer_step o hRunning]
  match hStep : s.step o with
  | ⟨.ok .executed, t⟩ => exact (status_of_step_executed hStep).2
  | ⟨.ok (.halted h), t⟩ => exact status_of_step_halted hStep
  | ⟨.error f, t⟩ => exact status_of_step_error hStep

theorem arrives_of_stop (hRunning : s.machine.status = .running)
    (hAfter : s.after o k = some t) (hStop : (t.step o).answer ≠ .ok .executed) :
    Arrives s k true (t.step o).session := by
  have hFollows := follows_of_after hAfter
  have hHere := status_of_after hRunning hAfter
  obtain ⟨failures, hLength, hLog, -⟩ := log_of_after hAfter
  obtain ⟨hMachine, -⟩ := machine_of_step_stopped hStop
  refine ⟨⟨hFollows.length, ?_, ?_⟩, ?_, ?_⟩
  · rw [hMachine]
    exact hFollows.config
  · rw [hMachine]
    exact hFollows.steps
  · rw [status_step o hHere, hFollows.config]
    rfl
  · rw [log_step_stopped hStop, hLog, ← Log.addAll_append, Log.detailsSince_addAll,
      List.filter_append, filter_isDetail_annotated (hLength.trans hFollows.length.symm),
      (ending_closing _).filter_isDetail, Machine.closing_of_running hHere, hFollows.config]
    rfl

theorem verdict_of_after (hRunning : s.machine.status = .running)
    (hAfter : s.after o k = some t) : (t.step o).answer = (s.machine.after k).verdict := by
  rw [answer_step o (status_of_after hRunning hAfter), (follows_of_after hAfter).config]

/-- Two machines have gone on in step: they have the same status, they have counted as many steps by
the way, and they have made the same details, of which each log has kept those of its level. -/
structure InStep (s t : Session σ) (s' t' : Session τ) : Prop where
  status : t'.machine.status = t.machine.status
  steps : ∃ k, t.machine.steps = s.machine.steps + k ∧ t'.machine.steps = s'.machine.steps + k
  details : ∃ rs : List Record,
    s.log.detailsSince t.log = rs.filter (Log.keeps s.log.threshold) ∧
      s'.log.detailsSince t'.log = rs.filter (Log.keeps s'.log.threshold)

theorem InStep.detailsSince_eq (h : InStep s t s' t')
    (hThreshold : s'.log.threshold = s.log.threshold) :
    s'.log.detailsSince t'.log = s.log.detailsSince t.log := by
  obtain ⟨rs, hHere, hThere⟩ := h.details
  rw [hHere, hThere, hThreshold]

/-- Machines that execute the same instructions and stop in the same way are in step. -/
theorem inStep_of_arrives {stopped : Bool}
    (hRecords : (s'.machine.course k).map Executed.record =
      (s.machine.course k).map Executed.record)
    (hVerdict : stopped → (s'.machine.after k).verdict = (s.machine.after k).verdict)
    (hClosing : stopped → (s'.machine.after k).closing = (s.machine.after k).closing)
    (h : Arrives s k stopped t) (h' : Arrives s' k stopped t') : InStep s t s' t' := by
  refine ⟨?_, ⟨k, h.steps, h'.steps⟩, _, h.details, ?_⟩
  · rw [h'.status, h.status]
    cases stopped with
    | false => rfl
    | true => rw [hVerdict rfl]
  · rw [h'.details, hRecords]
    cases stopped with
    | false => rfl
    | true => rw [hClosing rfl]

/-! ## Single steps -/

def makeSteps (o : Observer σ) (n : Nat) (s : Session σ) : Session σ :=
  s.makeAll o (List.replicate n .step)

theorem makeSteps_succ (o : Observer σ) (n : Nat) (s : Session σ) :
    s.makeSteps o (n + 1) = (s.step o).session.makeSteps o n :=
  rfl

theorem makeSteps_of_after (hAfter : s.after o k = some t) (n : Nat) :
    s.makeSteps o (k + n) = t.makeSteps o n := by
  induction k generalizing s with
  | zero =>
    cases hAfter
    rw [Nat.zero_add]
  | succ k ih =>
    obtain ⟨u, hStep, hRest⟩ := after_succ_eq_some_iff.mp hAfter
    rw [Nat.succ_add, makeSteps_succ, hStep, ih hRest]

/-- A step that stops the machine is the last one that does anything. -/
theorem makeSteps_of_stop (hStop : (s.step o).answer ≠ .ok .executed) (n : Nat) :
    s.makeSteps o (n + 1) = (s.step o).session := by
  have hAgain : (s.step o).session.step o = s.step o := by
    match hStep : s.step o with
    | ⟨.ok .executed, t⟩ => exact absurd (by rw [hStep]) hStop
    | ⟨.ok (.halted h), t⟩ => exact step_of_status_halted (status_of_step_halted hStep)
    | ⟨.error f, t⟩ => exact step_of_status_faulted (status_of_step_error hStep)
  induction n with
  | zero => rfl
  | succ n ih => rw [makeSteps_succ, makeSteps_succ, hAgain, ← makeSteps_succ, ih]

/-- As many steps as asked for follow the course, and if it is shorter the last of them stops the
machine. -/
theorem arrives_steps (o : Observer σ) (n : Nat) (hRunning : s.machine.status = .running) :
    Arrives s (s.machine.course n).length (decide ((s.machine.course n).length < n))
      (s.makeSteps o n) := by
  have hLe := Config.length_course_le s.machine.toConfig n
  obtain ⟨hCourse, hAfterCourse⟩ := Config.course_length_course s.machine.toConfig n
  obtain ⟨t, hAfter⟩ := exists_after_of_course o hRunning (congrArg List.length hCourse)
  by_cases hShort : (s.machine.course n).length < n
  · have hNone := Config.upcoming?_after_of_lt hShort
    have hStop : (t.step o).answer ≠ .ok .executed := by
      rw [verdict_of_after hRunning hAfter, hAfterCourse]
      exact Config.upcoming?_eq_none_iff.mp hNone
    obtain ⟨d, hRest⟩ := Nat.exists_eq_add_of_lt hShort
    have hSteps : s.makeSteps o n = (t.step o).session := by
      conv_lhs => rw [hRest, Nat.add_assoc]
      rw [makeSteps_of_after hAfter, makeSteps_of_stop hStop]
    rw [hSteps, decide_eq_true hShort]
    exact arrives_of_stop hRunning hAfter hStop
  · have hFull : (s.machine.course n).length = n := by omega
    have hSteps : s.makeSteps o n = t := by
      conv_lhs => rw [← hFull, ← Nat.add_zero (s.machine.course n).length]
      exact makeSteps_of_after hAfter 0
    rw [hSteps, decide_eq_false hShort]
    exact arrives_of_after hRunning hAfter

/-! ## Runs -/

theorem upcoming?_of_stop (hRunning : s.machine.status = .running)
    (hAfter : s.after o k = some t) (hStop : (t.step o).answer ≠ .ok .executed) :
    (s.machine.after k).upcoming? = none := by
  rw [Config.upcoming?_eq_none_iff, ← verdict_of_after hRunning hAfter]
  exact hStop

/-- How a call ends that makes steps: it leaves the machine running after a number of instructions,
or the step behind these stops the machine. -/
inductive EndsAt (o : Observer σ) (s : Session σ) (k : Nat) : Bool → Outcome σ (Option Halt) → Prop
  | running (t : Session σ) (hAfter : s.after o k = some t) : EndsAt o s k false ⟨.ok none, t⟩
  | stopped (t : Session σ) (hAfter : s.after o k = some t)
      (hStop : (t.step o).answer ≠ .ok .executed) :
      EndsAt o s k true ⟨(t.step o).answer.map Step.toRun, (t.step o).session⟩

/-- The step that stops the machine comes last. -/
theorem endsAt_of_last {answer : Except Fault Step} (hAfter : s.after o k = some t)
    {u : Session σ} (hStep : t.step o = ⟨answer, u⟩) (hStop : answer ≠ .ok .executed) :
    EndsAt o s k true ⟨answer.map Step.toRun, u⟩ := by
  have hLast := EndsAt.stopped t hAfter (by rw [hStep]; exact hStop)
  rwa [hStep] at hLast

/-- A run with a budget executes the course of the machine as far as the budget goes. -/
theorem endsAt_runFor (o : Observer σ) (hRunning : s.machine.status = .running)
    (hSteps : s.machine.steps + n < UInt64.size) :
    EndsAt o s (s.machine.course n).length (s.machine.stopsBy n) (s.runFor o n) := by
  have hRun := runForOf_runFor o n hRunning
  generalize s.runFor o n = outcome at hRun ⊢
  cases hRun with
  | exhausted t hAfter hStep =>
    rw [allowance_of_lt hSteps] at hAfter
    have hLength := (follows_of_after hAfter).length
    have hNot : s.machine.stopsBy n = false := by
      refine Config.stopsBy_of_full hLength fun h hHalt => hStep h (t.step o).session ?_
      exact step_eq_of_answer ((verdict_of_after hRunning hAfter).trans hHalt)
    rw [hNot, hLength]
    exact .running t hAfter
  | halted k t h u hAfter hBudget hStep =>
    rw [allowance_of_lt hSteps] at hBudget
    have hLength := (follows_of_after hAfter).length
    have hNone := upcoming?_of_stop hRunning hAfter (by simp [hStep])
    have hVerdict := verdict_of_after hRunning hAfter
    rw [hStep] at hVerdict
    have hStops : s.machine.stopsBy n = true :=
      Config.stopsBy_of_stop hLength hNone hBudget (by simp [← hVerdict])
    rw [hStops, (Config.course_of_stop hNone hBudget).1, hLength]
    exact endsAt_of_last hAfter hStep (by simp)
  | faulted k t f u hAfter hBudget hStep =>
    rw [allowance_of_lt hSteps] at hBudget
    have hLe := Nat.le_of_lt hBudget
    have hLength := (follows_of_after hAfter).length
    have hNone := upcoming?_of_stop hRunning hAfter (by simp [hStep])
    have hStops : s.machine.stopsBy n = true :=
      Config.stopsBy_of_stop hLength hNone hLe fun _ _ => hBudget
    rw [hStops, (Config.course_of_stop hNone hLe).1, hLength]
    exact endsAt_of_last hAfter hStep (by simp)

/-- A run goes as far as steps can be counted, and if the course is shorter it stops. -/
theorem endsAt_run (o : Observer σ) (hRunning : s.machine.status = .running)
    (hSteps : s.machine.steps + n = UInt64.size) :
    EndsAt o s (s.machine.course n).length (decide ((s.machine.course n).length < n))
      (s.run o) := by
  have hLast : maxSteps + 1 = UInt64.size := rfl
  have hRun : RunOf o (maxSteps + 1) s (s.run o) := runOf_runTo ..
  generalize s.run o = outcome at hRun ⊢
  cases hRun with
  | exhausted t hAfter =>
    have hDistance : maxSteps + 1 - s.machine.steps = n := by omega
    rw [hDistance] at hAfter
    rw [(follows_of_after hAfter).length, decide_eq_false (Nat.lt_irrefl n)]
    exact .running t hAfter
  | halted k t _ u hAfter hLimit hStep | faulted k t _ u hAfter hLimit hStep =>
    have hLength := (follows_of_after hAfter).length
    have hNone := upcoming?_of_stop hRunning hAfter (by simp [hStep])
    have hLt : k < n := by
      rw [steps_of_after hAfter] at hLimit
      omega
    rw [(Config.course_of_stop hNone (Nat.le_of_lt hLt)).1, hLength, decide_eq_true hLt]
    exact endsAt_of_last hAfter hStep (by simp)

theorem arrives_of_endsAt {stopped : Bool} {outcome : Outcome σ (Option Halt)}
    (hRunning : s.machine.status = .running) (h : EndsAt o s k stopped outcome) :
    outcome.answer =
        (if stopped then (s.machine.after k).verdict.map Step.toRun else .ok none) ∧
      Arrives s k stopped outcome.session := by
  cases h with
  | running t hAfter => exact ⟨rfl, arrives_of_after hRunning hAfter⟩
  | stopped t hAfter hStop =>
    rw [← verdict_of_after hRunning hAfter]
    exact ⟨rfl, arrives_of_stop hRunning hAfter hStop⟩

/-- What a run with a budget answers and where the machine gets to by it. -/
theorem arrives_runFor (o : Observer σ) (hRunning : s.machine.status = .running)
    (hSteps : s.machine.steps + n < UInt64.size) :
    (s.runFor o n).answer = s.machine.report n ∧
      Arrives s (s.machine.course n).length (s.machine.stopsBy n) (s.runFor o n).session := by
  rw [Config.report, ← (Config.course_length_course s.machine.toConfig n).2]
  exact arrives_of_endsAt hRunning (endsAt_runFor o hRunning hSteps)

/-- A run that stops has come to the end of the course. -/
theorem exists_stop_of_run (hRunning : s.machine.status = .running)
    (hStops : (s.run o).answer ≠ .ok none) :
    ∃ k, (s.machine.course k).length = k ∧ (s.machine.after k).upcoming? = none ∧
      s.machine.steps + k < UInt64.size := by
  have hRun : RunOf o (maxSteps + 1) s (s.run o) := runOf_runTo ..
  generalize s.run o = outcome at hRun hStops
  cases hRun with
  | exhausted t hAfter => exact absurd rfl hStops
  | halted k t _ u hAfter hLimit hStep | faulted k t _ u hAfter hLimit hStep =>
    have hStop : (t.step o).answer ≠ .ok .executed := by simp [hStep]
    have hFollows := follows_of_after hAfter
    exact ⟨k, hFollows.length, upcoming?_of_stop hRunning hAfter hStop, hFollows.steps ▸ hLimit⟩

/-- A run gets to the end of the course if as many steps can be counted. -/
theorem arrives_run (o : Observer σ) (hRunning : s.machine.status = .running)
    (hLength : (s.machine.course k).length = k) (hEnd : (s.machine.after k).upcoming? = none)
    (hSteps : s.machine.steps + k < UInt64.size) :
    (s.run o).answer = (s.machine.after k).verdict.map Step.toRun ∧
      Arrives s k true (s.run o).session := by
  obtain ⟨d, hSum⟩ := Nat.exists_eq_add_of_lt hSteps
  have hLt : k < k + d + 1 := Nat.lt_succ_of_le (Nat.le_add_right k d)
  have hRun := endsAt_run (n := k + d + 1) o hRunning (by omega)
  rw [(Config.course_of_stop hEnd (Nat.le_of_lt hLt)).1, hLength, decide_eq_true hLt] at hRun
  exact arrives_of_endsAt hRunning hRun

end Session

end RegisterMachine
