import RegisterMachine.Debugger
import RegisterMachine.Proofs.Course
import RegisterMachine.Proofs.Verdict

/-!
# Watched machines

An observer sees a machine after every executed instruction, and all that it can do beside changing
its own state is to report a failure. So a watched machine does what it does alone, and its log has
the records that it has alone, with the failures of the observer between them.

* `step_congr`, `runTo_congr`, `machine_drives_congr`: what a machine answers and where it goes does
  not depend on the observer.
* `log_of_after`: the log of a watched run.
* `debugger_changes_nothing`: a machine with the debugger and the same machine alone.
-/

namespace RegisterMachine

def Executed.record (e : Executed) : Record :=
  .executing e.before.registers.pc e.instruction

/-- The records of executed instructions, each followed by the failure of the observer that was
shown the instruction, if it failed. -/
def annotated (es : List Executed) (failures : List (Option Console.Failure)) : List Record :=
  List.flatten
    (List.zipWith (fun e failure => e.record :: failure.toList.map .consoleFailed) es failures)

theorem annotated_of_silent {es : List Executed} {failures : List (Option Console.Failure)}
    (hLength : failures.length = es.length) (hSilent : ∀ failure ∈ failures, failure = none) :
    annotated es failures = es.map Executed.record := by
  induction es generalizing failures with
  | nil => simp [annotated]
  | cons e es ih =>
    cases failures with
    | nil => cases hLength
    | cons failure failures =>
      have hFirst := hSilent failure List.mem_cons_self
      have hRest := ih (Nat.succ.inj hLength) fun f hf => hSilent f (List.mem_cons_of_mem _ hf)
      rw [List.map_cons, ← hRest, hFirst]
      rfl

/-- The last records of a call: those of a machine that stops, if it does. -/
inductive Ending : List Record → Prop where
  | none : Ending []
  | halted (h : Halt) : Ending [.halted h]
  | unfetched (f : Fault) : Ending [.faulted f]
  | refused (i : Instruction) (f : Fault) : Ending [.executing f.pc i, .faulted f]

theorem ending_closing (m : Machine) : Ending m.closing := by
  unfold Machine.closing
  split
  · exact .none
  · exact .none
  · split
    · exact .unfetched _
    · exact .halted _
    · split
      · exact .none
      · exact .refused _ ⟨_, _⟩

namespace Session

variable {σ τ α : Type} {o : Observer σ} {o' : Observer τ} {s t u : Session σ} {s' t' : Session τ}

/-! ## Two observers -/

theorem step_congr (o : Observer σ) (o' : Observer τ) (hMachine : s.machine = s'.machine) :
    (s.step o).answer = (s'.step o').answer ∧
      (s.step o).session.machine = (s'.step o').session.machine := by
  unfold step
  rw [hMachine]
  cases s'.machine.status with
  | halted h => exact ⟨rfl, hMachine⟩
  | faulted f => exact ⟨rfl, hMachine⟩
  | running =>
    dsimp only
    cases s'.machine.fetch with
    | error f => simp [fault, hMachine]
    | ok fetched =>
      cases fetched with
      | undefined opcode => simp [halt, hMachine]
      | instruction i =>
        simp only [execute_eq, note, hMachine]
        cases s'.machine.obstacle? i with
        | none => simp [machine_complete]
        | some cause => simp [fault]

theorem exists_after_congr (o' : Observer τ) (hMachine : s.machine = s'.machine) {k : Nat}
    (hAfter : s.after o k = some t) :
    ∃ t', s'.after o' k = some t' ∧ t.machine = t'.machine := by
  induction k generalizing s s' with
  | zero =>
    cases hAfter
    exact ⟨s', rfl, hMachine⟩
  | succ k ih =>
    obtain ⟨u, hStep, hRest⟩ := after_succ_eq_some_iff.mp hAfter
    obtain ⟨hAnswer, hNext⟩ := step_congr o o' hMachine
    rw [hStep] at hAnswer hNext
    have hStep' := step_eq_of_answer hAnswer.symm
    obtain ⟨t', hAfter', hSame⟩ := ih hNext hRest
    exact ⟨t', after_succ_eq_some_iff.mpr ⟨_, hStep', hAfter'⟩, hSame⟩

theorem runTo_congr (o : Observer σ) (o' : Observer τ) (hMachine : s.machine = s'.machine)
    (limit : Nat) :
    (s.runTo o limit).answer = (s'.runTo o' limit).answer ∧
      (s.runTo o limit).session.machine = (s'.runTo o' limit).session.machine := by
  fun_induction runTo o limit s generalizing s' with
  | case1 s hLimit t hStep ih =>
    obtain ⟨hAnswer, hNext⟩ := step_congr o o' hMachine
    rw [hStep] at hAnswer hNext
    rw [hMachine] at hLimit
    rw [runTo_of_executed hLimit (step_eq_of_answer hAnswer.symm)]
    exact ih hNext
  | case2 s hLimit h t hStep =>
    obtain ⟨hAnswer, hNext⟩ := step_congr o o' hMachine
    rw [hStep] at hAnswer hNext
    rw [hMachine] at hLimit
    rw [runTo_of_halted hLimit (step_eq_of_answer hAnswer.symm)]
    exact ⟨rfl, hNext⟩
  | case3 s hLimit f t hStep =>
    obtain ⟨hAnswer, hNext⟩ := step_congr o o' hMachine
    rw [hStep] at hAnswer hNext
    rw [hMachine] at hLimit
    rw [runTo_of_error hLimit (step_eq_of_answer hAnswer.symm)]
    exact ⟨rfl, hNext⟩
  | case4 s hLimit =>
    rw [hMachine] at hLimit
    rw [runTo_of_le (Nat.not_lt.mp hLimit)]
    exact ⟨rfl, hMachine⟩

theorem settle_congr (hMachine : s.machine = s'.machine) :
    s.settle.session.machine = s'.settle.session.machine := by
  unfold settle
  rw [hMachine]
  cases s'.machine.status with
  | halted h => exact hMachine
  | faulted f => exact hMachine
  | running =>
    dsimp only
    cases s'.machine.fetch with
    | error f => exact hMachine
    | ok fetched =>
      cases fetched with
      | undefined opcode => simp [halt, hMachine]
      | instruction i => exact hMachine

theorem runFor_congr (o : Observer σ) (o' : Observer τ) (hMachine : s.machine = s'.machine)
    (n : Nat) : (s.runFor o n).session.machine = (s'.runFor o' n).session.machine := by
  unfold runFor
  rw [hMachine]
  have hRun := runTo_congr o o' hMachine (min (s'.machine.steps + n) maxSteps)
  generalize s.runTo o _ = outcome at hRun ⊢
  generalize s'.runTo o' _ = outcome' at hRun ⊢
  obtain ⟨answer, t⟩ := outcome
  obtain ⟨_, t'⟩ := outcome'
  obtain ⟨rfl, hNext⟩ := hRun
  match answer with
  | .ok none => exact settle_congr hNext
  | .ok (some h) | .error f => exact hNext

theorem machine_drive_congr {s s' : Session σ} (d : Drive σ) (hMachine : s.machine = s'.machine) :
    (s.drive d).machine = (s'.drive d).machine := by
  cases d with
  | step o => exact (step_congr o o hMachine).2
  | run o => exact (runTo_congr o o hMachine _).2
  | runFor o budget => exact runFor_congr o o hMachine budget

theorem machine_drives_congr {s s' : Session σ} (drives : List (Drive σ))
    (hMachine : s.machine = s'.machine) :
    (s.performAll (drives.map .drive)).machine = (s'.performAll (drives.map .drive)).machine := by
  induction drives generalizing s s' with
  | nil => exact hMachine
  | cons d drives ih => exact ih (machine_drive_congr d hMachine)

/-- A watched run notes every instruction, and behind it what the observer has to report of it. -/
theorem log_of_after {k : Nat} (hAfter : s.after o k = some t) :
    ∃ failures, failures.length = k ∧
      t.log = s.log.addAll (annotated (s.machine.course k) failures) ∧
      ∀ failure ∈ failures, ∃ m i w, failure = (o.observe m i w).2 := by
  induction k generalizing s with
  | zero =>
    cases hAfter
    exact ⟨[], rfl, rfl, by simp⟩
  | succ k ih =>
    obtain ⟨u, hStep, hRest⟩ := after_succ_eq_some_iff.mp hAfter
    obtain ⟨i, hNext, rfl⟩ := upcoming?_of_step_executed hStep
    obtain ⟨failures, hLength, hLog, hReported⟩ := ih hRest
    refine ⟨(s.note (.executing s.machine.registers.pc i)).failure? o i :: failures,
      by rw [List.length_cons, hLength], ?_, ?_⟩
    · rw [hLog, log_complete, machine_complete, Config.course_succ_of_some hNext]
      exact (Log.addAll_append _ (.executing s.machine.registers.pc i :: _) _).symm
    · rintro f (_ | ⟨_, hMem⟩)
      · exact ⟨_, _, _, rfl⟩
      · exact hReported f hMem

theorem log_of_after_idle {s t : Session Unit} {k : Nat} (hAfter : s.after .idle k = some t) :
    t.log = s.log.addAll ((s.machine.course k).map Executed.record) := by
  obtain ⟨failures, hLength, hLog, hReported⟩ := log_of_after hAfter
  rw [hLog, annotated_of_silent]
  · rw [hLength, (follows_of_after hAfter).length]
  · intro failure hMem
    obtain ⟨m, i, w, rfl⟩ := hReported failure hMem
    rfl

/-! ## With an observer and alone -/

/-- A call on a machine with an observer, and the same call on the machine alone: the answers are
the same, the machines are the same, and the log of the one is the log of the other with at most one
failure behind the record of each executed instruction. -/
structure Shadows (m : Machine) (log : Log) (watched : Outcome σ α) (alone : Outcome Unit α) :
    Prop where
  answer : watched.answer = alone.answer
  machine : watched.session.machine = alone.session.machine
  log : ∃ k failures ending, (m.course k).length = k ∧ failures.length = k ∧
    alone.session.machine.steps = m.steps + k ∧ Ending ending ∧
    alone.session.log = log.addAll ((m.course k).map Executed.record ++ ending) ∧
    watched.session.log = log.addAll (annotated (m.course k) failures ++ ending)

variable {v w : Session Unit}

theorem shadows_of_after (hMachine : s.machine = v.machine) (hLog : s.log = v.log) {k : Nat}
    (hAfter : s.after o k = some t) :
    ∃ w, v.after .idle k = some w ∧ t.machine = w.machine ∧
      ∀ answer : Except Fault α, Shadows s.machine s.log ⟨answer, t⟩ ⟨answer, w⟩ := by
  obtain ⟨w, hAlone, hEnd⟩ := exists_after_congr .idle hMachine hAfter
  obtain ⟨failures, hLength, hWatched, -⟩ := log_of_after hAfter
  have hFollows := follows_of_after hAlone
  refine ⟨w, hAlone, hEnd,
    fun answer => ⟨rfl, hEnd, k, failures, [], ?_, hLength, ?_, .none, ?_, ?_⟩⟩
  · rw [hMachine, hFollows.length]
  · rw [hMachine, hFollows.steps]
  · rw [List.append_nil, hLog, hMachine]
    exact log_of_after_idle hAlone
  · rw [List.append_nil]
    exact hWatched

/-- The step that stops the machine is not shown to the observer. -/
theorem shadows_of_stop (hMachine : s.machine = v.machine) (hLog : s.log = v.log) {k : Nat}
    (hAfter : s.after o k = some t) {last : Except Fault Step} (hStep : t.step o = ⟨last, u⟩)
    (hStop : last ≠ .ok .executed) :
    ∃ w x, v.after .idle k = some w ∧ t.machine = w.machine ∧ w.step .idle = ⟨last, x⟩ ∧
      ∀ answer : Except Fault α, Shadows s.machine s.log ⟨answer, u⟩ ⟨answer, x⟩ := by
  obtain ⟨w, hAlone, hEnd⟩ := exists_after_congr .idle hMachine hAfter
  obtain ⟨hAnswer, hLast⟩ := step_congr o .idle hEnd
  rw [hStep] at hAnswer hLast
  have hStep' : (w.step .idle).answer ≠ .ok .executed := hAnswer ▸ hStop
  obtain ⟨failures, hLength, hWatched, -⟩ := log_of_after hAfter
  obtain ⟨hKept, -⟩ := machine_of_step_stopped hStep'
  have hFollows := follows_of_after hAlone
  refine ⟨w, _, hAlone, hEnd, step_eq_of_answer hAnswer.symm, fun answer =>
    ⟨rfl, hLast, k, failures, w.machine.closing, ?_, hLength, ?_, ending_closing _, ?_, ?_⟩⟩
  · rw [hMachine, hFollows.length]
  · rw [hMachine, ← hFollows.steps, hKept]
  · rw [Log.addAll_append, hLog, hMachine, ← log_of_after_idle hAlone]
    exact log_step_stopped hStep'
  · have hClosing := log_step_stopped (o := o) (s := t) (by rw [hStep]; exact hStop)
    rw [hStep] at hClosing
    rw [Log.addAll_append, ← hWatched, ← hEnd]
    exact hClosing

theorem shadows_step (hMachine : s.machine = v.machine) (hLog : s.log = v.log) :
    Shadows s.machine s.log (s.step o) (v.step .idle) := by
  match hStep : s.step o with
  | ⟨.ok .executed, t⟩ =>
    obtain ⟨w, hAlone, -, hShadows⟩ := shadows_of_after hMachine hLog
      (after_succ_of_executed hStep 0)
    obtain ⟨x, hStep', hRest⟩ := after_succ_eq_some_iff.mp hAlone
    cases hRest
    rw [hStep']
    exact hShadows _
  | ⟨.ok (.halted h), t⟩ | ⟨.error f, t⟩ =>
    obtain ⟨w, x, hAlone, -, hStep', hShadows⟩ := shadows_of_stop hMachine hLog after_zero hStep
      (by simp)
    cases hAlone
    rw [hStep']
    exact hShadows _

theorem shadows_runTo (hMachine : s.machine = v.machine) (hLog : s.log = v.log) (limit : Nat) :
    Shadows s.machine s.log (s.runTo o limit) (v.runTo .idle limit) := by
  have hRun := runOf_runTo o limit s
  generalize s.runTo o limit = outcome at hRun ⊢
  cases hRun with
  | exhausted t hAfter =>
    obtain ⟨w, hAlone, -, hShadows⟩ := shadows_of_after hMachine hLog hAfter
    rw [runTo_of_exhausted (hMachine ▸ hAlone)]
    exact hShadows _
  | halted k t h u hAfter hLimit hStep =>
    obtain ⟨w, x, hAlone, hEnd, hStep', hShadows⟩ := shadows_of_stop hMachine hLog hAfter hStep
      (by simp)
    rw [hEnd] at hLimit
    rw [runTo_of_after hAlone (Nat.le_of_lt hLimit), runTo_of_halted hLimit hStep']
    exact hShadows _
  | faulted k t f u hAfter hLimit hStep =>
    obtain ⟨w, x, hAlone, hEnd, hStep', hShadows⟩ := shadows_of_stop hMachine hLog hAfter hStep
      (by simp)
    rw [hEnd] at hLimit
    rw [runTo_of_after hAlone (Nat.le_of_lt hLimit), runTo_of_error hLimit hStep']
    exact hShadows _

theorem shadows_runFor (hMachine : s.machine = v.machine) (hLog : s.log = v.log) (n : Nat) :
    Shadows s.machine s.log (s.runFor o n) (v.runFor .idle n) := by
  obtain ⟨_, ⟨⟩, -, hUnmoved⟩ := shadows_of_after (o := o) hMachine hLog after_zero
  cases hStatus : s.machine.status with
  | halted h =>
    rw [runFor_of_status_halted hStatus, runFor_of_status_halted (hMachine ▸ hStatus)]
    exact hUnmoved _
  | faulted f =>
    rw [runFor_of_status_faulted hStatus, runFor_of_status_faulted (hMachine ▸ hStatus)]
    exact hUnmoved _
  | running =>
    have hAllowance : s.allowance n = v.allowance n := by rw [allowance, allowance, hMachine]
    have hRun := runForOf_runFor o n hStatus
    generalize s.runFor o n = outcome at hRun ⊢
    cases hRun with
    | exhausted t hAfter hStep =>
      obtain ⟨w, hAlone, hEnd, hShadows⟩ := shadows_of_after hMachine hLog hAfter
      have hRunning := status_of_after hStatus hAfter
      have hNoHalt (h : Halt) (x : Session Unit) : w.step .idle ≠ ⟨.ok (.halted h), x⟩ := by
        intro hStep'
        obtain ⟨hAnswer, -⟩ := step_congr o .idle hEnd
        rw [hStep'] at hAnswer
        exact hStep h _ (step_eq_of_answer hAnswer)
      rw [runFor_of_after (hAllowance ▸ hAlone) (hEnd ▸ hRunning) hNoHalt]
      exact hShadows _
    | halted k t h u hAfter hBudget hStep =>
      obtain ⟨w, x, hAlone, -, hStep', hShadows⟩ := shadows_of_stop hMachine hLog hAfter hStep
        (by simp)
      rw [runFor_of_halted hAlone (hAllowance ▸ hBudget) hStep']
      exact hShadows _
    | faulted k t f u hAfter hBudget hStep =>
      obtain ⟨w, x, hAlone, -, hStep', hShadows⟩ := shadows_of_stop hMachine hLog hAfter hStep
        (by simp)
      rw [runFor_of_error hAlone (hAllowance ▸ hBudget) hStep']
      exact hShadows _

/-- A machine with the debugger answers every call as it does alone and is left in the same state,
whatever the debugger reads and however much it can write. All that the debugger adds to the log is
at most one failure of its console behind each executed instruction. -/
theorem debugger_changes_nothing (m : Machine) (log : Log) (d : Debugger) :
    let s : Session Debugger := { machine := m, watch := d, log }
    let v : Session Unit := { machine := m, watch := (), log }
    Shadows m log (s.step Debugger.observer) (v.step .idle) ∧
      Shadows m log (s.run Debugger.observer) (v.run .idle) ∧
      ∀ n, Shadows m log (s.runFor Debugger.observer n) (v.runFor .idle n) := by
  intro s v
  have hMachine : s.machine = v.machine := rfl
  have hLog : s.log = v.log := rfl
  exact ⟨shadows_step hMachine hLog, shadows_runTo hMachine hLog _,
    shadows_runFor hMachine hLog⟩

end Session

end RegisterMachine
