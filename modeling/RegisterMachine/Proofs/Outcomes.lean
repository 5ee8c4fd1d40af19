import RegisterMachine.Proofs.Views

/-!
# Outcomes of runs

The outcome of a run is known as soon as it is known how many instructions it executes and whether
it stops the machine after these. `outcomeAt` is that outcome, with all that the observer has become
and all that was noted.

* `outcomeAt_of_after`, `outcomeAt_of_stop`: the outcome after some instructions, and after a step
  that stops the machine.
* `runFor_eq_outcomeAt`, `run_eq_outcomeAt`: the outcomes of the two kinds of run.
-/

namespace RegisterMachine.Session

variable {σ : Type} {o : Observer σ} {s t : Session σ} {k n : Nat}

/-- The outcome of a call that executes the first instructions and then stops the machine or leaves
it running. -/
def outcomeAt (o : Observer σ) (s : Session σ) (k : Nat) (stopped : Bool) :
    Outcome σ (Option Halt) :=
  let course := s.machine.course k
  let last := s.machine.after k
  let seen := o.attend s.machine.steps course s.watch
  { answer := if stopped then last.verdict.map Step.toRun else .ok none
    session :=
      { machine :=
          { toConfig := last
            steps := s.machine.steps + k
            status := if stopped then Status.ofStep last.verdict else .running }
        watch := seen.1
        log := s.log.addAll (annotated course seen.2 ++ if stopped then last.closing else []) } }

theorem ext_session {u v : Session σ} (hConfig : u.machine.toConfig = v.machine.toConfig)
    (hSteps : u.machine.steps = v.machine.steps) (hStatus : u.machine.status = v.machine.status)
    (hWatch : u.watch = v.watch) (hLog : u.log = v.log) : u = v := by
  obtain ⟨⟨_, _, _⟩, _, _⟩ := u
  obtain ⟨⟨_, _, _⟩, _, _⟩ := v
  cases hConfig
  cases hSteps
  cases hStatus
  cases hWatch
  cases hLog
  rfl

theorem outcomeAt_of_after (hRunning : s.machine.status = .running)
    (hAfter : s.after o k = some t) : (⟨.ok none, t⟩ : Outcome σ _) = s.outcomeAt o k false := by
  have hFollows := follows_of_after hAfter
  obtain ⟨hWatch, hLog⟩ := attend_of_after hRunning hAfter
  have hSession : t = (s.outcomeAt o k false).session := by
    refine ext_session hFollows.config hFollows.steps (status_of_after hRunning hAfter) hWatch ?_
    exact hLog.trans (congrArg s.log.addAll (List.append_nil _).symm)
  rw [hSession]
  rfl

theorem outcomeAt_of_stop (hRunning : s.machine.status = .running)
    (hAfter : s.after o k = some t) (hStop : (t.step o).answer ≠ .ok .executed) :
    (⟨(t.step o).answer.map Step.toRun, (t.step o).session⟩ : Outcome σ _) =
      s.outcomeAt o k true := by
  have hFollows := follows_of_after hAfter
  have hHere := status_of_after hRunning hAfter
  obtain ⟨hWatch, hLog⟩ := attend_of_after hRunning hAfter
  obtain ⟨hMachine, hUnseen⟩ := machine_of_step_stopped hStop
  have hSession : (t.step o).session = (s.outcomeAt o k true).session := by
    apply ext_session
    · rw [hMachine]
      exact hFollows.config
    · rw [hMachine]
      exact hFollows.steps
    · rw [status_step o hHere, hFollows.config]
      rfl
    · exact hUnseen.trans hWatch
    · rw [log_step_stopped hStop, Machine.closing_of_running hHere, hFollows.config, hLog,
        ← Log.addAll_append]
      rfl
  rw [hSession, verdict_of_after hRunning hAfter]
  rfl

theorem outcomeAt_of_endsAt {stopped : Bool} {outcome : Outcome σ (Option Halt)}
    (hRunning : s.machine.status = .running) (h : EndsAt o s k stopped outcome) :
    outcome = s.outcomeAt o k stopped := by
  cases h with
  | running t hAfter => exact outcomeAt_of_after hRunning hAfter
  | stopped t hAfter hStop => exact outcomeAt_of_stop hRunning hAfter hStop

theorem runFor_eq_outcomeAt (o : Observer σ) (hRunning : s.machine.status = .running)
    (hSteps : s.machine.steps + n < UInt64.size) :
    s.runFor o n = s.outcomeAt o (s.machine.course n).length (s.machine.stopsBy n) :=
  outcomeAt_of_endsAt hRunning (endsAt_runFor o hRunning hSteps)

theorem run_eq_outcomeAt (o : Observer σ) (hRunning : s.machine.status = .running)
    (hSteps : s.machine.steps + n = UInt64.size) :
    s.run o = s.outcomeAt o (s.machine.course n).length
      (decide ((s.machine.course n).length < n)) :=
  outcomeAt_of_endsAt hRunning (endsAt_run o hRunning hSteps)

end RegisterMachine.Session
