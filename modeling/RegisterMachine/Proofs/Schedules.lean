import RegisterMachine.Proofs.Budgets

/-!
# Calls in a row

A session can be stepped and run with budgets any number of times before it is run to its end. Each
such call executes instructions and then, perhaps, stops the machine, all of which the last run
would have done as well.

* `session_runFor`: what a run with a budget executes, and that it stays below `maxSteps`.
* `run_of_make`: a call does not change the run that comes after it.
* `budgets_compose`: budgets add up, and a run is the same after any calls.
-/

namespace RegisterMachine.Session

variable {σ : Type} {o : Observer σ} {s t u : Session σ}

/-- A call that need not stop the machine. -/
inductive Call where
  | step
  | runFor (budget : Nat)

def make (o : Observer σ) (s : Session σ) : Call → Session σ
  | .step => (s.step o).session
  | .runFor budget => (s.runFor o budget).session

def makeAll (o : Observer σ) (calls : List Call) (s : Session σ) : Session σ :=
  calls.foldl (make o) s

/-- A run with a budget executes instructions, and after the last of them it may stop the machine
as a step would. The count of steps never passes `maxSteps` on the way. -/
theorem session_runFor (o : Observer σ) (n : Nat) (s : Session σ) :
    ∃ k t, s.after o k = some t ∧ k ≤ s.allowance n ∧
      (s.runFor o n).session.machine.steps = s.machine.steps + k ∧
      ((s.runFor o n).session = t ∨ (s.runFor o n).session = (t.step o).session) := by
  cases hStatus : s.machine.status with
  | halted h =>
    rw [runFor_of_status_halted hStatus]
    exact ⟨0, s, rfl, Nat.zero_le _, rfl, .inl rfl⟩
  | faulted f =>
    rw [runFor_of_status_faulted hStatus]
    exact ⟨0, s, rfl, Nat.zero_le _, rfl, .inl rfl⟩
  | running =>
    have hRun := runForOf_runFor o n hStatus
    generalize s.runFor o n = outcome at hRun ⊢
    cases hRun with
    | halted k t h u hAfter hBudget hStep =>
      refine ⟨k, t, hAfter, hBudget, ?_, .inr (by rw [hStep])⟩
      rw [steps_of_step_halted hStep]
      exact steps_of_after hAfter
    | faulted k t f u hAfter hBudget hStep =>
      refine ⟨k, t, hAfter, Nat.le_of_lt hBudget, ?_, .inr (by rw [hStep])⟩
      rw [steps_of_step_error hStep]
      exact steps_of_after hAfter
    | exhausted t hAfter hStep =>
      exact ⟨_, t, hAfter, Nat.le_refl _, steps_of_after hAfter, .inl rfl⟩

/-! ## A run after a call -/

/-- A run that stops has not run out of steps to count. -/
theorem steps_of_run_stops (hStops : (s.run o).answer ≠ .ok none) :
    s.machine.steps < maxSteps + 1 := by
  refine Nat.lt_of_not_le fun hLimit => hStops ?_
  rw [run, runTo_of_le hLimit]

theorem run_of_step (hStops : ((s.step o).session.run o).answer ≠ .ok none) :
    (s.step o).session.run o = s.run o := by
  have hSteps := steps_of_run_stops hStops
  match hStep : s.step o with
  | ⟨.ok .executed, t⟩ =>
    simp only [hStep, steps_of_step_executed hStep] at hSteps
    exact (runTo_of_executed (by omega) hStep).symm
  | ⟨.ok (.halted h), t⟩ =>
    simp only [hStep, steps_of_step_halted hStep] at hSteps
    have hAgain := step_of_status_halted (o := o) (status_of_step_halted hStep)
    have hCount : t.machine.steps < maxSteps + 1 := steps_of_step_halted hStep ▸ hSteps
    rw [run, run, runTo_of_halted hCount hAgain, runTo_of_halted hSteps hStep]
  | ⟨.error f, t⟩ =>
    simp only [hStep, steps_of_step_error hStep] at hSteps
    have hAgain := step_of_status_faulted (o := o) (status_of_step_error hStep)
    have hCount : t.machine.steps < maxSteps + 1 := steps_of_step_error hStep ▸ hSteps
    rw [run, run, runTo_of_error hCount hAgain, runTo_of_error hSteps hStep]

theorem run_of_after {k : Nat} (hAfter : s.after o k = some t)
    (hStops : (t.run o).answer ≠ .ok none) : t.run o = s.run o :=
  (runTo_of_after hAfter (Nat.le_of_lt (steps_of_run_stops hStops))).symm

/-- A call does not change the run that comes after it. -/
theorem run_of_make (call : Call) (hStops : ((s.make o call).run o).answer ≠ .ok none) :
    (s.make o call).run o = s.run o := by
  cases call with
  | step => exact run_of_step hStops
  | runFor n =>
    obtain ⟨k, t, hAfter, -, -, hSession | hSession⟩ := session_runFor o n s
    · simp only [make, hSession] at hStops ⊢
      exact run_of_after hAfter hStops
    · simp only [make, hSession] at hStops ⊢
      have hLast := run_of_step hStops
      rw [hLast] at hStops ⊢
      exact run_of_after hAfter hStops

theorem run_of_makeAll (calls : List Call)
    (hStops : ((s.makeAll o calls).run o).answer ≠ .ok none) :
    (s.makeAll o calls).run o = s.run o := by
  induction calls generalizing s with
  | nil => rfl
  | cons call calls ih =>
    have hRest : (s.makeAll o (call :: calls)).run o = (s.make o call).run o := ih hStops
    rw [hRest] at hStops ⊢
    exact run_of_make call hStops

/-- Two runs with budgets are one run with the sum of the budgets, no run with a budget counts more
steps than can be counted, and a run that stops is the same after any calls. -/
theorem budgets_compose (o : Observer σ) (s : Session σ) :
    (∀ m n, (s.runFor o m).session.runFor o n = s.runFor o (min (m + n) maxSteps)) ∧
      (s.machine.steps ≤ maxSteps → ∀ n, ∃ k t, s.after o k = some t ∧
        s.machine.steps + k ≤ maxSteps ∧
        (s.runFor o n).session.machine.steps = s.machine.steps + k ∧
        ((s.runFor o n).session = t ∨ (s.runFor o n).session = (t.step o).session)) ∧
      (∀ calls, ((s.makeAll o calls).run o).answer ≠ .ok none →
        (s.makeAll o calls).run o = s.run o) := by
  refine ⟨fun m n => runFor_runFor o m n s, fun hSteps n => ?_, fun calls => run_of_makeAll calls⟩
  obtain ⟨k, t, hAfter, hBudget, hCount, hSession⟩ := session_runFor o n s
  refine ⟨k, t, hAfter, ?_, hCount, hSession⟩
  unfold allowance at hBudget
  omega

/-- A budget that goes beyond the last step that can be counted, and a step after that. -/
theorem budgets_compose_at_maxSteps :
    let m : Machine := .boot (Memory.zero.poke 0 (Instruction.encode ⟨.constant, 0, 7, 0⟩))
    let s : Session Unit :=
      { machine := { m with steps := maxSteps - 1 }, watch := (), log := { threshold := none } }
    s.machine.steps ≤ maxSteps ∧ (s.runFor .idle 5).session.machine.steps ≤ maxSteps ∧
      ((s.makeAll .idle [.runFor 5, .step]).run .idle).answer = .ok (some ⟨4, 0⟩) ∧
      s.run .idle = (s.makeAll .idle [.runFor 5, .step]).run .idle := by
  intro m s
  obtain ⟨t, u, hFirst, hHalt⟩ : ∃ t u,
      s.step .idle = ⟨.ok .executed, t⟩ ∧ t.step .idle = ⟨.ok (.halted ⟨4, 0⟩), u⟩ :=
    ⟨_, _, rfl, rfl⟩
  have hSteps : s.machine.steps ≤ maxSteps := by decide
  have hAgain := step_of_status_halted (o := .idle) (status_of_step_halted hHalt)
  have hCalls : s.makeAll .idle [.runFor 5, .step] = u := by
    have hBudget : (s.runFor .idle 5).session = u := by
      rw [runFor_of_halted (after_succ_of_executed hFirst 0) (by decide) hHalt]
    change ((s.runFor .idle 5).session.step .idle).session = u
    rw [hBudget, hAgain]
  have hCount : u.machine.steps < maxSteps + 1 := by
    rw [steps_of_step_halted hHalt, steps_of_step_executed hFirst]
    decide
  have hRun : (s.makeAll .idle [.runFor 5, .step]).run .idle = ⟨.ok (some ⟨4, 0⟩), u⟩ := by
    rw [hCalls]
    exact runTo_of_halted hCount hAgain
  obtain ⟨-, hBudgets, hStops⟩ := budgets_compose .idle s
  obtain ⟨k, v, -, hLe, hEq, -⟩ := hBudgets hSteps 5
  refine ⟨hSteps, hEq ▸ hLe, by rw [hRun], (hStops _ ?_).symm⟩
  rw [hRun]
  exact fun h => nomatch h

end RegisterMachine.Session
