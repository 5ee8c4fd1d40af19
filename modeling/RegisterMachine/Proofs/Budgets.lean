import RegisterMachine.Proofs.Runs

/-!
# Runs with a budget

A run with a budget may execute as many instructions as its `allowance`: the budget, or what is left
of the steps that can be counted. `RunForOf` lists how such a run of a running machine can end, and
the list is exclusive: each of its cases determines the outcome (`runFor_of_halted`,
`runFor_of_error`, `runFor_of_after`).

* `runFor_runFor`: two runs in a row are one run with the sum of the budgets.
-/

namespace RegisterMachine.Session

variable {σ : Type} {o : Observer σ} {s t u : Session σ}

/-! ## The look ahead -/

theorem settle_of_halted {h : Halt} (hStep : t.step o = ⟨.ok (.halted h), u⟩) :
    t.settle = ⟨.ok (some h), u⟩ := by
  cases hStatus : t.machine.status with
  | halted g =>
    rw [step_of_status_halted hStatus] at hStep
    cases hStep
    simp [settle, hStatus]
  | faulted f =>
    rw [step_of_status_faulted hStatus] at hStep
    cases hStep
  | running =>
    have hCase := stepOf_step o hStatus
    rw [hStep] at hCase
    cases hCase with
    | halted opcode hFetch => simp [settle, hStatus, hFetch]

theorem settle_of_not_halted (hRunning : t.machine.status = .running)
    (hStep : ∀ h u, t.step o ≠ ⟨.ok (.halted h), u⟩) : t.settle = ⟨.ok none, t⟩ := by
  have hCase := stepOf_step o hRunning
  generalize hOutcome : t.step o = outcome at hCase
  cases hCase with
  | executed i hFetch => simp [settle, hRunning, hFetch]
  | refused i cause hFetch => simp [settle, hRunning, hFetch]
  | unfetched f hFetch => simp [settle, hRunning, hFetch]
  | halted opcode hFetch => exact absurd hOutcome (hStep _ _)

/-! ## How a run with a budget ends -/

/-- The number of instructions that a run with a budget may execute. -/
def allowance (budget : Nat) (s : Session σ) : Nat :=
  min budget (maxSteps - s.machine.steps)

theorem allowance_eq (n : Nat) (s : Session σ) :
    s.allowance n = min (s.machine.steps + n) maxSteps - s.machine.steps := by
  unfold allowance
  omega

theorem runFor_eq (o : Observer σ) (n : Nat) (s : Session σ) :
    s.runFor o n =
      match s.runTo o (min (s.machine.steps + n) maxSteps) with
      | ⟨.ok none, t⟩ => t.settle
      | stopped => stopped :=
  rfl

theorem runFor_of_halted {n k : Nat} {h : Halt} (hAfter : s.after o k = some t)
    (hBudget : k ≤ s.allowance n) (hStep : t.step o = ⟨.ok (.halted h), u⟩) :
    s.runFor o n = ⟨.ok (some h), u⟩ := by
  have hSteps := steps_of_after hAfter
  rw [allowance_eq] at hBudget
  by_cases hLimit : t.machine.steps < min (s.machine.steps + n) maxSteps
  · rw [runFor_eq, runTo_of_after hAfter (Nat.le_of_lt hLimit), runTo_of_halted hLimit hStep]
  · -- The halt is due when the allowance is used up, so only the look ahead finds it.
    have hLast : k = min (s.machine.steps + n) maxSteps - s.machine.steps := by omega
    rw [runFor_eq, runTo_of_exhausted (hLast ▸ hAfter)]
    exact settle_of_halted hStep

theorem runFor_of_error {n k : Nat} {f : Fault} (hAfter : s.after o k = some t)
    (hBudget : k < s.allowance n) (hStep : t.step o = ⟨.error f, u⟩) :
    s.runFor o n = ⟨.error f, u⟩ := by
  have hSteps := steps_of_after hAfter
  rw [allowance_eq] at hBudget
  rw [runFor_eq, runTo_of_after hAfter (by omega), runTo_of_error (by omega) hStep]

theorem runFor_of_after {n : Nat} (hAfter : s.after o (s.allowance n) = some t)
    (hRunning : t.machine.status = .running)
    (hStep : ∀ h u, t.step o ≠ ⟨.ok (.halted h), u⟩) : s.runFor o n = ⟨.ok none, t⟩ := by
  rw [allowance_eq] at hAfter
  rw [runFor_eq, runTo_of_exhausted hAfter]
  exact settle_of_not_halted hRunning hStep

theorem runFor_of_status_halted {h : Halt} (hStatus : s.machine.status = .halted h) (n : Nat) :
    s.runFor o n = ⟨.ok (some h), s⟩ :=
  runFor_of_halted after_zero (Nat.zero_le _) (step_of_status_halted hStatus)

theorem runFor_of_status_faulted {f : Fault} (hStatus : s.machine.status = .faulted f) (n : Nat) :
    s.runFor o n = ⟨.error f, s⟩ := by
  by_cases hBudget : 0 < s.allowance n
  · exact runFor_of_error after_zero hBudget (step_of_status_faulted hStatus)
  · unfold allowance at hBudget
    rw [runFor_eq, runTo_of_le (by omega)]
    simp [settle, hStatus]

/-- How a run with a budget of a running machine can end. -/
inductive RunForOf (o : Observer σ) (n : Nat) (s : Session σ) :
    Outcome σ (Option Halt) → Prop where
  | halted (k : Nat) (t : Session σ) (h : Halt) (u : Session σ) (hAfter : s.after o k = some t)
      (hBudget : k ≤ s.allowance n) (hStep : t.step o = ⟨.ok (.halted h), u⟩) :
      RunForOf o n s ⟨.ok (some h), u⟩
  | faulted (k : Nat) (t : Session σ) (f : Fault) (u : Session σ) (hAfter : s.after o k = some t)
      (hBudget : k < s.allowance n) (hStep : t.step o = ⟨.error f, u⟩) :
      RunForOf o n s ⟨.error f, u⟩
  | exhausted (t : Session σ) (hAfter : s.after o (s.allowance n) = some t)
      (hStep : ∀ h u, t.step o ≠ ⟨.ok (.halted h), u⟩) :
      RunForOf o n s ⟨.ok none, t⟩

theorem runForOf_runFor (o : Observer σ) (n : Nat) (hRunning : s.machine.status = .running) :
    RunForOf o n s (s.runFor o n) := by
  have hRun := runOf_runTo o (min (s.machine.steps + n) maxSteps) s
  generalize s.runTo o (min (s.machine.steps + n) maxSteps) = outcome at hRun
  cases hRun with
  | exhausted t hAfter =>
    rw [← allowance_eq] at hAfter
    by_cases hHalt : ∃ h u, t.step o = ⟨.ok (.halted h), u⟩
    · obtain ⟨h, u, hStep⟩ := hHalt
      rw [runFor_of_halted hAfter (Nat.le_refl _) hStep]
      exact .halted _ t h u hAfter (Nat.le_refl _) hStep
    · have hStep (h : Halt) (u : Session σ) : t.step o ≠ ⟨.ok (.halted h), u⟩ :=
        fun hEq => hHalt ⟨h, u, hEq⟩
      rw [runFor_of_after hAfter (status_of_after hRunning hAfter) hStep]
      exact .exhausted t hAfter hStep
  | halted k t h u hAfter hLimit hStep =>
    have hSteps := steps_of_after hAfter
    have hBudget : k ≤ s.allowance n := by rw [allowance_eq]; omega
    rw [runFor_of_halted hAfter hBudget hStep]
    exact .halted k t h u hAfter hBudget hStep
  | faulted k t f u hAfter hLimit hStep =>
    have hSteps := steps_of_after hAfter
    have hBudget : k < s.allowance n := by rw [allowance_eq]; omega
    rw [runFor_of_error hAfter hBudget hStep]
    exact .faulted k t f u hAfter hBudget hStep

/-! ## Two runs in a row -/

theorem allowance_add (m n : Nat) (hSteps : t.machine.steps = s.machine.steps + s.allowance m) :
    s.allowance (min (m + n) maxSteps) = s.allowance m + t.allowance n := by
  unfold allowance at *
  omega

theorem allowance_le_allowance {m n : Nat} (h : m ≤ n) : s.allowance m ≤ s.allowance n := by
  unfold allowance
  omega

theorem allowance_min_maxSteps (n : Nat) (s : Session σ) :
    s.allowance (min n maxSteps) = s.allowance n := by
  unfold allowance
  omega

/-- Two runs in a row are one run with the sum of the budgets, as far as that can be counted. -/
theorem runFor_runFor (o : Observer σ) (m n : Nat) (s : Session σ) :
    (s.runFor o m).session.runFor o n = s.runFor o (min (m + n) maxSteps) := by
  cases hStatus : s.machine.status with
  | halted h => simp only [runFor_of_status_halted hStatus]
  | faulted f => simp only [runFor_of_status_faulted hStatus]
  | running =>
    have hSum : s.allowance m ≤ s.allowance (min (m + n) maxSteps) := by
      rw [allowance_min_maxSteps]
      exact allowance_le_allowance (Nat.le_add_right m n)
    have hFirst := runForOf_runFor o m hStatus
    generalize s.runFor o m = first at hFirst
    cases hFirst with
    | halted k t h u hAfter hBudget hStep =>
      rw [runFor_of_status_halted (status_of_step_halted hStep),
        runFor_of_halted hAfter (Nat.le_trans hBudget hSum) hStep]
    | faulted k t f u hAfter hBudget hStep =>
      rw [runFor_of_status_faulted (status_of_step_error hStep),
        runFor_of_error hAfter (Nat.lt_of_lt_of_le hBudget hSum) hStep]
    | exhausted t hAfter hStep =>
      have hAdd := allowance_add m n (steps_of_after hAfter)
      have hRunning := status_of_after hStatus hAfter
      have hSecond := runForOf_runFor o n hRunning
      generalize t.runFor o n = second at hSecond ⊢
      cases hSecond with
      | halted k u h v hAfter' hBudget hStop =>
        have hBoth : s.after o (s.allowance m + k) = some u := by rw [after_add hAfter, hAfter']
        exact (runFor_of_halted hBoth (by omega) hStop).symm
      | faulted k u f v hAfter' hBudget hStop =>
        have hBoth : s.after o (s.allowance m + k) = some u := by rw [after_add hAfter, hAfter']
        exact (runFor_of_error hBoth (by omega) hStop).symm
      | exhausted u hAfter' hStep' =>
        have hBoth : s.after o (s.allowance (min (m + n) maxSteps)) = some u := by
          rw [hAdd, after_add hAfter, hAfter']
        exact (runFor_of_after hBoth (status_of_after hRunning hAfter') hStep').symm

end RegisterMachine.Session
