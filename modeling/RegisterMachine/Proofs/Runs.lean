import RegisterMachine.Proofs.Step

/-!
# Runs

A run is a sequence of steps. `Session.after` is the session after a number of executed
instructions, and every run is described by it.

* `machine_of_step_halted`, `machine_of_step_error`: a step that stops the machine changes nothing
  but the status.
* `after_add`: instructions can be executed in two portions.
* `runOf_runTo`: a run up to a limit of counted steps ends when the limit is reached, or with the
  halt or the fault that comes before.
-/

namespace RegisterMachine.Session

variable {σ : Type} {o : Observer σ} {s t u : Session σ}

/-! ## Steps and the status -/

theorem status_of_step_executed (hStep : s.step o = ⟨.ok .executed, t⟩) :
    s.machine.status = .running ∧ t.machine.status = .running := by
  cases hStatus : s.machine.status with
  | halted h => simp [step, hStatus] at hStep
  | faulted f => simp [step, hStatus] at hStep
  | running =>
    have hCase := stepOf_step o hStatus
    rw [hStep] at hCase
    cases hCase
    rw [machine_complete]
    exact ⟨rfl, hStatus⟩

theorem machine_of_step_halted {h : Halt} (hStep : s.step o = ⟨.ok (.halted h), t⟩) :
    t.machine = { s.machine with status := .halted h } ∧ t.watch = s.watch := by
  cases hStatus : s.machine.status with
  | halted g =>
    simp only [step, hStatus, Outcome.mk.injEq, Except.ok.injEq, Step.halted.injEq] at hStep
    obtain ⟨rfl, rfl⟩ := hStep
    rw [← hStatus]
    exact ⟨rfl, rfl⟩
  | faulted f => simp [step, hStatus] at hStep
  | running =>
    have hCase := stepOf_step o hStatus
    rw [hStep] at hCase
    cases hCase
    exact ⟨rfl, rfl⟩

/-- A step that faults changes nothing but the status, though the instruction works in place. -/
theorem machine_of_step_error {f : Fault} (hStep : s.step o = ⟨.error f, t⟩) :
    t.machine = { s.machine with status := .faulted f } ∧ t.watch = s.watch := by
  cases hStatus : s.machine.status with
  | halted h => simp [step, hStatus] at hStep
  | faulted g =>
    simp only [step, hStatus, Outcome.mk.injEq, Except.error.injEq] at hStep
    obtain ⟨rfl, rfl⟩ := hStep
    rw [← hStatus]
    exact ⟨rfl, rfl⟩
  | running =>
    have hCase := stepOf_step o hStatus
    rw [hStep] at hCase
    cases hCase <;> exact ⟨rfl, rfl⟩

theorem status_of_step_halted {h : Halt} (hStep : s.step o = ⟨.ok (.halted h), t⟩) :
    t.machine.status = .halted h := by
  rw [(machine_of_step_halted hStep).1]

theorem steps_of_step_halted {h : Halt} (hStep : s.step o = ⟨.ok (.halted h), t⟩) :
    t.machine.steps = s.machine.steps := by
  rw [(machine_of_step_halted hStep).1]

theorem status_of_step_error {f : Fault} (hStep : s.step o = ⟨.error f, t⟩) :
    t.machine.status = .faulted f := by
  rw [(machine_of_step_error hStep).1]

theorem steps_of_step_error {f : Fault} (hStep : s.step o = ⟨.error f, t⟩) :
    t.machine.steps = s.machine.steps := by
  rw [(machine_of_step_error hStep).1]

theorem step_of_status_halted {h : Halt} (hStatus : s.machine.status = .halted h) :
    s.step o = ⟨.ok (.halted h), s⟩ := by
  simp [step, hStatus]

theorem step_of_status_faulted {f : Fault} (hStatus : s.machine.status = .faulted f) :
    s.step o = ⟨.error f, s⟩ := by
  simp [step, hStatus]

/-! ## Executed instructions -/

/-- The session after a number of executed instructions, if steps execute as many. -/
def after (o : Observer σ) : Nat → Session σ → Option (Session σ)
  | 0, s => some s
  | k + 1, s =>
    match s.step o with
    | ⟨.ok .executed, t⟩ => after o k t
    | _ => none

@[simp]
theorem after_zero : s.after o 0 = some s :=
  rfl

theorem after_succ_of_executed (hStep : s.step o = ⟨.ok .executed, t⟩) (k : Nat) :
    s.after o (k + 1) = t.after o k := by
  simp [after, hStep]

theorem after_succ_eq_some_iff {k : Nat} :
    s.after o (k + 1) = some u ↔ ∃ t, s.step o = ⟨.ok .executed, t⟩ ∧ t.after o k = some u := by
  constructor
  · intro hAfter
    unfold after at hAfter
    split at hAfter
    · next t hStep => exact ⟨t, hStep, hAfter⟩
    · cases hAfter
  · rintro ⟨t, hStep, hAfter⟩
    rw [after_succ_of_executed hStep, hAfter]

theorem after_add {j : Nat} (hAfter : s.after o j = some t) (k : Nat) :
    s.after o (j + k) = t.after o k := by
  induction j generalizing s with
  | zero =>
    cases hAfter
    rw [Nat.zero_add]
  | succ j ih =>
    obtain ⟨u, hStep, hRest⟩ := after_succ_eq_some_iff.mp hAfter
    rw [Nat.succ_add, after_succ_of_executed hStep, ih hRest]

theorem steps_of_after {k : Nat} (hAfter : s.after o k = some t) :
    t.machine.steps = s.machine.steps + k := by
  induction k generalizing s with
  | zero =>
    cases hAfter
    rfl
  | succ k ih =>
    obtain ⟨u, hStep, hRest⟩ := after_succ_eq_some_iff.mp hAfter
    have hFirst := steps_of_step_executed hStep
    have hOthers := ih hRest
    omega

theorem status_of_after {k : Nat} (hRunning : s.machine.status = .running)
    (hAfter : s.after o k = some t) : t.machine.status = .running := by
  induction k generalizing s with
  | zero =>
    cases hAfter
    exact hRunning
  | succ k ih =>
    obtain ⟨u, hStep, hRest⟩ := after_succ_eq_some_iff.mp hAfter
    exact ih (status_of_step_executed hStep).2 hRest

/-! ## Runs up to a limit -/

theorem runTo_of_le {limit : Nat} (hLimit : limit ≤ s.machine.steps) :
    s.runTo o limit = ⟨.ok none, s⟩ := by
  rw [runTo, if_neg (Nat.not_lt.mpr hLimit)]

theorem runTo_of_executed {limit : Nat} (hLimit : s.machine.steps < limit)
    (hStep : s.step o = ⟨.ok .executed, t⟩) : s.runTo o limit = t.runTo o limit := by
  rw [runTo, if_pos hLimit]
  split <;> simp_all

theorem runTo_of_halted {limit : Nat} {h : Halt} (hLimit : s.machine.steps < limit)
    (hStep : s.step o = ⟨.ok (.halted h), t⟩) : s.runTo o limit = ⟨.ok (some h), t⟩ := by
  rw [runTo, if_pos hLimit]
  split <;> simp_all

theorem runTo_of_error {limit : Nat} {f : Fault} (hLimit : s.machine.steps < limit)
    (hStep : s.step o = ⟨.error f, t⟩) : s.runTo o limit = ⟨.error f, t⟩ := by
  rw [runTo, if_pos hLimit]
  split <;> simp_all

theorem runTo_of_after {k limit : Nat} (hAfter : s.after o k = some t)
    (hLimit : t.machine.steps ≤ limit) : s.runTo o limit = t.runTo o limit := by
  induction k generalizing s with
  | zero =>
    cases hAfter
    rfl
  | succ k ih =>
    obtain ⟨u, hStep, hRest⟩ := after_succ_eq_some_iff.mp hAfter
    have hSteps := steps_of_after hAfter
    rw [runTo_of_executed (by omega) hStep, ih hRest]

theorem runTo_of_exhausted {limit : Nat}
    (hAfter : s.after o (limit - s.machine.steps) = some t) :
    s.runTo o limit = ⟨.ok none, t⟩ := by
  have hSteps := steps_of_after hAfter
  cases hDistance : limit - s.machine.steps with
  | zero =>
    rw [hDistance] at hAfter
    cases hAfter
    exact runTo_of_le (by omega)
  | succ n => rw [runTo_of_after hAfter (by omega), runTo_of_le (by omega)]

/-- How a run up to a limit can end. -/
inductive RunOf (o : Observer σ) (limit : Nat) (s : Session σ) :
    Outcome σ (Option Halt) → Prop where
  | exhausted (t : Session σ) (hAfter : s.after o (limit - s.machine.steps) = some t) :
      RunOf o limit s ⟨.ok none, t⟩
  | halted (k : Nat) (t : Session σ) (h : Halt) (u : Session σ) (hAfter : s.after o k = some t)
      (hLimit : t.machine.steps < limit) (hStep : t.step o = ⟨.ok (.halted h), u⟩) :
      RunOf o limit s ⟨.ok (some h), u⟩
  | faulted (k : Nat) (t : Session σ) (f : Fault) (u : Session σ) (hAfter : s.after o k = some t)
      (hLimit : t.machine.steps < limit) (hStep : t.step o = ⟨.error f, u⟩) :
      RunOf o limit s ⟨.error f, u⟩

theorem runOf_runTo (o : Observer σ) (limit : Nat) (s : Session σ) :
    RunOf o limit s (s.runTo o limit) := by
  induction hDistance : limit - s.machine.steps generalizing s with
  | zero =>
    rw [runTo_of_le (by omega)]
    exact .exhausted s (by rw [hDistance]; rfl)
  | succ n ih =>
    have hLimit : s.machine.steps < limit := by omega
    match hStep : s.step o with
    | ⟨.ok (.halted h), t⟩ =>
      rw [runTo_of_halted hLimit hStep]
      exact .halted 0 s h t rfl hLimit hStep
    | ⟨.error f, t⟩ =>
      rw [runTo_of_error hLimit hStep]
      exact .faulted 0 s f t rfl hLimit hStep
    | ⟨.ok .executed, t⟩ =>
      have hSteps := steps_of_step_executed hStep
      have hRest := ih t (by omega)
      rw [runTo_of_executed hLimit hStep]
      generalize t.runTo o limit = outcome at hRest ⊢
      -- One instruction more on the way to where the rest of the run ends.
      cases hRest with
      | exhausted u hAfter =>
        refine .exhausted u ?_
        rw [show limit - s.machine.steps = limit - t.machine.steps + 1 by omega,
          after_succ_of_executed hStep, hAfter]
      | halted k u h v hAfter hLimit' hStop =>
        exact .halted (k + 1) u h v (by rw [after_succ_of_executed hStep, hAfter]) hLimit' hStop
      | faulted k u f v hAfter hLimit' hStop =>
        exact .faulted (k + 1) u f v (by rw [after_succ_of_executed hStep, hAfter]) hLimit' hStop

end RegisterMachine.Session
