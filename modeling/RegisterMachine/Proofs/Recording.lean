import RegisterMachine.Proofs.Views

/-!
# Recorded observers

Every observer can be made to write down its calls: beside doing what it does, it keeps a list of
what it is shown. Forgetting the list gives back the session without it, so what is found in the
list are the calls of the observers as they are.

* `forget_step`, `forget_drive`: a recorded observer does what the observer does alone.
* `forget_performAll`: the same for all operations.
-/

namespace RegisterMachine

/-- What an observer is given at a call. -/
structure Showing where
  machine : Machine
  instruction : Instruction

/-- Does what an observer does and adds each call to a list. -/
def Observer.recorded {σ : Type} (o : Observer σ) : Observer (σ × List Showing) where
  observe m i w :=
    let seen := o.observe m i w.1
    ((seen.1, w.2 ++ [⟨m, i⟩]), seen.2)

def Drive.recorded {σ : Type} : Drive σ → Drive (σ × List Showing)
  | .step o => .step o.recorded
  | .run o => .run o.recorded
  | .runFor o budget => .runFor o.recorded budget

def Operation.recorded {σ : Type} : Operation σ → Operation (σ × List Showing)
  | .load image => .load image
  | .overwrite memory => .overwrite memory
  | .read x => .read x
  | .write x w => .write x w
  | .get operand => .get operand
  | .set operand w => .set operand w
  | .setStackPointer w => .setStackPointer w
  | .setProgramCounter w => .setProgramCounter w
  | .replaceRegisters regs => .replaceRegisters regs
  | .fetch => .fetch
  | .drive d => .drive d.recorded

theorem Drive.observer_recorded {σ : Type} (d : Drive σ) :
    d.recorded.observer = d.observer.recorded := by
  cases d <;> rfl

namespace Session

variable {σ α : Type} {o : Observer σ} {t u : Session (σ × List Showing)}

/-- A session in which no calls have been written down yet. -/
def recording (s : Session σ) : Session (σ × List Showing) :=
  { machine := s.machine, watch := (s.watch, []), log := s.log }

/-- The session without the list of calls. -/
def forget (t : Session (σ × List Showing)) : Session σ :=
  { machine := t.machine, watch := t.watch.1, log := t.log }

theorem forget_recording (s : Session σ) : s.recording.forget = s :=
  rfl

theorem forget_complete (o : Observer σ) (i : Instruction) (t : Session (σ × List Showing)) :
    (t.complete o.recorded i).forget = t.forget.complete o i := by
  simp only [complete, present, forget, advance, Observer.recorded, Machine.complete]
  cases (o.observe _ i t.watch.1).2 <;> rfl

/-- A step with a recorded observer is a step with the observer. -/
theorem forget_step (o : Observer σ) (t : Session (σ × List Showing)) :
    t.forget.step o = ⟨(t.step o.recorded).answer, (t.step o.recorded).session.forget⟩ := by
  have hSame : t.forget.machine = t.machine := rfl
  unfold step
  rw [hSame]
  cases t.machine.status with
  | halted h => rfl
  | faulted f => rfl
  | running =>
    dsimp only
    cases t.machine.fetch with
    | error f => rfl
    | ok fetched =>
      cases fetched with
      | undefined opcode => rfl
      | instruction i =>
        dsimp only [note]
        rw [execute_eq, execute_eq]
        dsimp only [forget]
        cases t.machine.obstacle? i with
        | none =>
          have hComplete := forget_complete o i (t.note (.executing t.machine.registers.pc i))
          exact congrArg (Outcome.mk (.ok Step.executed)) hComplete.symm
        | some cause => rfl

theorem forget_step_eq {answer : Except Fault Step} (hStep : t.step o.recorded = ⟨answer, u⟩) :
    t.forget.step o = ⟨answer, u.forget⟩ := by
  rw [forget_step, hStep]

theorem forget_after {k : Nat} (hAfter : t.after o.recorded k = some u) :
    t.forget.after o k = some u.forget := by
  induction k generalizing t with
  | zero =>
    cases hAfter
    rfl
  | succ k ih =>
    obtain ⟨v, hStep, hRest⟩ := after_succ_eq_some_iff.mp hAfter
    rw [after_succ_of_executed (forget_step_eq hStep), ih hRest]

theorem forget_runTo (o : Observer σ) (limit : Nat) (t : Session (σ × List Showing)) :
    t.forget.runTo o limit =
      ⟨(t.runTo o.recorded limit).answer, (t.runTo o.recorded limit).session.forget⟩ := by
  have hRun := runOf_runTo o.recorded limit t
  generalize t.runTo o.recorded limit = outcome at hRun ⊢
  cases hRun with
  | exhausted u hAfter => exact runTo_of_exhausted (forget_after hAfter)
  | halted k u h v hAfter hLimit hStep =>
    rw [runTo_of_after (forget_after hAfter) (Nat.le_of_lt hLimit)]
    exact runTo_of_halted hLimit (forget_step_eq hStep)
  | faulted k u f v hAfter hLimit hStep =>
    rw [runTo_of_after (forget_after hAfter) (Nat.le_of_lt hLimit)]
    exact runTo_of_error hLimit (forget_step_eq hStep)

theorem forget_settle (t : Session (σ × List Showing)) :
    t.forget.settle = ⟨t.settle.answer, t.settle.session.forget⟩ := by
  have hSame : t.forget.machine = t.machine := rfl
  unfold settle
  rw [hSame]
  cases t.machine.status with
  | halted h => rfl
  | faulted f => rfl
  | running =>
    dsimp only
    split <;> rfl

theorem forget_runFor (o : Observer σ) (budget : Nat) (t : Session (σ × List Showing)) :
    t.forget.runFor o budget =
      ⟨(t.runFor o.recorded budget).answer, (t.runFor o.recorded budget).session.forget⟩ := by
  have hSteps : t.forget.machine.steps = t.machine.steps := rfl
  rw [runFor_eq, runFor_eq, hSteps, forget_runTo]
  generalize t.runTo o.recorded (min (t.machine.steps + budget) maxSteps) = outcome
  obtain ⟨answer, v⟩ := outcome
  cases answer with
  | error f => rfl
  | ok h =>
    cases h with
    | none => exact forget_settle v
    | some h => rfl

theorem forget_drive (d : Drive σ) (t : Session (σ × List Showing)) :
    (t.drive d.recorded).forget = t.forget.drive d := by
  cases d with
  | step o =>
    change _ = (t.forget.step o).session
    rw [forget_step]
    rfl
  | run o =>
    change _ = (t.forget.runTo o (maxSteps + 1)).session
    rw [forget_runTo]
    rfl
  | runFor o budget =>
    change _ = (t.forget.runFor o budget).session
    rw [forget_runFor]
    rfl

theorem forget_perform (op : Operation σ) (t : Session (σ × List Showing)) :
    (t.perform op.recorded).forget = t.forget.perform op := by
  cases op with
  | load image =>
    simp only [Operation.recorded, perform, load, Machine.load, forget]
    cases t.machine.memory.load image <;> rfl
  | write x w =>
    simp only [Operation.recorded, perform, forget]
    cases t.machine.memory.write x.toNat w <;> rfl
  | set operand w =>
    simp only [Operation.recorded, perform, forget]
    cases t.machine.registers.write operand w <;> rfl
  | overwrite | setStackPointer | setProgramCounter | replaceRegisters => rfl
  | read | get | fetch => rfl
  | drive d => exact forget_drive d t

/-- Recorded observers change nothing but the list of calls. -/
theorem forget_performAll (ops : List (Operation σ)) (t : Session (σ × List Showing)) :
    (t.performAll (ops.map .recorded)).forget = t.forget.performAll ops := by
  induction ops generalizing t with
  | nil => rfl
  | cons op ops ih => rw [List.map_cons, performAll_cons, performAll_cons, ih, forget_perform]

end Session

end RegisterMachine
