import RegisterMachine.Proofs.BoundedRun
import RegisterMachine.Proofs.Schedules

/-!
# Operations on a machine

A machine that has been built can be loaded, read, written and looked at from outside, and it can be
driven: stepped, run, or run with a budget. An `Operation` is any of these, and a sequence of them
is `performAll`.

* `drive_of_step`, `performAll_of_perform`: what every step keeps, every way to drive a machine
  keeps, and what every operation keeps, every sequence of operations keeps.
* `drive_of_stopped`: driving a stopped machine does nothing at all.
* `stopped_machines_stay_stopped`: the status of a stopped machine is final, and that of a running
  machine changes only by driving it.
-/

namespace RegisterMachine

/-- A way to let a machine work, with the observer that looks on. -/
inductive Drive (σ : Type) where
  | step (o : Observer σ)
  | run (o : Observer σ)
  | runFor (o : Observer σ) (budget : Nat)

/-- The observer that looks on. -/
def Drive.observer {σ : Type} : Drive σ → Observer σ
  | .step o | .run o | .runFor o _ => o

/-- What can be done with a machine once it is built. The observers of all drives share one state,
in which each of them may have a part of its own. -/
inductive Operation (σ : Type) where
  | load (image : ByteArray)
  /-- Memory is written past all checks, at as many addresses as there are. -/
  | overwrite (memory : Memory)
  | read (x : Word)
  | write (x w : Word)
  | get (operand : Word)
  | set (operand w : Word)
  | setStackPointer (w : Word)
  | setProgramCounter (w : Word)
  | replaceRegisters (regs : Registers)
  | fetch
  | drive (d : Drive σ)

/-- The error of a computation that fails. -/
def error? {ε α : Type} : Except ε α → Option ε
  | .ok _ => none
  | .error e => some e

theorem error?_eq_some_iff {ε α : Type} {x : Except ε α} {e : ε} :
    error? x = some e ↔ x = .error e := by
  cases x <;> simp [error?]

theorem error?_bind_pure {ε α β : Type} (x : Except ε α) (f : α → β) :
    error? (do let a ← x; return f a) = error? x := by
  cases x <;> rfl

/-- The status of a machine that has stopped with a halt or a fault. -/
def Status.stopped : Except Fault Halt → Status
  | .ok h => .halted h
  | .error f => .faulted f

namespace Session

variable {σ : Type} {o : Observer σ} {s t : Session σ}

/-- Puts other contents into registers and memory. -/
def edit (s : Session σ) (c : Config) : Session σ :=
  { s with machine.toConfig := c }

def drive (s : Session σ) : Drive σ → Session σ
  | .step o => (s.step o).session
  | .run o => (s.run o).session
  | .runFor o budget => (s.runFor o budget).session

/-- The session after an operation. One that is refused leaves it as it was. -/
def perform (s : Session σ) : Operation σ → Session σ
  | .load image =>
    match s.load image with
    | .ok (_, t) => t
    | .error _ => s
  | .overwrite memory => s.edit { s.machine.toConfig with memory }
  | .read _ => s
  | .write x w =>
    match s.machine.memory.write x.toNat w with
    | .ok memory => s.edit { s.machine.toConfig with memory }
    | .error _ => s
  | .get _ => s
  | .set operand w =>
    match s.machine.registers.write operand w with
    | .ok registers => s.edit { s.machine.toConfig with registers }
    | .error _ => s
  | .setStackPointer w => s.edit { s.machine.toConfig with registers := s.machine.registers.set .sp w }
  | .setProgramCounter w => s.edit { s.machine.toConfig with registers := s.machine.registers.set .pc w }
  | .replaceRegisters registers => s.edit { s.machine.toConfig with registers }
  | .fetch => s
  | .drive d => s.drive d

def performAll (s : Session σ) (ops : List (Operation σ)) : Session σ :=
  ops.foldl perform s

/-- The fault that a drive reports. -/
def fault? (s : Session σ) : Drive σ → Option Fault
  | .step o => error? (s.step o).answer
  | .run o => error? (s.run o).answer
  | .runFor o budget => error? (s.runFor o budget).answer

/-- The cause that an operation reports when it fails. An image that is too large has none. -/
def complaint? (s : Session σ) : Operation σ → Option FaultCause
  | .read x => error? (s.machine.memory.read x.toNat)
  | .write x w => error? (s.machine.memory.write x.toNat w)
  | .get operand => error? (s.machine.registers.read operand)
  | .set operand w => error? (s.machine.registers.write operand w)
  | .fetch => (error? s.machine.fetch).map Fault.cause
  | .drive d => (s.fault? d).map Fault.cause
  | .load _ | .overwrite _ | .setStackPointer _ | .setProgramCounter _ | .replaceRegisters _ => none

theorem performAll_cons (op : Operation σ) (ops : List (Operation σ)) :
    s.performAll (op :: ops) = (s.perform op).performAll ops :=
  rfl

theorem step_eq_of_answer {answer : Except Fault Step} (h : (s.step o).answer = answer) :
    s.step o = ⟨answer, (s.step o).session⟩ := by
  rw [← h]

/-! ## What is kept -/

theorem after_of_step {P : Session σ → Prop} (hStep : ∀ s, P s → P (s.step o).session)
    {k : Nat} (hAfter : s.after o k = some t) (h : P s) : P t := by
  induction k generalizing s with
  | zero =>
    cases hAfter
    exact h
  | succ k ih =>
    obtain ⟨u, hExecuted, hRest⟩ := after_succ_eq_some_iff.mp hAfter
    have hNext := hStep s h
    rw [hExecuted] at hNext
    exact ih hRest hNext

/-- What every step keeps, every drive keeps: it is a number of steps, of which all but the last
execute instructions. -/
theorem drive_of_step {P : Session σ → Prop} (d : Drive σ)
    (hStep : ∀ s, P s → P (s.step d.observer).session) (h : P s) : P (s.drive d) := by
  cases d with
  | step o => exact hStep s h
  | run o =>
    have hRun : RunOf o (maxSteps + 1) s (s.run o) := runOf_runTo ..
    change P (s.run o).session
    generalize s.run o = outcome at hRun ⊢
    cases hRun with
    | exhausted t hAfter => exact after_of_step hStep hAfter h
    | halted k t _ u hAfter _ hLast | faulted k t _ u hAfter _ hLast =>
      have hEnd : P (t.step o).session := hStep t (after_of_step hStep hAfter h)
      rwa [hLast] at hEnd
  | runFor o budget =>
    change P (s.runFor o budget).session
    obtain ⟨k, t, hAfter, -, -, hSession | hSession⟩ := session_runFor o budget s
    · rw [hSession]
      exact after_of_step hStep hAfter h
    · rw [hSession]
      exact hStep t (after_of_step hStep hAfter h)

theorem performAll_of_perform {P : Session σ → Prop} (hPerform : ∀ s op, P s → P (s.perform op))
    (ops : List (Operation σ)) (h : P s) : P (s.performAll ops) := by
  induction ops generalizing s with
  | nil => exact h
  | cons op ops ih =>
    rw [performAll_cons]
    exact ih (hPerform s op h)

theorem load_eq_ok_iff {image : ByteArray} {words : Nat} :
    s.load image = .ok (words, t) ↔ ∃ memory, s.machine.memory.load image = .ok (words, memory) ∧
      t = (s.edit { s.machine.toConfig with memory }).note (.loaded words) := by
  unfold load Machine.load
  cases s.machine.memory.load image with
  | error e => simp [bind, Except.bind]
  | ok written =>
    obtain ⟨n, memory⟩ := written
    constructor
    · rintro ⟨⟩
      exact ⟨memory, rfl, rfl⟩
    · rintro ⟨_, ⟨⟩, rfl⟩
      rfl

/-- Beside driving the machine an operation can only edit it, and a load is noted. -/
theorem perform_of_edit {P : Session σ → Prop} (hEdit : ∀ s c, P s → P (s.edit c))
    (hLoaded : ∀ s words, P s → P (s.note (.loaded words))) (op : Operation σ)
    (hDrive : ∀ d, op = .drive d → P (s.drive d)) (h : P s) : P (s.perform op) := by
  cases op with
  | load image =>
    unfold perform
    dsimp only
    split
    · next words t hLoad =>
      obtain ⟨memory, -, rfl⟩ := load_eq_ok_iff.mp hLoad
      exact hLoaded _ _ (hEdit _ _ h)
    · exact h
  | write x w | set operand w =>
    unfold perform
    dsimp only
    split
    · exact hEdit _ _ h
    · exact h
  | overwrite memory => exact hEdit _ _ h
  | setStackPointer w | setProgramCounter w | replaceRegisters registers => exact hEdit _ _ h
  | read x | get operand | fetch => exact h
  | drive d => exact hDrive d rfl

/-! ## Stopped machines -/

variable {stop : Except Fault Halt}

theorem step_of_stopped (hStatus : s.machine.status = .stopped stop) :
    s.step o = ⟨stop.map .halted, s⟩ := by
  cases stop with
  | ok h => exact step_of_status_halted hStatus
  | error f => exact step_of_status_faulted hStatus

theorem runFor_of_stopped (hStatus : s.machine.status = .stopped stop) (n : Nat) :
    s.runFor o n = ⟨stop.map some, s⟩ := by
  cases stop with
  | ok h => exact runFor_of_status_halted hStatus n
  | error f => exact runFor_of_status_faulted hStatus n

theorem run_of_stopped (hStatus : s.machine.status = .stopped stop)
    (hSteps : s.machine.steps ≤ maxSteps) : s.run o = ⟨stop.map some, s⟩ := by
  have hLimit : s.machine.steps < maxSteps + 1 := Nat.lt_succ_of_le hSteps
  cases stop with
  | ok h => exact runTo_of_halted hLimit (step_of_status_halted hStatus)
  | error f => exact runTo_of_error hLimit (step_of_status_faulted hStatus)

/-- To drive a stopped machine does nothing, whatever is in its registers and in memory. -/
theorem drive_of_stopped (hStatus : s.machine.status = .stopped stop) (d : Drive σ) :
    s.drive d = s := by
  refine drive_of_step (P := (· = s)) d ?_ rfl
  rintro _ rfl
  rw [step_of_stopped hStatus]

theorem stopped_performAll (ops : List (Operation σ)) (hStatus : s.machine.status = .stopped stop) :
    (s.performAll ops).machine.status = .stopped stop ∧
      (s.performAll ops).machine.steps = s.machine.steps := by
  refine performAll_of_perform (P := fun t =>
    t.machine.status = .stopped stop ∧ t.machine.steps = s.machine.steps) ?_ ops ⟨hStatus, rfl⟩
  intro t op h
  refine perform_of_edit (P := fun u =>
    u.machine.status = .stopped stop ∧ u.machine.steps = s.machine.steps)
    (fun _ _ h => h) (fun _ _ h => h) op (fun d _ => ?_) h
  rw [drive_of_stopped h.1]
  exact h

/-- A fault that is reported is the status that the machine is left with. -/
theorem status_of_fault? {d : Drive σ} {f : Fault} (h : s.fault? d = some f) :
    (s.drive d).machine.status = .faulted f := by
  cases d with
  | step o =>
    have hAnswer : (s.step o).answer = .error f := error?_eq_some_iff.mp h
    exact status_of_step_error (step_eq_of_answer hAnswer)
  | run o =>
    have hAnswer : (s.run o).answer = .error f := error?_eq_some_iff.mp h
    have hRun : RunOf o (maxSteps + 1) s (s.run o) := runOf_runTo ..
    change (s.run o).session.machine.status = _
    generalize s.run o = outcome at hRun hAnswer ⊢
    cases hRun with
    | faulted k t f u hAfter hLimit hStep =>
      cases hAnswer
      exact status_of_step_error hStep
    | exhausted | halted => cases hAnswer
  | runFor o n =>
    have hAnswer : (s.runFor o n).answer = .error f := error?_eq_some_iff.mp h
    change (s.runFor o n).session.machine.status = _
    cases hStatus : s.machine.status with
    | running => rw [status_runFor hStatus, hAnswer, Status.ofAnswer]
    | halted h =>
      rw [runFor_of_status_halted hStatus] at hAnswer
      cases hAnswer
    | faulted g =>
      rw [runFor_of_status_faulted hStatus] at hAnswer ⊢
      cases hAnswer
      exact hStatus

/-- The status of a machine that has stopped is final, and the machine answers with it whenever it
is driven and does nothing else. The status of a running machine changes only by driving it. -/
theorem stopped_machines_stay_stopped (s : Session σ) :
    (∀ stop, s.machine.status = .stopped stop → ∀ ops,
      let t := s.performAll ops
      t.machine.status = .stopped stop ∧
        ∀ o : Observer σ, t.step o = ⟨stop.map .halted, t⟩ ∧
          (s.machine.steps ≤ maxSteps → t.run o = ⟨stop.map some, t⟩) ∧
          ∀ n, t.runFor o n = ⟨stop.map some, t⟩) ∧
      ∀ op, (∀ d, op ≠ .drive d) → (s.perform op).machine.status = s.machine.status := by
  refine ⟨fun stop hStatus ops => ?_, fun op hOther => ?_⟩
  · obtain ⟨hStopped, hCount⟩ := stopped_performAll ops hStatus
    refine ⟨hStopped, fun o => ⟨step_of_stopped hStopped, fun hSteps => ?_,
      runFor_of_stopped hStopped⟩⟩
    rw [← hCount] at hSteps
    exact run_of_stopped hStopped hSteps
  · exact perform_of_edit (P := fun t => t.machine.status = s.machine.status)
      (fun _ _ h => h) (fun _ _ h => h) op (fun d hDrive => absurd hDrive (hOther d)) rfl

/-- A machine that has stopped at a register that does not exist. Its instruction is mended,
its program counter is moved and its registers are reset, and it still does not run. -/
theorem stopped_machines_stay_stopped_mended :
    let counter : Observer Nat := ⟨fun _ _ n => (n + 1, none)⟩
    let m : Machine := .boot (Memory.zero.poke 0 (Instruction.encode ⟨.push, 99, 0, 0⟩))
    let s : Session Nat :=
      (({ machine := m, watch := 0, log := { threshold := some .trace } } : Session Nat).step
        counter).session
    let t := s.performAll
      [.drive (.run counter), .write 1 0, .setProgramCounter 4, .replaceRegisters .initial]
    let f : Fault := ⟨0, .noRegister 99⟩
    s.machine.steps ≤ maxSteps ∧ s.machine.status = .stopped (.error f) ∧
      t.machine.registers = .initial ∧ t.machine.status = .stopped (.error f) ∧
      t.run counter = ⟨.error f, t⟩ ∧ t.runFor counter 0 = ⟨.error f, t⟩ := by
  intro counter m s t f
  have hSteps : s.machine.steps ≤ maxSteps := Nat.zero_le _
  have hStatus : s.machine.status = .stopped (.error f) := rfl
  obtain ⟨hStays, -⟩ := stopped_machines_stay_stopped s
  obtain ⟨hStopped, hAnswers⟩ := hStays _ hStatus
    [.drive (.run counter), .write 1 0, .setProgramCounter 4, .replaceRegisters .initial]
  obtain ⟨-, hRun, hRunFor⟩ := hAnswers counter
  exact ⟨hSteps, hStatus, rfl, hStopped, hRun hSteps, hRunFor 0⟩

end Session

end RegisterMachine
