import RegisterMachine.Proofs.Budgets

/-!
# Faults and what they leave behind

An instruction works in place, and what it has written stays written if it faults afterwards. It
never does: all conditions are tested before the first write that could be left behind. `push` and
`pop` test and write in turn, so they are split at the write in question: `reserve` ends when the
stack pointer has moved, `take` when the register has been written, and what is left cannot fault.

* `execute_error_unchanged`: an instruction that faults leaves the configuration as it was.
* `push_of_reserve`, `pop_of_take`: nothing faults after the split.
* `faults_are_atomic`: a fault of a step, or at the end of a run, changes the status and nothing
  else.
-/

namespace RegisterMachine

namespace Execution

variable {c d : Config}

theorem execute_error_unchanged {i : Instruction} {cause : FaultCause}
    (h : i.execute c = .error cause d) : d = c := by
  rw [execute_apply] at h
  cases hChecks : c.obstacle? i with
  | none =>
    rw [hChecks] at h
    cases h
  | some cause' =>
    rw [hChecks] at h
    cases h
    rfl

/-! ## Pushing -/

/-- Pushing up to and including the move of the stack pointer. -/
def reserve (operand : Word) : Execution Word := do
  let sp := (← stackPointer) - 1
  let _ ← readRegister operand
  faultIf (Memory.capacity ≤ sp.toNat) (.outsideMemory sp.toNat)
  setRegister .sp sp
  return sp

/-- Pushing from the move of the stack pointer on. -/
def fill (operand sp : Word) : Execution Unit := do
  let w ← readRegister operand
  writeMemory sp.toNat w

theorem push_eq (operand : Word) : push operand = reserve operand >>= fill operand := by
  simp only [push, reserve, fill, bind_assoc, pure_bind]

theorem reserve_apply (operand : Word) (c : Config) :
    reserve operand c =
      (Check.register operand).guard c ((Check.address (c.registers.sp - 1)).guard c
        (.ok (c.registers.sp - 1) (c.setRegister 14 (c.registers.sp - 1)))) := by
  unfold reserve
  rw [bind_of_ok (stackPointer_apply ..), bind_of_guard (readRegister_apply ..),
    bind_of_guard (faultIf_outside_apply ..), bind_of_ok (setRegister_apply ..),
    ← Config.setRegister_sp]
  rfl

theorem fill_apply (operand sp : Word) (c : Config) :
    fill operand sp c = (Check.register operand).guard c ((Check.address sp).guard c
      (.ok () (c.setWord sp (c.register operand)))) := by
  rw [fill, bind_of_guard (readRegister_apply ..), writeMemory_apply]

/-- What `reserve` has tested holds for `fill`. -/
theorem push_of_reserve {operand sp : Word} (h : reserve operand c = .ok sp d) :
    sp = c.registers.sp - 1 ∧ d = c.setRegister 14 sp ∧ ∃ e, fill operand sp d = .ok () e := by
  simp only [reserve_apply, Check.guard_eq_ok_iff] at h
  obtain ⟨hRegister, hAddress, hEnd⟩ := h
  cases hEnd
  have hFill := fill_apply operand (c.registers.sp - 1) (c.setRegister 14 (c.registers.sp - 1))
  rw [Check.guard_of_holds hRegister, Check.guard_of_holds hAddress] at hFill
  exact ⟨rfl, rfl, _, hFill⟩

/-! ## Popping -/

/-- Popping up to and including the write of the register. -/
def take (operand : Word) : Execution Unit := do
  let top ← readMemory (← stackPointer).toNat
  writeRegister operand top

/-- Popping from the write of the register on. -/
def release : Execution Unit := do
  setRegister .sp ((← stackPointer) + 1)

theorem pop_eq (operand : Word) : pop operand = take operand >>= fun _ => release := by
  simp only [pop, take, release, bind_assoc]

theorem pop_of_take {operand : Word} (h : take operand c = .ok () d) :
    d = c.setRegister operand (c.word c.registers.sp) ∧ ∃ e, release d = .ok () e := by
  refine ⟨?_, _, rfl⟩
  rw [take, bind_of_ok (stackPointer_apply ..), bind_of_guard (readMemory_apply ..),
    writeRegister_apply] at h
  simp only [Check.guard_eq_ok_iff] at h
  obtain ⟨-, -, hEnd⟩ := h
  cases hEnd
  rfl

end Execution

namespace Session

variable {σ : Type} {o : Observer σ} {s t : Session σ} {f : Fault}

/-! ## Steps and runs -/

/-- A session has come to a fault at its next instruction, which changes the status of its machine,
but nothing else in it, and is not shown to the observer. -/
structure FaultsAt (s : Session σ) (f : Fault) (t : Session σ) : Prop where
  machine : t.machine = { s.machine with status := .faulted f }
  watch : t.watch = s.watch
  pc : f.pc = s.machine.registers.pc

theorem faultsAt_of_step_error (hRunning : s.machine.status = .running)
    (hStep : s.step o = ⟨.error f, t⟩) : FaultsAt s f t := by
  obtain ⟨hMachine, hWatch⟩ := machine_of_step_error hStep
  refine ⟨hMachine, hWatch, ?_⟩
  have hCase := stepOf_step o hRunning
  rw [hStep] at hCase
  cases hCase with
  | refused i cause => rfl
  | unfetched f hFetch => exact Config.pc_of_fetch_error hFetch

/-- A session has come to a fault after some instructions. -/
def FaultsAfter (o : Observer σ) (s : Session σ) (f : Fault) (t : Session σ) : Prop :=
  ∃ k u, s.after o k = some u ∧ u.step o = ⟨.error f, t⟩ ∧ FaultsAt u f t

theorem faultsAfter_of_after {k : Nat} {u : Session σ} (hRunning : s.machine.status = .running)
    (hAfter : s.after o k = some u) (hStep : u.step o = ⟨.error f, t⟩) : FaultsAfter o s f t :=
  ⟨k, u, hAfter, hStep, faultsAt_of_step_error (status_of_after hRunning hAfter) hStep⟩

theorem faultsAfter_of_runTo_error {limit : Nat} (hRunning : s.machine.status = .running)
    (hRun : s.runTo o limit = ⟨.error f, t⟩) : FaultsAfter o s f t := by
  have hCase := runOf_runTo o limit s
  rw [hRun] at hCase
  cases hCase with
  | faulted k u f t hAfter hLimit hStep => exact faultsAfter_of_after hRunning hAfter hStep

theorem faultsAfter_of_runFor_error {n : Nat} (hRunning : s.machine.status = .running)
    (hRun : s.runFor o n = ⟨.error f, t⟩) : FaultsAfter o s f t := by
  have hCase := runForOf_runFor o n hRunning
  rw [hRun] at hCase
  cases hCase with
  | faulted k u f t hAfter hBudget hStep => exact faultsAfter_of_after hRunning hAfter hStep

open Execution in
/-- A fault changes the status of the machine and nothing else, wherever the instruction that faults
is in its work. -/
theorem faults_are_atomic (o : Observer σ) (hRunning : s.machine.status = .running) :
    (∀ f t, s.step o = ⟨.error f, t⟩ → FaultsAt s f t) ∧
      (∀ f t, s.run o = ⟨.error f, t⟩ → FaultsAfter o s f t) ∧
      (∀ n f t, s.runFor o n = ⟨.error f, t⟩ → FaultsAfter o s f t) ∧
      (∀ (i : Instruction) c cause d, i.execute c = .error cause d → d = c) ∧
      (∀ a, push a = reserve a >>= fill a ∧ ∀ c sp d, reserve a c = .ok sp d →
        sp = c.registers.sp - 1 ∧ d = c.setRegister 14 sp ∧ ∃ e, fill a sp d = .ok () e) ∧
      ∀ a, pop a = (take a >>= fun _ => release) ∧ ∀ c d, take a c = .ok () d →
        d = c.setRegister a (c.word c.registers.sp) ∧ ∃ e, release d = .ok () e := by
  refine ⟨fun f t => faultsAt_of_step_error hRunning,
    fun f t => faultsAfter_of_runTo_error hRunning,
    fun n f t => faultsAfter_of_runFor_error hRunning,
    fun i c cause d => execute_error_unchanged,
    fun a => ⟨push_eq a, fun c sp d => push_of_reserve⟩,
    fun a => ⟨pop_eq a, fun c d => pop_of_take⟩⟩

/-- A machine that pops off an empty stack after one instruction. -/
theorem faults_are_atomic_pop :
    let m : Machine := .boot (Memory.zero.poke 0
      (Instruction.encode ⟨.constant, 0, 7, 0⟩ ++ Instruction.encode ⟨.pop, 0, 0, 0⟩))
    let s : Session Unit := { machine := m, watch := (), log := { threshold := none } }
    s.machine.status = .running ∧ ∃ u t f, s.runFor .idle 5 = ⟨.error f, t⟩ ∧
      s.after .idle 1 = some u ∧ u.step .idle = ⟨.error f, t⟩ ∧ FaultsAt u f t ∧
      FaultsAfter .idle s f t ∧ f = ⟨4, .outsideMemory 65535⟩ := by
  intro m s
  obtain ⟨u, t, hFirst, hPop⟩ : ∃ u t, s.step .idle = ⟨.ok .executed, u⟩ ∧
      u.step .idle = ⟨.error ⟨4, .outsideMemory 65535⟩, t⟩ :=
    ⟨_, _, rfl, rfl⟩
  have hAfter : s.after .idle 1 = some u := after_succ_of_executed hFirst 0
  have hRun : s.runFor .idle 5 = _ := runFor_of_error hAfter (by decide) hPop
  obtain ⟨hStep, -⟩ := faults_are_atomic .idle (status_of_step_executed hFirst).2
  obtain ⟨-, -, hRunFor, -⟩ := faults_are_atomic .idle (status_of_step_executed hFirst).1
  exact ⟨rfl, u, t, _, hRun, hAfter, hPop, hStep _ _ hPop, hRunFor 5 _ _ hRun, rfl⟩

end Session

end RegisterMachine
