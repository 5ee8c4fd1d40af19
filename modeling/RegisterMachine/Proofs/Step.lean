import RegisterMachine.Proofs.Successor
import RegisterMachine.Session

/-!
# Single steps

`StepOf` lists what a step of a running machine can do: it executes an instruction whose conditions
hold, it refuses one with a condition that fails, it cannot fetch, or it halts. A step is one of
these (`stepOf_step`), and everything else about steps is read off this list.

* `step_follows_table`: a step that executes an instruction leads to the successor of the reference
  table.
* `step_of_obstacle?_eq_none`: an instruction whose conditions hold is executed.
-/

namespace RegisterMachine

/-- The machine after an instruction, with the program counter still one instruction back. -/
def Machine.complete (m : Machine) (i : Instruction) : Machine :=
  { m with toConfig := (m.successor i).retreat, steps := m.steps + 1 }

namespace Session

variable {σ : Type}

def complete (o : Observer σ) (i : Instruction) (s : Session σ) : Session σ :=
  (present o i { s with machine := s.machine.complete i }).advance

theorem machine_complete (o : Observer σ) (i : Instruction) (s : Session σ) :
    (s.complete o i).machine =
      { s.machine with toConfig := s.machine.successor i, steps := s.machine.steps + 1 } := by
  simp only [complete, advance, machine_present, Machine.advance, Machine.complete,
    Config.advance_retreat]

theorem execute_eq (o : Observer σ) (i : Instruction) (s : Session σ) :
    s.execute o i =
      match s.machine.obstacle? i with
      | none => ⟨.ok .executed, s.complete o i⟩
      | some cause =>
        ⟨.error ⟨s.machine.registers.pc, cause⟩, s.fault ⟨s.machine.registers.pc, cause⟩⟩ := by
  unfold execute
  dsimp only
  rw [Execution.execute_apply]
  cases s.machine.obstacle? i <;> rfl

/-- What a step of a running machine can do. -/
inductive StepOf (o : Observer σ) (s : Session σ) : Outcome σ Step → Prop where
  | executed (i : Instruction) (hFetch : s.machine.fetch = .ok (.instruction i))
      (hChecks : s.machine.obstacle? i = none) :
      StepOf o s
        ⟨.ok .executed, (s.note (.executing s.machine.registers.pc i)).complete o i⟩
  | refused (i : Instruction) (cause : FaultCause)
      (hFetch : s.machine.fetch = .ok (.instruction i))
      (hChecks : s.machine.obstacle? i = some cause) :
      StepOf o s
        ⟨.error ⟨s.machine.registers.pc, cause⟩,
          (s.note (.executing s.machine.registers.pc i)).fault ⟨s.machine.registers.pc, cause⟩⟩
  | unfetched (f : Fault) (hFetch : s.machine.fetch = .error f) :
      StepOf o s ⟨.error f, s.fault f⟩
  | halted (opcode : Word) (hFetch : s.machine.fetch = .ok (.undefined opcode)) :
      StepOf o s
        ⟨.ok (.halted ⟨s.machine.registers.pc, opcode⟩),
          s.halt ⟨s.machine.registers.pc, opcode⟩⟩

theorem stepOf_step (o : Observer σ) {s : Session σ} (hRunning : s.machine.status = .running) :
    StepOf o s (s.step o) := by
  unfold step
  rw [hRunning]
  dsimp only
  cases hFetch : s.machine.fetch with
  | error f => exact .unfetched f hFetch
  | ok fetched =>
    cases fetched with
    | undefined opcode => exact .halted opcode hFetch
    | instruction i =>
      dsimp only
      rw [execute_eq]
      change StepOf o s (match s.machine.obstacle? i with | none => _ | some cause => _)
      cases hChecks : s.machine.obstacle? i with
      | none => exact .executed i hFetch hChecks
      | some cause => exact .refused i cause hFetch hChecks

theorem step_of_obstacle?_eq_none (o : Observer σ) {s : Session σ} {i : Instruction}
    (hRunning : s.machine.status = .running)
    (hFetch : s.machine.fetch = .ok (.instruction i)) (hChecks : s.machine.obstacle? i = none) :
    s.step o = ⟨.ok .executed, (s.note (.executing s.machine.registers.pc i)).complete o i⟩ := by
  unfold step
  rw [hRunning]
  dsimp only
  rw [hFetch]
  dsimp only
  rw [execute_eq]
  change (match s.machine.obstacle? i with | none => _ | some cause => _) = _
  rw [hChecks]

/-- A step that executes an instruction leads to the successor of the reference table, whatever
registers the operands name. -/
theorem step_follows_table (o : Observer σ) {s t : Session σ} {i : Instruction}
    (hRunning : s.machine.status = .running)
    (hWords : s.machine.memory.slice s.machine.registers.pc.toNat 4 = i.encode)
    (hStep : s.step o = ⟨.ok .executed, t⟩) :
    t.machine =
      { toConfig := s.machine.successor i, steps := s.machine.steps + 1, status := .running } := by
  have hFetch : s.machine.fetch = .ok (.instruction i) := Config.fetch_of_slice hWords
  have hCase := stepOf_step o hRunning
  rw [hStep] at hCase
  cases hCase with
  | executed j hFetch' hChecks =>
    rw [hFetch] at hFetch'
    cases hFetch'
    rw [machine_complete, ← hRunning]
    rfl

/-- The sum of the program counter and the stack pointer, put into the program counter. -/
theorem step_follows_table_add_pc :
    let i : Instruction := ⟨.add, 15, 15, 14⟩
    let s : Session Unit :=
      { machine := .boot (Memory.zero.poke 0 i.encode), watch := (), log := { threshold := none } }
    s.machine.memory.slice s.machine.registers.pc.toNat 4 = i.encode ∧
      (s.step .idle).answer = .ok .executed ∧
      (s.step .idle).session.machine =
        { toConfig := s.machine.successor i, steps := 1, status := .running } ∧
      (s.machine.successor i).registers.pc = 3 := by
  intro i s
  have hWords : s.machine.memory.slice s.machine.registers.pc.toNat 4 = i.encode :=
    Memory.slice_poke Memory.zero (by decide)
  have hStep := step_of_obstacle?_eq_none .idle rfl (Config.fetch_of_slice hWords) rfl
  refine ⟨hWords, ?_, ?_, ?_⟩
  · rw [hStep]
  · rw [hStep]
    exact step_follows_table .idle rfl hWords hStep
  · decide

end Session

end RegisterMachine
