import RegisterMachine.Proofs.Determinism

/-!
# Checkpoints

A checkpoint of a machine is a new machine around a copy of its memory whose registers have been set
to those of the machine. It has counted no steps and it runs, whatever has become of the machine.

* `machine_checkpoint`: setting the registers one by one gives the configuration of the machine.
* `repeats_of_arrives`: two machines of one configuration do the same.
* `justified_step`: a machine that has stopped has the status that its configuration calls for,
  because stopping changes nothing else.
* `checkpoints_replay`: a checkpoint of a running machine goes on as the machine does, and a
  checkpoint of a stopped one stops again at once.
-/

namespace RegisterMachine

/-- Does an operation change registers or memory from outside? -/
def Operation.modifies {σ : Type} : Operation σ → Bool
  | .read _ | .get _ | .fetch | .drive _ => false
  | .load _ | .overwrite _ | .write _ _ | .set _ _ | .setStackPointer _ | .setProgramCounter _
  | .replaceRegisters _ => true

/-- The status of a machine, if it has stopped, is what its configuration calls for. -/
def Machine.Justified (m : Machine) : Prop :=
  ∀ stop, m.status = .stopped stop → m.verdict = stop.map .halted

namespace Session

variable {σ τ α : Type} {o : Observer σ} {o' : Observer τ} {s : Session σ} {s' : Session τ}

/-- A new machine around the memory of another, with all its registers set to the same words. -/
def checkpoint (s : Session σ) (watch : τ) : Session τ :=
  let new : Session τ :=
    { machine := .boot s.machine.memory, watch, log := { threshold := s.log.threshold } }
  new.performAll ((List.finRange 16).map fun r => .set (.ofNat r.val) (s.machine.registers.get r))

/-! ## Taking a checkpoint -/

theorem perform_set (s : Session σ) (r : Register) (w : Word) :
    s.perform (.set (.ofNat r.val) w) =
      s.edit { s.machine.toConfig with registers := s.machine.registers.set r w } := by
  have hWord : (UInt16.ofNat r.val).toNat = r.val := by
    rw [UInt16.toNat_ofNat', Nat.mod_eq_of_lt (Nat.lt_trans r.isLt (by decide))]
  have hIndex : (UInt16.ofNat r.val).toNat < 16 := by
    rw [hWord]
    exact r.isLt
  have hWrite : s.machine.registers.write (.ofNat r.val) w = .ok (s.machine.registers.set r w) := by
    rw [Registers.write_of_lt _ hIndex]
    congr 3
  rw [perform, hWrite]

/-- Setting registers one by one changes the register file and nothing else. -/
theorem performAll_set (rs : List Register) (f : Register → Word) (s : Session σ) :
    s.performAll (rs.map fun r => .set (.ofNat r.val) (f r)) =
      s.edit { s.machine.toConfig with
        registers := rs.foldl (fun regs r => regs.set r (f r)) s.machine.registers } := by
  induction rs generalizing s with
  | nil => rfl
  | cons r rs ih =>
    rw [List.map_cons, performAll_cons, ih, perform_set]
    rfl

theorem get_foldl_set (rs : List Register) (f : Register → Word) (regs : Registers)
    (q : Register) :
    (rs.foldl (fun regs r => regs.set r (f r)) regs).get q =
      if q ∈ rs then f q else regs.get q := by
  induction rs generalizing regs with
  | nil => simp
  | cons r rs ih =>
    rw [List.foldl_cons, ih, Registers.get_set]
    by_cases hRest : q ∈ rs
    · simp [hRest]
    · by_cases hFirst : r = q
      · simp [hFirst]
      · simp [hRest, hFirst, Ne.symm hFirst]

/-- A checkpoint has the configuration of the machine and nothing else of it. -/
theorem machine_checkpoint (s : Session σ) (watch : τ) :
    (s.checkpoint watch).machine = { toConfig := s.machine.toConfig } ∧
      (s.checkpoint watch).watch = watch ∧
      (s.checkpoint watch).log = { threshold := s.log.threshold } := by
  unfold checkpoint
  dsimp only
  rw [performAll_set]
  refine ⟨?_, rfl, rfl⟩
  have hRegisters : (List.finRange 16).foldl
      (fun regs r => regs.set r (s.machine.registers.get r)) Registers.initial =
        s.machine.registers := by
    ext q
    rw [get_foldl_set, if_pos (List.mem_finRange q)]
  change ({ registers := _, memory := s.machine.memory } : Machine) = _
  rw [show (Machine.boot s.machine.memory).registers = Registers.initial from rfl, hRegisters]

/-! ## Going on from a checkpoint -/

/-- Two calls answer the same and leave machines of one configuration, which have gone on in step
and have noted the same details. -/
structure Repeats (s : Session σ) (s' : Session τ) (call : Outcome σ α) (call' : Outcome τ α) :
    Prop extends InStep s call.session s' call'.session where
  answer : call'.answer = call.answer
  config : call'.session.machine.toConfig = call.session.machine.toConfig
  noted : s'.log.detailsSince call'.session.log = s.log.detailsSince call.session.log

theorem repeats_of_arrives {call : Outcome σ α} {call' : Outcome τ α} {k : Nat} {stopped : Bool}
    (hConfig : s'.machine.toConfig = s.machine.toConfig)
    (hThreshold : s'.log.threshold = s.log.threshold) (hAnswer : call'.answer = call.answer)
    (h : Arrives s k stopped call.session) (h' : Arrives s' k stopped call'.session) :
    Repeats s s' call call' := by
  have hInStep : InStep s call.session s' call'.session := by
    refine inStep_of_arrives ?_ (fun _ => ?_) (fun _ => ?_) h h'
    · rw [hConfig]
    · rw [hConfig]
    · rw [hConfig]
  refine ⟨hInStep, hAnswer, ?_, hInStep.detailsSince_eq hThreshold⟩
  rw [h'.config, hConfig, h.config]

/-! ## Stopping again at a checkpoint -/

/-- A step keeps the status of a machine justified: it stops the machine without changing anything
that has led to this. -/
theorem justified_step (s : Session σ) (o : Observer σ) (h : s.machine.Justified) :
    (s.step o).session.machine.Justified := by
  obtain hRunning | ⟨stop, hStopped⟩ := s.machine.status.eq_running_or_stopped
  · intro stop hStop
    rw [status_step o hRunning, Status.ofStep_eq_stopped_iff] at hStop
    obtain ⟨hKept, -⟩ :=
      machine_of_step_stopped (answer_ne_executed ((answer_step o hRunning).trans hStop))
    rw [hKept]
    exact hStop
  · rw [step_of_stopped hStopped]
    exact h

theorem justified_of_unmodified {ops : List (Operation σ)} (hOps : ∀ op ∈ ops, op.modifies = false)
    (h : s.machine.Justified) : (s.performAll ops).machine.Justified := by
  induction ops generalizing s with
  | nil => exact h
  | cons op ops ih =>
    rw [performAll_cons]
    refine ih (fun op hMem => hOps op (List.mem_cons_of_mem _ hMem)) ?_
    have hOp := hOps op List.mem_cons_self
    cases op with
    | drive d =>
      exact drive_of_step (P := fun t => t.machine.Justified) d (fun s => justified_step s _) h
    | read | get | fetch => exact h
    | load | overwrite | write | set | setStackPointer | setProgramCounter | replaceRegisters =>
      cases hOp

/-- A checkpoint of a running machine does what the machine does, whoever looks on. If the machine
is stopped by its own work and left alone after that, a checkpoint of it reports the same halt or
fault at its first step, and executes nothing. -/
theorem checkpoints_replay (hRunning : s.machine.status = .running) (o : Observer σ)
    (o' : Observer τ) (watch : τ) :
    let s' := s.checkpoint watch
    (Repeats s s' (s.step o) (s'.step o') ∧
        (∀ n, s.machine.steps + n < UInt64.size → Repeats s s' (s.runFor o n) (s'.runFor o' n)) ∧
        ((s.run o).answer ≠ .ok none → Repeats s s' (s.run o) (s'.run o'))) ∧
      ∀ ops : List (Operation σ), (∀ op ∈ ops, op.modifies = false) →
        let t := s.performAll ops
        let t' := t.checkpoint watch
        ∀ stop, t.machine.status = .stopped stop →
          (t'.step o').answer = stop.map .halted ∧
          (t'.step o').session.machine =
            { toConfig := t.machine.toConfig, steps := 0, status := .stopped stop } ∧
          (t'.step o').session.watch = watch := by
  intro s'
  refine ⟨?_, fun ops hOps => ?_⟩
  · obtain ⟨hMachine, -, hLog⟩ := machine_checkpoint s watch
    change s'.machine = _ at hMachine
    change s'.log = _ at hLog
    have hConfig : s'.machine.toConfig = s.machine.toConfig := by rw [hMachine]
    have hThreshold : s'.log.threshold = s.log.threshold := by rw [hLog]
    have hRunning' : s'.machine.status = .running := by rw [hMachine]
    have hSteps' : s'.machine.steps = 0 := by rw [hMachine]
    refine ⟨?_, fun n hSteps => ?_, fun hStops => ?_⟩
    · have hStep := arrives_steps o 1 hRunning
      have hStep' := arrives_steps o' 1 hRunning'
      rw [hConfig] at hStep'
      refine repeats_of_arrives hConfig hThreshold ?_ hStep hStep'
      rw [answer_step o hRunning, answer_step o' hRunning', hConfig]
    · obtain ⟨hAnswer, hRun⟩ := arrives_runFor o hRunning hSteps
      obtain ⟨hAnswer', hRun'⟩ := arrives_runFor (n := n) o' hRunning' (by omega)
      rw [hConfig] at hAnswer' hRun'
      exact repeats_of_arrives hConfig hThreshold (hAnswer'.trans hAnswer.symm) hRun hRun'
    · obtain ⟨k, hLength, hEnd, hSteps⟩ := exists_stop_of_run hRunning hStops
      obtain ⟨hAnswer, hRun⟩ := arrives_run o hRunning hLength hEnd hSteps
      rw [← hConfig] at hLength hEnd
      obtain ⟨hAnswer', hRun'⟩ := arrives_run o' hRunning' hLength hEnd (by omega)
      rw [hConfig] at hAnswer'
      exact repeats_of_arrives hConfig hThreshold (hAnswer'.trans hAnswer.symm) hRun hRun'
  · intro t t' stop hStop
    obtain ⟨hMachine, hWatch, -⟩ := machine_checkpoint t watch
    change t'.machine = _ at hMachine
    change t'.watch = _ at hWatch
    have hStart : s.machine.Justified := by
      intro stop hStatus
      rw [hRunning] at hStatus
      cases stop <;> cases hStatus
    have hVerdict : t.machine.verdict = stop.map .halted :=
      justified_of_unmodified hOps hStart stop hStop
    have hAnswer : (t'.step o').answer = stop.map .halted := by
      rw [answer_step o' (by rw [hMachine]), hMachine]
      exact hVerdict
    obtain ⟨hKept, hUnseen⟩ := machine_of_step_stopped (answer_ne_executed hAnswer)
    refine ⟨hAnswer, ?_, hUnseen.trans hWatch⟩
    rw [hKept, status_step o' (by rw [hMachine]), hMachine]
    change ({ toConfig := _, steps := 0, status := Status.ofStep t.machine.verdict } : Machine) = _
    rw [Status.ofStep_eq_stopped_iff.mpr hVerdict]

/-- A machine that has pushed a word and is going to pop two. Its checkpoint faults as it does, and
so does a checkpoint that is taken after the fault. -/
theorem checkpoints_replay_second_pop :
    let pop : Instruction := ⟨.pop, 3, 0, 0⟩
    let memory :=
      Memory.zero.poke 0 (Instruction.encode ⟨.push, 14, 0, 0⟩ ++ pop.encode ++ pop.encode)
    let new : Session Unit :=
      { machine := .boot memory, watch := (), log := { threshold := some .trace } }
    let s := new.performAll [.drive (.step .idle)]
    let t := s.performAll [.drive (.runFor .idle 5), .fetch]
    let lister : Observer (List Instruction) := ⟨fun _ i seen => (i :: seen, none)⟩
    let f : Fault := ⟨8, .outsideMemory 65535⟩
    s.machine.status = .running ∧ s.machine.steps + 5 < UInt64.size ∧
      (s.run .idle).answer ≠ .ok none ∧
      ((s.checkpoint []).runFor lister 5).answer = (s.runFor .idle 5).answer ∧
      ((s.checkpoint []).run lister).answer = (s.run .idle).answer ∧
      t.machine.status = .stopped (.error f) ∧
      ((t.checkpoint []).step lister).answer = .error f := by
  intro pop memory new s t lister f
  have hRunning : s.machine.status = .running := by decide +kernel
  have hSteps : s.machine.steps + 5 < UInt64.size := by decide +kernel
  have hStops : (s.run .idle).answer ≠ .ok none := by
    obtain ⟨hAnswer, -⟩ := arrives_run .idle hRunning (k := 1) (by decide +kernel)
      (by decide +kernel) (by decide +kernel)
    have hVerdict : (s.machine.after 1).verdict = .error f := by decide +kernel
    rw [hAnswer, hVerdict]
    simp [Except.map]
  have hStopped : t.machine.status = .stopped (.error f) := by decide +kernel
  obtain ⟨⟨-, hRunFor, hRun⟩, hAgain⟩ := checkpoints_replay hRunning .idle lister []
  obtain ⟨hAnswer, -⟩ := hAgain [.drive (.runFor .idle 5), .fetch] (by decide) _ hStopped
  exact ⟨hRunning, hSteps, hStops, (hRunFor 5 hSteps).answer, (hRun hStops).answer, hStopped,
    hAnswer⟩

end Session

end RegisterMachine
