import RegisterMachine.Proofs.Determinism

/-!
# What observers are shown

An observer is shown every executed instruction, one after another, with the machine as the
instruction leaves it and the program counter not yet moved on (`Executed.shown`). It sees nothing
else, so its state is a fold over the course of the machine (`Observer.attend`), and so are the
failures that it reports.

* `execute_of_mem_course`: what is shown is what the execution of the instruction leaves.
* `attend_of_after`: the state of an observer after some instructions, and the log.
* `reaches_drives`, `attends_drives`: the same after a machine was driven in any way, with
  one observer looking on.
* `log_drives`: the whole log after that. Its last records are told by the machine alone.
-/

namespace RegisterMachine

/-- The configuration that an observer is shown after an instruction. -/
def Executed.shown (e : Executed) : Config :=
  e.after.retreat

/-- An observer at a number of instructions: the state that it is left in, and what it reports of
each. -/
def Observer.attend {σ : Type} (o : Observer σ) (steps : Nat) :
    List Executed → σ → σ × List (Option Console.Failure)
  | [], watch => (watch, [])
  | e :: es, watch =>
    let seen := o.observe { toConfig := e.shown, steps := steps + 1 } e.instruction watch
    let rest := o.attend (steps + 1) es seen.1
    (rest.1, seen.2 :: rest.2)

/-- An observer that has attended to some instructions goes on where it was left. -/
theorem Observer.attend_append {σ : Type} (o : Observer σ) (steps : Nat) (es fs : List Executed)
    (watch : σ) :
    o.attend steps (es ++ fs) watch =
      let first := o.attend steps es watch
      let rest := o.attend (steps + es.length) fs first.1
      (rest.1, first.2 ++ rest.2) := by
  induction es generalizing steps watch with
  | nil => rfl
  | cons e es ih =>
    have hCount : steps + (e :: es).length = steps + 1 + es.length := by
      rw [List.length_cons]
      omega
    rw [List.cons_append, Observer.attend, ih, hCount]
    rfl

theorem Config.execute_of_mem_course {c : Config} {k : Nat} {e : Executed} (h : e ∈ c.course k) :
    e.instruction.execute e.before = .ok () e.shown := by
  obtain ⟨es, fs, hSplit⟩ := List.append_of_mem h
  obtain ⟨-, -, hNext⟩ := course_eq_append_cons hSplit
  rw [Execution.execute_apply, (upcoming?_eq_some_iff.mp hNext).2]
  rfl

namespace Session

variable {σ : Type} {o : Observer σ} {s t u : Session σ} {k : Nat}

theorem watch_complete (o : Observer σ) (i : Instruction) (s : Session σ) :
    (s.complete o i).watch = (o.observe (s.machine.complete i) i s.watch).1 := by
  unfold complete present advance
  dsimp only
  cases (o.observe (s.machine.complete i) i s.watch).2 <;> rfl

/-- An observer has attended to the instructions that were executed, and to no others. -/
theorem attend_of_after (hRunning : s.machine.status = .running)
    (hAfter : s.after o k = some t) :
    t.watch = (o.attend s.machine.steps (s.machine.course k) s.watch).1 ∧
      t.log = s.log.addAll (annotated (s.machine.course k)
        (o.attend s.machine.steps (s.machine.course k) s.watch).2) := by
  induction k generalizing s with
  | zero =>
    cases hAfter
    exact ⟨rfl, rfl⟩
  | succ k ih =>
    obtain ⟨u, hStep, hRest⟩ := after_succ_eq_some_iff.mp hAfter
    obtain ⟨i, hNext, hEq⟩ := upcoming?_of_step_executed hStep
    obtain ⟨hWatch, hLog⟩ := ih (status_of_step_executed hStep).2 hRest
    have hMachine : u.machine =
        { s.machine with toConfig := s.machine.successor i, steps := s.machine.steps + 1 } := by
      rw [hEq]
      exact machine_complete ..
    have hShown : s.machine.complete i =
        { toConfig := (Executed.mk s.machine.toConfig i).shown, steps := s.machine.steps + 1 } := by
      unfold Machine.complete
      rw [hRunning]
      rfl
    have hFirst : u.watch = (o.observe (s.machine.complete i) i s.watch).1 := by
      rw [hEq]
      exact watch_complete ..
    have hNoted : u.log = (s.log.add (.executing s.machine.registers.pc i)).addAll
        ((o.observe (s.machine.complete i) i s.watch).2.toList.map .consoleFailed) := by
      rw [hEq]
      exact log_complete ..
    rw [hMachine, hFirst, hShown] at hWatch hLog
    rw [hNoted, hShown] at hLog
    rw [Config.course_succ_of_some hNext]
    refine ⟨hWatch, hLog.trans ?_⟩
    exact (Log.addAll_append _ (.executing s.machine.registers.pc i :: _) _).symm

/-! ## Driven machines -/

/-- Where a machine is left by steps with one observer: after a number of instructions, or behind
the step that has stopped it after these. -/
def Reaches (o : Observer σ) (s t : Session σ) : Prop :=
  ∃ k u, s.after o k = some u ∧
    (t = u ∨ (u.step o).answer ≠ .ok .executed ∧ t = (u.step o).session)

theorem reaches_step (hAfter : s.after o k = some u) : Reaches o s (u.step o).session := by
  by_cases hStep : (u.step o).answer = .ok .executed
  · refine ⟨k + 1, (u.step o).session, ?_, .inl rfl⟩
    rw [after_add hAfter, after_succ_of_executed (step_eq_of_answer hStep), after_zero]
  · exact ⟨k, u, hAfter, .inr ⟨hStep, rfl⟩⟩

theorem reaches_drive (s : Session σ) (d : Drive σ) : Reaches d.observer s (s.drive d) := by
  cases d with
  | step o => exact reaches_step after_zero
  | run o =>
    have hRun : RunOf o (maxSteps + 1) s (s.run o) := runOf_runTo ..
    change Reaches o s (s.run o).session
    generalize s.run o = outcome at hRun ⊢
    cases hRun with
    | exhausted u hAfter => exact ⟨_, u, hAfter, .inl rfl⟩
    | halted k u _ v hAfter _ hStep | faulted k u _ v hAfter _ hStep =>
      have hLast := reaches_step hAfter
      rwa [hStep] at hLast
  | runFor o budget =>
    change Reaches o s (s.runFor o budget).session
    obtain ⟨k, u, hAfter, -, -, hSession | hSession⟩ := session_runFor o budget s
    · exact ⟨k, u, hAfter, .inl hSession⟩
    · rw [hSession]
      exact reaches_step hAfter

theorem exists_stopped_of_step (hStep : (u.step o).answer ≠ .ok .executed) :
    ∃ stop, (u.step o).session.machine.status = .stopped stop := by
  match hOutcome : u.step o with
  | ⟨.ok .executed, v⟩ => exact absurd (by rw [hOutcome]) hStep
  | ⟨.ok (.halted h), v⟩ => exact ⟨.ok h, status_of_step_halted hOutcome⟩
  | ⟨.error f, v⟩ => exact ⟨.error f, status_of_step_error hOutcome⟩

theorem performAll_drives_of_stopped {stop : Except Fault Halt} {drives : List (Drive σ)}
    (hStatus : s.machine.status = .stopped stop) : s.performAll (drives.map .drive) = s := by
  induction drives with
  | nil => rfl
  | cons d drives ih =>
    rw [List.map_cons, performAll_cons, perform, drive_of_stopped hStatus, ih]

/-- A machine that is driven in any way with one observer executes instructions and then stops or
goes on, but nothing is done after a stop. -/
theorem reaches_drives {drives : List (Drive σ)}
    (hObserver : ∀ d ∈ drives, d.observer = o) :
    Reaches o s (s.performAll (drives.map .drive)) := by
  induction drives generalizing s with
  | nil => exact ⟨0, s, rfl, .inl rfl⟩
  | cons d drives ih =>
    have hFirst := reaches_drive s d
    rw [hObserver d List.mem_cons_self] at hFirst
    obtain ⟨j, u, hAfter, hEnd | ⟨hStop, hEnd⟩⟩ := hFirst
    · obtain ⟨k, v, hRest, hLast⟩ := ih (s := u) fun d hd => hObserver d (List.mem_cons_of_mem _ hd)
      rw [List.map_cons, performAll_cons, perform, hEnd]
      exact ⟨j + k, v, by rw [after_add hAfter, hRest], hLast⟩
    · obtain ⟨stop, hStopped⟩ := exists_stopped_of_step hStop
      refine ⟨j, u, hAfter, .inr ⟨hStop, ?_⟩⟩
      rw [List.map_cons, performAll_cons, perform, hEnd, performAll_drives_of_stopped hStopped]

/-- One observer has looked on while a machine followed its course. -/
structure Attends (o : Observer σ) (s : Session σ) (k : Nat) (t : Session σ) : Prop
    extends Follows s k t where
  watch : t.watch = (o.attend s.machine.steps (s.machine.course k) s.watch).1
  log : ∃ ending, Ending ending ∧ t.log = s.log.addAll (annotated (s.machine.course k)
    (o.attend s.machine.steps (s.machine.course k) s.watch).2 ++ ending)

/-- The records of the step that has stopped a machine, if one has stopped it between two states. -/
def ending (m m' : Machine) : List Record :=
  if m'.status = m.status then [] else m'.toConfig.closing

theorem ending_ending (m m' : Machine) : Ending (ending m m') := by
  unfold ending
  split
  · exact .none
  · exact ending_closing _

theorem log_of_reaches (hRunning : s.machine.status = .running) (h : Reaches o s t) :
    ∃ k, Attends o s k t ∧ t.log = s.log.addAll (annotated (s.machine.course k)
      (o.attend s.machine.steps (s.machine.course k) s.watch).2 ++ ending s.machine t.machine) := by
  obtain ⟨k, u, hAfter, hEnd⟩ := h
  have hFollows := follows_of_after hAfter
  have hHere := status_of_after hRunning hAfter
  obtain ⟨hWatch, hLog⟩ := attend_of_after hRunning hAfter
  refine ⟨k, ?_⟩
  obtain rfl | ⟨hStop, rfl⟩ := hEnd
  · have hEnding : ending s.machine t.machine = [] := if_pos (hHere.trans hRunning.symm)
    rw [hEnding, List.append_nil]
    exact ⟨⟨hFollows, hWatch, [], .none, by rw [List.append_nil]; exact hLog⟩, hLog⟩
  · obtain ⟨hMachine, hUnseen⟩ := machine_of_step_stopped hStop
    obtain ⟨stop, hStopped⟩ := exists_stopped_of_step hStop
    have hConfig : (u.step o).session.machine.toConfig = u.machine.toConfig := by rw [hMachine]
    have hSteps : (u.step o).session.machine.steps = u.machine.steps := by rw [hMachine]
    have hEnding : ending s.machine (u.step o).session.machine = u.machine.closing := by
      rw [ending, if_neg, hConfig, Machine.closing_of_running hHere]
      rw [hStopped, hRunning]
      cases stop <;> nofun
    have hNoted : (u.step o).session.log = s.log.addAll (annotated (s.machine.course k)
        (o.attend s.machine.steps (s.machine.course k) s.watch).2 ++ u.machine.closing) := by
      rw [log_step_stopped hStop, Log.addAll_append, hLog]
    rw [hEnding]
    exact ⟨⟨⟨hFollows.length, hConfig.trans hFollows.config, hSteps.trans hFollows.steps⟩,
      hUnseen.trans hWatch, _, ending_closing _, hNoted⟩, hNoted⟩

theorem log_drives (s : Session σ) {drives : List (Drive σ)}
    (hObserver : ∀ d ∈ drives, d.observer = o) :
    let t := s.performAll (drives.map .drive)
    ∃ k, Attends o s k t ∧ t.log = s.log.addAll (annotated (s.machine.course k)
      (o.attend s.machine.steps (s.machine.course k) s.watch).2 ++ ending s.machine t.machine) := by
  intro t
  obtain hRunning | ⟨stop, hStopped⟩ := s.machine.status.eq_running_or_stopped
  · exact log_of_reaches hRunning (reaches_drives hObserver)
  · have hSame : t = s := performAll_drives_of_stopped hStopped
    have hEnding : ending s.machine s.machine = [] := if_pos rfl
    rw [hSame, hEnding]
    exact ⟨0, ⟨.refl s, rfl, [], .none, rfl⟩, rfl⟩

/-- A machine is driven in any way, with one observer looking on. -/
theorem attends_drives (s : Session σ) {drives : List (Drive σ)}
    (hObserver : ∀ d ∈ drives, d.observer = o) :
    ∃ k, Attends o s k (s.performAll (drives.map .drive)) :=
  (log_drives s hObserver).imp fun _ h => h.1

end Session

end RegisterMachine
