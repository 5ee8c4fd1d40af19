import RegisterMachine.Proofs.Recording

/-!
# Steps, calls and records

Three things count the instructions that a machine executes: its count of steps, the calls of the
observers that look on, and the records of its log. A record is made before the instruction is
executed, the count goes up after that, and the call comes last, before the program counter moves
on. So an instruction that fails has a record but is neither counted nor shown.

* `accounted_step`, `accounted_perform`: the three agree, and they go on to agree.
* `exists_passes`, `documented_of_passes`: every count is passed by one executed instruction, and
  this is the one that the call and the record of the same number are about.
* `accounts_agree`: the counts, the order of the records, and what the observers are shown, for
  everything that is done with a machine since it was built.
-/

namespace RegisterMachine

/-! ## Records -/

namespace Record

/-- Is it the record of an instruction that is about to be executed? -/
def isTrace (r : Record) : Bool :=
  r.level = .trace

/-- Does it tell that a machine has stopped? -/
def isStop : Record → Bool
  | halted _ | faulted _ => true
  | _ => false

end Record

/-- The number of instructions that were decoded and have failed. The fault of an instruction that
does not lie in memory as a whole is one of the fetch. -/
def Status.failures : Status → Nat
  | .faulted f => if f.pc.toNat ≤ 65531 then 1 else 0
  | .running | .halted _ => 0

theorem Log.toList_records_of_trace {log : Log} (h : log.threshold = some .trace)
    (rs : List Record) : (log.addAll rs).records.toList = log.records.toList ++ rs := by
  rw [toList_records_addAll, h]
  simp [keeps_trace]

theorem countP_isTrace_failures (failures : List Console.Failure) :
    (failures.map Record.consoleFailed).countP Record.isTrace = 0 := by
  rw [List.countP_eq_zero]
  intro r hr
  obtain ⟨failure, -, rfl⟩ := List.mem_map.mp hr
  exact Bool.false_ne_true

theorem not_isStop_of_failures {failures : List Console.Failure} {r : Record}
    (hr : r ∈ failures.map Record.consoleFailed) : r.isStop = false := by
  obtain ⟨failure, -, rfl⟩ := List.mem_map.mp hr
  rfl

namespace Config

variable {c : Config}

theorem pc_of_fetch_ok {fetched : Fetched} (h : c.fetch = .ok fetched) :
    c.registers.pc.toNat ≤ 65531 := by
  by_contra hEnd
  rw [fetch_of_le (by omega)] at h
  cases h

theorem pc_of_fetch_fault {f : Fault} (h : c.fetch = .error f) : ¬f.pc.toNat ≤ 65531 := by
  intro hLe
  rw [pc_of_fetch_error h] at hLe
  rw [fetch_of_lt (by omega)] at h
  cases h

end Config

namespace Session

variable {σ : Type} {o : Observer σ} {s : Session σ} {t u v : Session (σ × List Showing)}

/-! ## The accounts of a session -/

/-- The count of steps, the list of calls and the log of a session agree. -/
structure Accounted (t : Session (σ × List Showing)) : Prop where
  threshold : t.log.threshold = some .trace
  calls : t.watch.2.length = t.machine.steps
  traces : t.log.records.toList.countP Record.isTrace =
    t.machine.steps + t.machine.status.failures
  stops : t.log.records.toList.countP Record.isStop =
    if t.machine.status = .running then 0 else 1
  order : t.log.records.toList.Pairwise fun r q => r.isStop → ¬q.isTrace

/-- The accounts of a running machine stay in order if those of what is added are. -/
theorem Accounted.add (h : Accounted t) (hRunning : t.machine.status = .running)
    (rs : List Record) (hLog : u.log = t.log.addAll rs)
    (hCalls : u.watch.2.length = u.machine.steps)
    (hTraces : t.machine.steps + rs.countP Record.isTrace =
      u.machine.steps + u.machine.status.failures)
    (hStops : rs.countP Record.isStop = if u.machine.status = .running then 0 else 1)
    (hOrder : rs.Pairwise fun r q => r.isStop → ¬q.isTrace) : Accounted u := by
  have hRecords := Log.toList_records_of_trace h.threshold rs
  have hTracesBefore := h.traces
  have hStopsBefore := h.stops
  rw [hRunning] at hTracesBefore hStopsBefore
  rw [if_pos rfl] at hStopsBefore
  constructor
  · rw [hLog, Log.threshold_addAll, h.threshold]
  · exact hCalls
  · rw [hLog, hRecords, List.countP_append, hTracesBefore, ← hTraces]
    rfl
  · rw [hLog, hRecords, List.countP_append, hStopsBefore, Nat.zero_add, hStops]
  · rw [hLog, hRecords, List.pairwise_append]
    refine ⟨h.order, hOrder, ?_⟩
    intro r hr q _ hStop
    exact absurd hStop (List.countP_eq_zero.mp hStopsBefore r hr)

/-! ## What a step does to the accounts -/

/-- An executed instruction is shown once, as it was decoded, and what is shown is the machine
after the step, with the program counter one instruction back. -/
theorem showing_of_step_executed (hStep : t.step o.recorded = ⟨.ok .executed, u⟩) :
    ∃ (i : Instruction) (failures : List Console.Failure) (shown : Machine),
      t.machine.fetch = .ok (.instruction i) ∧
        u.watch.2 = t.watch.2 ++ [⟨shown, i⟩] ∧
        u.log = t.log.addAll (.executing t.machine.registers.pc i :: failures.map .consoleFailed) ∧
        shown = { u.machine with toConfig := u.machine.retreat } := by
  obtain ⟨i, hNext, rfl⟩ := upcoming?_of_step_executed hStep
  refine ⟨i, ((t.note (.executing t.machine.registers.pc i)).failure? o.recorded i).toList,
    t.machine.complete i, (Config.upcoming?_eq_some_iff.mp hNext).1, ?_, ?_, ?_⟩
  · rw [watch_complete]
    rfl
  · exact log_complete ..
  · rw [machine_complete]
    rfl

theorem accounted_of_executed (h : Accounted t) (hStep : t.step o.recorded = ⟨.ok .executed, u⟩) :
    Accounted u := by
  obtain ⟨i, failures, shown, -, hCalls, hLog, -⟩ := showing_of_step_executed hStep
  obtain ⟨hBefore, hAfter⟩ := status_of_step_executed hStep
  have hSteps := steps_of_step_executed hStep
  refine h.add hBefore _ hLog ?_ ?_ ?_ ?_
  · rw [hCalls, List.length_append, h.calls, hSteps]
    rfl
  · rw [List.countP_cons_of_pos (by rfl), countP_isTrace_failures, hAfter, hSteps]
    rfl
  · rw [if_pos hAfter, List.countP_eq_zero]
    rintro r (_ | ⟨_, hr⟩)
    · exact Bool.false_ne_true
    · simp [not_isStop_of_failures hr]
  · refine List.Pairwise.cons (fun q _ hStop => nomatch hStop) ?_
    refine List.Pairwise.imp_of_mem ?_ (List.pairwise_of_forall fun _ _ => trivial)
    intro r q hr _ _ hStop
    rw [not_isStop_of_failures hr] at hStop
    cases hStop

theorem accounted_step (t : Session (σ × List Showing)) (o : Observer σ) (h : Accounted t) :
    Accounted (t.step o.recorded).session := by
  cases hStatus : t.machine.status with
  | halted g =>
    rw [step_of_status_halted hStatus]
    exact h
  | faulted f =>
    rw [step_of_status_faulted hStatus]
    exact h
  | running =>
    have hCase := stepOf_step o.recorded hStatus
    generalize hOutcome : t.step o.recorded = outcome at hCase ⊢
    cases hCase with
    | executed i hFetch hChecks => exact accounted_of_executed h hOutcome
    | refused i cause hFetch hChecks =>
      refine h.add hStatus [.executing _ i, .faulted ⟨_, cause⟩] rfl h.calls ?_ rfl ?_
      · -- The instruction was decoded, so it lies in memory.
        have hLow := Config.pc_of_fetch_ok hFetch
        change t.machine.steps + 1 = t.machine.steps + if _ then 1 else 0
        rw [if_pos hLow]
      · simp [Record.isStop]
    | unfetched f hFetch =>
      refine h.add hStatus [.faulted f] rfl h.calls ?_ rfl (List.pairwise_singleton ..)
      have hHigh := Config.pc_of_fetch_fault hFetch
      change t.machine.steps + 0 = t.machine.steps + if f.pc.toNat ≤ 65531 then 1 else 0
      rw [if_neg hHigh]
    | halted opcode hFetch =>
      exact h.add hStatus [.halted ⟨_, opcode⟩] rfl h.calls rfl rfl
        (List.pairwise_singleton ..)

theorem accounted_perform (t : Session (σ × List Showing)) (op : Operation σ) (h : Accounted t) :
    Accounted (t.perform op.recorded) := by
  refine perform_of_edit (fun t c h => ⟨h.threshold, h.calls, h.traces, h.stops, h.order⟩)
    (fun t words h => ?_) op.recorded (fun d hDrive => ?_) h
  · -- Whether the machine runs or not, a load adds a record of neither kind.
    have hRecords := Log.toList_records_of_trace h.threshold [.loaded words]
    change (t.note (.loaded words)).log.records.toList = _ at hRecords
    refine ⟨(Log.threshold_add ..).trans h.threshold, h.calls, ?_, ?_, ?_⟩
    · rw [hRecords, List.countP_append, h.traces]
      rfl
    · rw [hRecords, List.countP_append, h.stops]
      rfl
    · rw [hRecords, List.pairwise_append]
      refine ⟨h.order, List.pairwise_singleton .., fun r _ q hq _ => ?_⟩
      rw [List.mem_singleton.mp hq]
      exact Bool.false_ne_true
  · cases op with
    | drive d' =>
      cases hDrive
      refine drive_of_step (P := Accounted) _ (fun t => ?_) h
      rw [Drive.observer_recorded]
      exact accounted_step t d'.observer
    | _ => cases hDrive

theorem accounted_performAll (ops : List (Operation σ)) (h : Accounted t) :
    Accounted (t.performAll (ops.map .recorded)) := by
  induction ops generalizing t with
  | nil => exact h
  | cons op ops ih => exact ih (accounted_perform t op h)

/-! ## Calls and records are not taken back -/

/-- The calls and the records of a session come first in those of another. -/
structure Extends (t u : Session (σ × List Showing)) : Prop where
  calls : t.watch.2 <+: u.watch.2
  records : t.log.records.toList <+: u.log.records.toList

theorem Extends.refl (t : Session (σ × List Showing)) : Extends t t :=
  ⟨List.prefix_refl _, List.prefix_refl _⟩

theorem Extends.trans (hFirst : Extends t u) (hSecond : Extends u v) : Extends t v :=
  ⟨hFirst.calls.trans hSecond.calls, hFirst.records.trans hSecond.records⟩

theorem extends_addAll (rs : List Record) (hCalls : t.watch.2 <+: u.watch.2)
    (hLog : u.log = t.log.addAll rs) : Extends t u := by
  refine ⟨hCalls, ?_⟩
  rw [hLog, Log.toList_records_addAll]
  exact List.prefix_append ..

theorem extends_step (t : Session (σ × List Showing)) (o : Observer σ) :
    Extends t (t.step o.recorded).session := by
  by_cases hStep : (t.step o.recorded).answer = .ok .executed
  · obtain ⟨i, failures, shown, -, hCalls, hLog, -⟩ :=
      showing_of_step_executed (step_eq_of_answer hStep)
    exact extends_addAll _ (hCalls ▸ List.prefix_append ..) hLog
  · obtain ⟨-, hWatch⟩ := machine_of_step_stopped hStep
    exact extends_addAll _ (by rw [hWatch]) (log_step_stopped hStep)

theorem extends_perform (t : Session (σ × List Showing)) (op : Operation σ) :
    Extends t (t.perform op.recorded) := by
  refine perform_of_edit (P := Extends t) (fun _ _ h => ⟨h.calls, h.records⟩)
    (fun u words h => ?_) op.recorded (fun d hDrive => ?_) (.refl t)
  · exact h.trans (extends_addAll [.loaded words] (List.prefix_refl _) rfl)
  · cases op with
    | drive d' =>
      cases hDrive
      refine drive_of_step _ (fun u h => ?_) (.refl t)
      rw [Drive.observer_recorded]
      exact h.trans (extends_step u d'.observer)
    | _ => cases hDrive

theorem extends_performAll (ops : List (Operation σ)) :
    Extends t (t.performAll (ops.map .recorded)) := by
  induction ops generalizing t with
  | nil => exact .refl t
  | cons op ops ih => exact (extends_perform t op).trans ih

/-! ## The passage of a count -/

/-- Some of the operations that are performed on a session drives it from `u` to `v`, with one
observer looking on. The count of steps tells that the drive goes as far. -/
inductive Passes (o : Observer σ) (u v : Session σ) : Session σ → List (Operation σ) → Prop where
  | here {s : Session σ} {d : Drive σ} {ops : List (Operation σ)} {j : Nat}
      (hObserver : d.observer = o) (hAfter : s.after o j = some u)
      (hStep : u.step o = ⟨.ok .executed, v⟩)
      (hCount : v.machine.steps ≤ (s.drive d).machine.steps) : Passes o u v s (.drive d :: ops)
  | later {s : Session σ} {op : Operation σ} {ops : List (Operation σ)}
      (hPasses : Passes o u v (s.perform op) ops) : Passes o u v s (op :: ops)

theorem step_of_passes {u v : Session σ} {ops : List (Operation σ)} (h : Passes o u v s ops) :
    u.step o = ⟨.ok .executed, v⟩ := by
  induction h with
  | here _ _ hStep _ => exact hStep
  | later _ ih => exact ih

/-- A drive that goes as far as a number of steps goes there by executing instructions. -/
theorem exists_after_of_drive {d : Drive σ} {j : Nat}
    (hCount : s.machine.steps + j ≤ (s.drive d).machine.steps) :
    ∃ m w u, s.after d.observer m = some w ∧ j ≤ m ∧ s.after d.observer j = some u ∧
      (s.drive d = w ∨ s.drive d = (w.step d.observer).session) := by
  obtain ⟨m, w, hAfter, hEnd⟩ := reaches_drive s d
  have hSteps := steps_of_after hAfter
  have hLe : j ≤ m := by
    obtain hEnd | ⟨hStop, hEnd⟩ := hEnd
    · rw [hEnd] at hCount
      omega
    · rw [hEnd, (machine_of_step_stopped hStop).1] at hCount
      dsimp only at hCount
      omega
  obtain ⟨u, hBefore⟩ := exists_after_of_le hAfter hLe
  exact ⟨m, w, u, hAfter, hLe, hBefore, hEnd.imp_right fun h => h.2⟩

/-- Every count is passed by executing an instruction. -/
theorem exists_passes {ops : List (Operation σ)} {i : Nat} (hFirst : s.machine.steps ≤ i)
    (hLast : i < (s.performAll ops).machine.steps) :
    ∃ (o : Observer σ) (u v : Session σ), Passes o u v s ops ∧ u.machine.steps = i := by
  induction ops generalizing s with
  | nil => exact absurd hLast (Nat.not_lt.mpr hFirst)
  | cons op ops ih =>
    by_cases hLater : (s.perform op).machine.steps ≤ i
    · obtain ⟨o, u, v, hPasses, hCount⟩ := ih hLater hLast
      exact ⟨o, u, v, .later hPasses, hCount⟩
    · cases op with
      | drive d =>
        obtain ⟨j, rfl⟩ := Nat.exists_eq_add_of_le hFirst
        have hCount : s.machine.steps + (j + 1) ≤ (s.drive d).machine.steps := by
          change ¬(s.drive d).machine.steps ≤ _ at hLater
          omega
        obtain ⟨-, -, v, -, -, hAfter, -⟩ := exists_after_of_drive hCount
        obtain ⟨u, hBefore⟩ := exists_after_of_le hAfter (Nat.le_succ j)
        have hSteps := steps_of_after hAfter
        rw [after_add hBefore] at hAfter
        obtain ⟨w, hStep, hEnd⟩ := after_succ_eq_some_iff.mp hAfter
        cases hEnd
        exact ⟨d.observer, u, v, .here rfl hBefore hStep (hSteps ▸ hCount), steps_of_after hBefore⟩
      | _ =>
        -- Any other operation leaves the count as it is.
        refine absurd ?_ hLater
        refine perform_of_edit (P := fun t => t.machine.steps ≤ i) (fun _ _ h => h) (fun _ _ h => h)
          _ (fun d hDrive => ?_) hFirst
        cases hDrive

/-- The call and the record of a number are about the instruction that is executed as the count
passes that number. -/
structure Documented (i : Instruction) (u v : Session σ) (t : Session (σ × List Showing)) :
    Prop where
  fetch : u.machine.fetch = .ok (.instruction i)
  call : t.watch.2[u.machine.steps]? =
    some ⟨{ v.machine with toConfig := v.machine.retreat }, i⟩
  record : (t.log.records.toList.filter Record.isTrace)[u.machine.steps]? =
    some (.executing u.machine.registers.pc i)

theorem getElem?_of_prefix {α : Type} {xs ys : List α} {x : α} {n : Nat} (hPrefix : xs <+: ys)
    (h : xs[n]? = some x) : ys[n]? = some x := by
  obtain ⟨zs, rfl⟩ := hPrefix
  rw [List.getElem?_append_left (List.getElem?_eq_some_iff.mp h).1, h]

theorem Documented.extend {i : Instruction} {u v : Session σ} {t w : Session (σ × List Showing)}
    (h : Documented i u v t) (hExtends : Extends t w) : Documented i u v w :=
  ⟨h.fetch, getElem?_of_prefix hExtends.calls h.call,
    getElem?_of_prefix (hExtends.records.filter _) h.record⟩

/-- A drive that goes on from behind an instruction takes no call and no record back. -/
theorem extends_of_drive {d : Drive σ} {j : Nat} (hAfter : t.after d.observer.recorded j = some u)
    (hCount : t.machine.steps + j ≤ (t.drive d.recorded).machine.steps) :
    Extends u (t.drive d.recorded) := by
  have hKeep (v : Session (σ × List Showing)) (h : Extends u v) :
      Extends u (v.step d.observer.recorded).session := h.trans (extends_step v d.observer)
  obtain ⟨m, w, v, hLast, hLe, hBefore, hEnd⟩ := exists_after_of_drive hCount
  rw [Drive.observer_recorded] at hLast hBefore hEnd
  rw [hAfter] at hBefore
  cases hBefore
  obtain ⟨k, rfl⟩ := Nat.exists_eq_add_of_le hLe
  rw [after_add hAfter] at hLast
  have hExtends := after_of_step hKeep hLast (.refl u)
  obtain hEnd | hEnd := hEnd
  · rw [hEnd]
    exact hExtends
  · rw [hEnd]
    exact hKeep w hExtends

theorem documented_of_executed {u v : Session σ} {t w : Session (σ × List Showing)}
    (h : Accounted t) (hStep : t.step o.recorded = ⟨.ok .executed, w⟩)
    (hBefore : u.machine = t.machine) (hBehind : v.machine = w.machine) :
    ∃ i, Documented i u v w := by
  obtain ⟨i, failures, shown, hFetch, hCalls, hLog, rfl⟩ := showing_of_step_executed hStep
  have hTraces : (t.log.records.toList.filter Record.isTrace).length = t.machine.steps := by
    rw [← List.countP_eq_length_filter, h.traces, (status_of_step_executed hStep).1]
    rfl
  refine ⟨i, ?_, ?_, ?_⟩
  · rw [hBefore, hFetch]
  · rw [hCalls, hBefore, hBehind, ← h.calls, List.getElem?_concat_length]
  · rw [hLog, Log.toList_records_of_trace h.threshold, hBefore, List.filter_append, ← hTraces,
      List.filter_cons_of_pos (by rfl), List.getElem?_append_right (Nat.le_refl _), Nat.sub_self,
      List.getElem?_cons_zero]

theorem documented_of_passes {u v : Session σ} {ops : List (Operation σ)} (h : Accounted t)
    (hPasses : Passes o u v t.forget ops) :
    ∃ i, Documented i u v (t.performAll (ops.map .recorded)) := by
  induction ops generalizing t with
  | nil => cases hPasses
  | cons op ops ih =>
    cases hPasses with
    | later hLater =>
      rw [← forget_perform] at hLater
      exact ih (accounted_perform t op h) hLater
    | @here _ d _ j hObserver hAfter hStep hCount =>
      subst hObserver
      have hSame : t.forget.machine = t.machine := rfl
      obtain ⟨u', hAfter', hBefore⟩ := exists_after_congr d.observer.recorded hSame hAfter
      obtain ⟨hAnswer, hBehind⟩ := step_congr d.observer d.observer.recorded hBefore
      rw [hStep] at hAnswer hBehind
      have hStep' := step_eq_of_answer hAnswer.symm
      have hAccounted := after_of_step (fun t => accounted_step t d.observer) hAfter' h
      obtain ⟨i, hDocumented⟩ := documented_of_executed hAccounted hStep' hBefore hBehind
      refine ⟨i, hDocumented.extend (Extends.trans ?_ (extends_performAll ops))⟩
      refine extends_of_drive (j := j + 1) ?_ ?_
      · rw [after_add hAfter', after_succ_of_executed hStep', after_zero]
      · have hSteps := steps_of_after hAfter
        have hStepsBehind := steps_of_step_executed hStep
        have hDriven : (t.drive d.recorded).machine = (t.forget.drive d).machine :=
          congrArg machine (forget_drive d t)
        rw [hDriven]
        change t.machine.steps + (j + 1) ≤ _
        change u.machine.steps = t.machine.steps + j at hSteps
        omega

theorem accounted_boot (memory : Memory) (watch : σ) :
    Accounted (recording
      { machine := .boot memory, watch, log := { threshold := some .trace } }) := by
  constructor
  · rfl
  · rfl
  · rfl
  · rfl
  · exact List.Pairwise.nil

/-- Whatever is done with a new machine, the count of steps, the calls of the observers and the
records of the log agree. Every count is passed by executing an instruction, and the call and the
record of that number show it: the instruction as it was fetched before, and the machine as it is
afterwards with the program counter one instruction back. -/
theorem accounts_agree (memory : Memory) (watch : σ) (ops : List (Operation σ)) :
    let s : Session σ := { machine := .boot memory, watch, log := { threshold := some .trace } }
    let t := s.performAll ops
    let t' := s.recording.performAll (ops.map .recorded)
    let calls := t'.watch.2
    let records := t.log.records.toList
    let traces := records.filter Record.isTrace
    t'.forget = t ∧
    t.machine.steps = calls.length ∧
    traces.length = t.machine.steps + t.machine.status.failures ∧
    records.countP Record.isStop = (if t.machine.status = .running then 0 else 1) ∧
    (records.Pairwise fun r q => r.isStop → ¬q.isTrace) ∧
    ∀ k (hk : k < calls.length), ∃ (o : Observer σ) (u v : Session σ),
      Passes o u v s ops ∧ u.step o = ⟨.ok .executed, v⟩ ∧ u.machine.steps = k ∧
        u.machine.fetch = .ok (.instruction calls[k].instruction) ∧
        traces[k]? = some (.executing u.machine.registers.pc calls[k].instruction) ∧
        calls[k].machine.steps = k + 1 ∧
        calls[k].machine.memory = v.machine.memory ∧
        calls[k].machine.registers =
          v.machine.registers.set .pc (v.machine.registers.pc - 4) := by
  intro s t t' calls records traces
  have hBoot : Accounted s.recording := accounted_boot memory watch
  have hAccounted : Accounted t' := accounted_performAll ops hBoot
  have hForget : t'.forget = t := by
    rw [forget_performAll, forget_recording]
  have hMachine : t'.machine = t.machine := congrArg machine hForget
  have hRecords : t'.log.records.toList = records := congrArg (·.log.records.toList) hForget
  refine ⟨hForget, ?_, ?_, ?_, ?_, fun k hk => ?_⟩
  · rw [← hMachine, ← hAccounted.calls]
  · rw [← List.countP_eq_length_filter, ← hRecords, ← hMachine]
    exact hAccounted.traces
  · rw [← hRecords, ← hMachine]
    exact hAccounted.stops
  · rw [← hRecords]
    exact hAccounted.order
  · have hLast : k < t.machine.steps := by
      rw [← hMachine, ← hAccounted.calls]
      exact hk
    obtain ⟨o, u, v, hPasses, rfl⟩ := exists_passes (Nat.zero_le k) hLast
    obtain ⟨i, hDocumented⟩ := documented_of_passes hBoot hPasses
    have hStep := step_of_passes hPasses
    have hCall := hDocumented.call
    rw [List.getElem?_eq_getElem hk, Option.some.injEq] at hCall
    have hShown : calls[u.machine.steps] = ⟨_, i⟩ := hCall
    refine ⟨o, u, v, hPasses, hStep, rfl, ?_, ?_, ?_, ?_, ?_⟩
    · rw [hShown]
      exact hDocumented.fetch
    · rw [hShown, show traces = _ from congrArg (List.filter _) hRecords.symm]
      exact hDocumented.record
    · rw [hShown]
      exact steps_of_step_executed hStep
    · rw [hShown]
      rfl
    · rw [hShown]
      rfl

end Session

end RegisterMachine
