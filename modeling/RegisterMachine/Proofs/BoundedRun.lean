import Mathlib.Data.ENat.Lattice
import RegisterMachine.Proofs.Budgets

/-!
# Bounded and unbounded runs

The unbounded run of a session makes steps for as long as they execute instructions. `runLength` is
the number of instructions in it, which may be infinite, and `Stops` tells with which answer it
stops. A run with a budget executes the first instructions of the unbounded run, and `Reported` is
what can be known of the unbounded run after that: a halt right after the last instruction of the
budget is known, a fault there is not.

* `exists_after_iff`: the unbounded run can be followed for as many instructions as it has.
* `reported_unique`, `reported_runFor`: a run with a budget answers what is reported.
* `runFor_is_bounded_run`: the run with a budget against the unbounded run.
-/

namespace RegisterMachine

/-- The answer of a run for the answer of its last step. -/
def Step.toRun : Step → Option Halt
  | .executed => none
  | .halted h => some h

/-- The status that belongs to the answer of a run with a budget. -/
def Status.ofAnswer : Except Fault (Option Halt) → Status
  | .ok none => .running
  | .ok (some h) => .halted h
  | .error f => .faulted f

namespace Session

variable {σ : Type} {o : Observer σ} {s t u : Session σ}

/-! ## The unbounded run -/

open scoped Classical in
/-- The number of instructions that are executed before a step halts or faults. -/
noncomputable def runLength (o : Observer σ) (s : Session σ) : ℕ∞ :=
  if h : ∃ k, s.after o (k + 1) = none then Nat.find h else ⊤

/-- The unbounded run stops, and its last step gives an answer. -/
def Stops (o : Observer σ) (s : Session σ) (answer : Except Fault Step) : Prop :=
  answer ≠ .ok .executed ∧ ∃ k t, s.after o k = some t ∧ (t.step o).answer = answer

theorem exists_after_of_le {j k : Nat} (hAfter : s.after o k = some t) (hLe : j ≤ k) :
    ∃ u, s.after o j = some u := by
  induction j generalizing s k with
  | zero => exact ⟨s, rfl⟩
  | succ j ih =>
    obtain ⟨k, rfl⟩ := Nat.exists_eq_add_of_le' (Nat.le_trans (Nat.le_add_left 1 j) hLe)
    obtain ⟨v, hStep, hRest⟩ := after_succ_eq_some_iff.mp hAfter
    obtain ⟨u, hAfter'⟩ := ih hRest (by omega)
    exact ⟨u, by rw [after_succ_of_executed hStep, hAfter']⟩

theorem exists_after_iff {k : Nat} : (∃ t, s.after o k = some t) ↔ (k : ℕ∞) ≤ s.runLength o := by
  -- After no instruction there is `s`; after more there is one if no step before has stopped.
  have hSome (j : Nat) (hNone : s.after o (j + 1) ≠ none) : ∃ t, s.after o (j + 1) = some t :=
    Option.ne_none_iff_exists'.mp hNone
  unfold runLength
  split
  · next hStop =>
    rw [Nat.cast_le]
    constructor
    · rintro ⟨t, hAfter⟩
      refine Nat.le_of_not_lt fun hLt => ?_
      obtain ⟨u, hPast⟩ := exists_after_of_le hAfter hLt
      rw [Nat.find_spec hStop] at hPast
      cases hPast
    · intro hLe
      cases k with
      | zero => exact ⟨s, rfl⟩
      | succ j => exact hSome j (Nat.find_min hStop hLe)
  · next hStop =>
    refine iff_of_true ?_ le_top
    cases k with
    | zero => exact ⟨s, rfl⟩
    | succ j => exact hSome j (not_exists.mp hStop j)

theorem runLength_eq {k : Nat} (hAfter : s.after o k = some t)
    (hStep : (t.step o).answer ≠ .ok .executed) : s.runLength o = k := by
  refine le_antisymm (le_of_not_gt fun hLt => ?_) (exists_after_iff.mp ⟨t, hAfter⟩)
  have hNext : ((k + 1 : Nat) : ℕ∞) ≤ s.runLength o := by
    rw [Nat.cast_succ]
    exact Order.add_one_le_of_lt hLt
  obtain ⟨u, hPast⟩ := exists_after_iff.mpr hNext
  rw [after_add hAfter] at hPast
  obtain ⟨v, hExecuted, -⟩ := after_succ_eq_some_iff.mp hPast
  exact hStep (by rw [hExecuted])

theorem stops_of_after {k : Nat} (hAfter : s.after o k = some t)
    (hStep : (t.step o).answer ≠ .ok .executed) : s.Stops o (t.step o).answer :=
  ⟨hStep, k, t, hAfter, rfl⟩

theorem stops_unique {a b : Except Fault Step} (ha : s.Stops o a) (hb : s.Stops o b) : a = b := by
  obtain ⟨hFirst, k, t, hAfter, rfl⟩ := ha
  obtain ⟨hSecond, j, u, hAfter', rfl⟩ := hb
  have hLength : (k : ℕ∞) = j := by
    rw [← runLength_eq hAfter hFirst, runLength_eq hAfter' hSecond]
  rw [Nat.cast_inj.mp hLength, hAfter'] at hAfter
  cases hAfter
  rfl

/-! ## What a budget lets through -/

/-- What is known of the unbounded run after a number of instructions. -/
inductive Reported (o : Observer σ) (n : Nat) (s : Session σ) :
    Except Fault (Option Halt) → Prop where
  | halted (h : Halt) (hStops : s.Stops o (.ok (.halted h))) (hLength : s.runLength o ≤ n) :
      Reported o n s (.ok (some h))
  | faulted (f : Fault) (hStops : s.Stops o (.error f)) (hLength : s.runLength o < n) :
      Reported o n s (.error f)
  | unfinished (hHalt : ∀ h, s.Stops o (.ok (.halted h)) → n < s.runLength o)
      (hFault : ∀ f, s.Stops o (.error f) → n ≤ s.runLength o) :
      Reported o n s (.ok none)

theorem reported_unique {n : Nat} {a b : Except Fault (Option Halt)} (ha : Reported o n s a)
    (hb : Reported o n s b) : a = b := by
  cases ha with
  | halted h hStops hLength =>
    cases hb with
    | halted h' hStops' =>
      cases stops_unique hStops hStops'
      rfl
    | faulted f hStops' => cases stops_unique hStops hStops'
    | unfinished hHalt => exact absurd hLength (not_le_of_gt (hHalt h hStops))
  | faulted f hStops hLength =>
    cases hb with
    | halted h hStops' => cases stops_unique hStops hStops'
    | faulted f' hStops' =>
      cases stops_unique hStops hStops'
      rfl
    | unfinished hHalt hFault => exact absurd hLength (not_lt_of_ge (hFault f hStops))
  | unfinished hHalt hFault =>
    cases hb with
    | halted h hStops hLength => exact absurd hLength (not_le_of_gt (hHalt h hStops))
    | faulted f hStops hLength => exact absurd hLength (not_lt_of_ge (hFault f hStops))
    | unfinished => rfl

theorem allowance_of_lt {n : Nat} (hSteps : s.machine.steps + n < UInt64.size) :
    s.allowance n = n := by
  have hLast : maxSteps + 1 = UInt64.size := rfl
  unfold allowance
  omega

/-- A run with a budget answers what is known after as many instructions. -/
theorem reported_runFor {n : Nat} (hRunning : s.machine.status = .running)
    (hSteps : s.machine.steps + n < UInt64.size) : Reported o n s (s.runFor o n).answer := by
  have hRun := runForOf_runFor o n hRunning
  generalize s.runFor o n = outcome at hRun ⊢
  cases hRun with
  | halted k t h u hAfter hBudget hStep =>
    rw [allowance_of_lt hSteps] at hBudget
    have hLast : (t.step o).answer = .ok (.halted h) := by rw [hStep]
    have hStop : (t.step o).answer ≠ .ok .executed := by simp [hLast]
    refine .halted h (hLast ▸ stops_of_after hAfter hStop) ?_
    rw [runLength_eq hAfter hStop]
    exact Nat.cast_le.mpr hBudget
  | faulted k t f u hAfter hBudget hStep =>
    rw [allowance_of_lt hSteps] at hBudget
    have hLast : (t.step o).answer = .error f := by rw [hStep]
    have hStop : (t.step o).answer ≠ .ok .executed := by simp [hLast]
    refine .faulted f (hLast ▸ stops_of_after hAfter hStop) ?_
    rw [runLength_eq hAfter hStop]
    exact Nat.cast_lt.mpr hBudget
  | exhausted t hAfter hStep =>
    rw [allowance_of_lt hSteps] at hAfter
    have hLe : (n : ℕ∞) ≤ s.runLength o := exists_after_iff.mp ⟨t, hAfter⟩
    refine .unfinished (fun h hStops => lt_of_le_of_ne hLe fun hEq => ?_) fun _ _ => hLe
    -- A halt at the end of the budget is one that the look ahead has not found.
    obtain ⟨hNot, k, u, hAfter', hLast⟩ := hStops
    rw [runLength_eq hAfter' (hLast ▸ hNot)] at hEq
    rw [Nat.cast_inj.mp hEq, hAfter'] at hAfter
    cases hAfter
    refine hStep h (t.step o).session ?_
    rw [← hLast]

/-! ## The run with a budget -/

theorem status_runFor {n : Nat} (hRunning : s.machine.status = .running) :
    (s.runFor o n).session.machine.status = Status.ofAnswer (s.runFor o n).answer := by
  have hRun := runForOf_runFor o n hRunning
  generalize s.runFor o n = outcome at hRun ⊢
  cases hRun with
  | halted k t h u hAfter hBudget hStep => exact status_of_step_halted hStep
  | faulted k t f u hAfter hBudget hStep => exact status_of_step_error hStep
  | exhausted t hAfter hStep => exact status_of_after hRunning hAfter

/-- A step that stops the machine keeps registers, memory, steps and the observer's state. -/
theorem machine_of_step_stopped (hStep : (t.step o).answer ≠ .ok .executed) :
    (t.step o).session.machine =
        { t.machine with status := (t.step o).session.machine.status } ∧
      (t.step o).session.watch = t.watch := by
  match hOutcome : t.step o with
  | ⟨.ok .executed, u⟩ => exact absurd (by rw [hOutcome]) hStep
  | ⟨.ok (.halted h), u⟩ =>
    obtain ⟨hMachine, hWatch⟩ := machine_of_step_halted hOutcome
    refine ⟨?_, hWatch⟩
    simp only [hMachine]
  | ⟨.error f, u⟩ =>
    obtain ⟨hMachine, hWatch⟩ := machine_of_step_error hOutcome
    refine ⟨?_, hWatch⟩
    simp only [hMachine]

/-- A run with a budget executes the first instructions of the unbounded run, and it makes one step
more if it stops the machine. -/
theorem runFor_first_instructions {n : Nat} (hRunning : s.machine.status = .running)
    (hSteps : s.machine.steps + n < UInt64.size) :
    ∃ (m : Nat) (t : Session σ), (m : ℕ∞) = min (n : ℕ∞) (s.runLength o) ∧
      s.after o m = some t ∧
      ((s.runFor o n).answer = .ok none ∧ (s.runFor o n).session = t ∨
        (s.runFor o n).answer ≠ .ok none ∧ (s.runFor o n).session = (t.step o).session ∧
          (t.step o).answer ≠ .ok .executed) := by
  have hRun := runForOf_runFor o n hRunning
  generalize s.runFor o n = outcome at hRun ⊢
  cases hRun with
  | halted k t h u hAfter hBudget hStep =>
    rw [allowance_of_lt hSteps] at hBudget
    have hStop : (t.step o).answer ≠ .ok .executed := by simp [hStep]
    refine ⟨k, t, ?_, hAfter, .inr ⟨by simp, by rw [hStep], hStop⟩⟩
    rw [runLength_eq hAfter hStop, min_eq_right (Nat.cast_le.mpr hBudget)]
  | faulted k t f u hAfter hBudget hStep =>
    rw [allowance_of_lt hSteps] at hBudget
    have hStop : (t.step o).answer ≠ .ok .executed := by simp [hStep]
    refine ⟨k, t, ?_, hAfter, .inr ⟨by simp, by rw [hStep], hStop⟩⟩
    rw [runLength_eq hAfter hStop, min_eq_right (Nat.cast_le.mpr (Nat.le_of_lt hBudget))]
  | exhausted t hAfter hStep =>
    rw [allowance_of_lt hSteps] at hAfter
    refine ⟨n, t, ?_, hAfter, .inl ⟨rfl, rfl⟩⟩
    rw [min_eq_left (exists_after_iff.mp ⟨t, hAfter⟩)]


/-- A run that has steps enough to count stops as the unbounded run does. -/
theorem run_of_stops {a : Except Fault Step} {n : Nat} (hStops : s.Stops o a)
    (hLength : s.runLength o ≤ n) (hSteps : s.machine.steps + n < UInt64.size) :
    (s.run o).answer = a.map Step.toRun := by
  have hLast : maxSteps + 1 = UInt64.size := rfl
  obtain ⟨hNot, k, t, hAfter, rfl⟩ := hStops
  rw [runLength_eq hAfter hNot, Nat.cast_le] at hLength
  have hCount := steps_of_after hAfter
  have hLimit : t.machine.steps < maxSteps + 1 := by omega
  rw [run, runTo_of_after hAfter (Nat.le_of_lt hLimit)]
  match hStep : t.step o with
  | ⟨.ok .executed, u⟩ => exact absurd (by rw [hStep]) hNot
  | ⟨.ok (.halted h), u⟩ =>
    rw [runTo_of_halted hLimit hStep]
    rfl
  | ⟨.error f, u⟩ =>
    rw [runTo_of_error hLimit hStep]
    rfl

/-- A run with a budget executes the first instructions of the unbounded run, as many as there are
in both. It reports a halt of the unbounded run that comes within the budget or right after it, and
a fault that comes within the budget. -/
theorem runFor_is_bounded_run (o : Observer σ) {n : Nat} (hRunning : s.machine.status = .running)
    (hSteps : s.machine.steps + n < UInt64.size) :
    (∃ (m : Nat) (t : Session σ), (m : ℕ∞) = min (n : ℕ∞) (s.runLength o) ∧
        s.after o m = some t ∧
        (s.runFor o n).session.machine =
          { t.machine with status := Status.ofAnswer (s.runFor o n).answer } ∧
        (s.runFor o n).session.machine.steps = s.machine.steps + m ∧
        (s.runFor o n).session.watch = t.watch ∧
        ((s.runFor o n).answer = .ok none → (s.runFor o n).session = t) ∧
        ((s.runFor o n).answer ≠ .ok none → (s.runFor o n).session = (t.step o).session)) ∧
      (∀ h, (s.runFor o n).answer = .ok (some h) ↔
        s.Stops o (.ok (.halted h)) ∧ s.runLength o ≤ n) ∧
      (∀ f, (s.runFor o n).answer = .error f ↔ s.Stops o (.error f) ∧ s.runLength o < n) ∧
      ((s.runFor o n).answer = .ok none ↔
        (∀ h, s.Stops o (.ok (.halted h)) → n < s.runLength o) ∧
          ∀ f, s.Stops o (.error f) → n ≤ s.runLength o) ∧
      ∀ a, s.Stops o a → s.runLength o ≤ n → (s.run o).answer = a.map Step.toRun := by
  have hReported := reported_runFor (o := o) hRunning hSteps
  have hStatus := status_runFor (o := o) (n := n) hRunning
  refine ⟨?_, fun h => ⟨fun hAnswer => ?_, fun ⟨hStops, hLength⟩ => ?_⟩,
    fun f => ⟨fun hAnswer => ?_, fun ⟨hStops, hLength⟩ => ?_⟩,
    ⟨fun hAnswer => ?_, fun ⟨hHalt, hFault⟩ => ?_⟩,
    fun a hStops hLength => run_of_stops hStops hLength hSteps⟩
  · obtain ⟨m, t, hLength, hAfter, ⟨hAnswer, hSession⟩ | ⟨hAnswer, hSession, hStop⟩⟩ :=
      runFor_first_instructions (o := o) hRunning hSteps
    · refine ⟨m, t, hLength, hAfter, ?_, ?_, ?_, fun _ => hSession, absurd hAnswer⟩
      · rw [← hStatus, hSession]
      · rw [hSession, steps_of_after hAfter]
      · rw [hSession]
    · obtain ⟨hMachine, hWatch⟩ := machine_of_step_stopped hStop
      refine ⟨m, t, hLength, hAfter, ?_, ?_, ?_, fun hNone => absurd hNone hAnswer,
        fun _ => hSession⟩
      · rw [← hStatus, hSession]
        exact hMachine
      · rw [hSession, hMachine]
        exact steps_of_after hAfter
      · rw [hSession, hWatch]
  · rw [hAnswer] at hReported
    cases hReported with
    | halted h hStops hLength => exact ⟨hStops, hLength⟩
  · exact reported_unique hReported (.halted h hStops hLength)
  · rw [hAnswer] at hReported
    cases hReported with
    | faulted f hStops hLength => exact ⟨hStops, hLength⟩
  · exact reported_unique hReported (.faulted f hStops hLength)
  · rw [hAnswer] at hReported
    cases hReported with
    | unfinished hHalt hFault => exact ⟨hHalt, hFault⟩
  · exact reported_unique hReported (.unfinished hHalt hFault)

/-- A machine that runs off the end of memory: the fault is due at once, and it takes a budget of
one instruction to find it. -/
theorem runFor_is_bounded_run_at_end :
    let c : Config := { registers := Registers.initial.set .pc 65532, memory := .zero }
    let s : Session Unit :=
      { machine := { c with }, watch := (), log := { threshold := none } }
    s.machine.status = .running ∧ s.machine.steps + 1 < UInt64.size ∧
      (s.runFor .idle 0).answer = .ok none ∧
      (s.runFor .idle 1).answer = .error ⟨65532, .outsideMemory 65535⟩ := by
  intro c s
  have hAnswer : (s.step .idle).answer = .error ⟨65532, .outsideMemory 65535⟩ := rfl
  have hNot : (s.step .idle).answer ≠ .ok .executed := by simp [hAnswer]
  have hStops := hAnswer ▸ stops_of_after after_zero hNot
  have hLength : s.runLength .idle = (0 : Nat) := runLength_eq after_zero hNot
  have hSteps : s.machine.steps + 1 < UInt64.size := by decide
  obtain ⟨-, -, -, hNone, -⟩ := runFor_is_bounded_run (n := 0) .idle (s := s) rfl (by decide)
  obtain ⟨-, -, hFault, -⟩ := runFor_is_bounded_run (n := 1) .idle (s := s) rfl hSteps
  refine ⟨rfl, hSteps, hNone.mpr ⟨fun h hHalts => ?_, fun f _ => ?_⟩,
    (hFault _).mpr ⟨hStops, ?_⟩⟩
  · cases stops_unique hStops hHalts
  · rw [hLength]
  · rw [hLength]
    exact Nat.cast_lt.mpr (by decide)

end Session

end RegisterMachine
