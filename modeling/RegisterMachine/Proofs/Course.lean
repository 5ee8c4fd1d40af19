import RegisterMachine.Proofs.Operations

/-!
# The course of a machine

What a machine executes depends on its configuration alone. `Config.course` lists the first
instructions that are executed from a configuration on, each with the configuration that it is
executed in, and `Config.after` is the configuration that they lead to. Observers, budgets and the
way in which a machine is driven only decide how far it follows its course.

* `course_add`, `after_add`: a course can be followed in two portions.
* `follows_of_after`, `exists_after_of_course`: executing instructions in a session follows the
  course of its machine, as far as that goes.
* `follows_driven`: so does driving it in any way, and the steps that are counted tell how far.
-/

namespace RegisterMachine

/-- An executed instruction, and the configuration in which it is executed. -/
structure Executed where
  before : Config
  instruction : Instruction

def Executed.after (e : Executed) : Config :=
  e.before.successor e.instruction

namespace Config

/-- The instruction that is executed next, unless the machine stops instead. -/
def upcoming? (c : Config) : Option Instruction :=
  match c.fetch with
  | .ok (.instruction i) => if c.obstacle? i = none then some i else none
  | _ => none

/-- The first instructions to be executed, as many as asked for and there are. -/
def course : Nat → Config → List Executed
  | 0, _ => []
  | k + 1, c =>
    match c.upcoming? with
    | some i => ⟨c, i⟩ :: course k (c.successor i)
    | none => []

/-- The configuration after the first instructions, as many as asked for and there are. -/
def after : Nat → Config → Config
  | 0, c => c
  | k + 1, c =>
    match c.upcoming? with
    | some i => after k (c.successor i)
    | none => c

variable {c : Config} {i : Instruction}

theorem upcoming?_eq_some_iff :
    c.upcoming? = some i ↔ c.fetch = .ok (.instruction i) ∧ c.obstacle? i = none := by
  unfold upcoming?
  split
  · next j hFetch =>
    rw [hFetch]
    simp only [Option.ite_none_right_eq_some, Option.some.injEq, Except.ok.injEq,
      Fetched.instruction.injEq]
    constructor
    · rintro ⟨hChecks, rfl⟩
      exact ⟨rfl, hChecks⟩
    · rintro ⟨rfl, hChecks⟩
      exact ⟨hChecks, rfl⟩
  · next hOther =>
    constructor
    · intro h
      cases h
    · rintro ⟨hFetch, -⟩
      exact absurd hFetch (hOther i)

@[simp]
theorem course_zero (c : Config) : c.course 0 = [] :=
  rfl

@[simp]
theorem after_zero (c : Config) : c.after 0 = c :=
  rfl

theorem course_succ_of_some (h : c.upcoming? = some i) (k : Nat) :
    c.course (k + 1) = ⟨c, i⟩ :: (c.successor i).course k := by
  simp [course, h]

theorem after_succ_of_some (h : c.upcoming? = some i) (k : Nat) :
    c.after (k + 1) = (c.successor i).after k := by
  simp [after, h]

theorem course_of_none (h : c.upcoming? = none) (k : Nat) : c.course k = [] := by
  cases k <;> simp [course, h]

theorem after_of_none (h : c.upcoming? = none) (k : Nat) : c.after k = c := by
  cases k <;> simp [after, h]

theorem length_course_le (c : Config) (k : Nat) : (c.course k).length ≤ k := by
  induction k generalizing c with
  | zero => exact Nat.le_refl 0
  | succ k ih =>
    cases h : c.upcoming? with
    | none => simp [course_of_none h]
    | some i =>
      rw [course_succ_of_some h]
      exact Nat.succ_le_succ (ih _)

/-- What is executed in two portions is executed at once. -/
theorem course_add (c : Config) (j k : Nat) :
    c.course (j + k) = c.course j ++ (c.after j).course k := by
  induction j generalizing c with
  | zero => simp
  | succ j ih =>
    rw [Nat.succ_add]
    cases h : c.upcoming? with
    | none => simp only [course_of_none h, after_of_none h, List.nil_append]
    | some i => rw [course_succ_of_some h, course_succ_of_some h, after_succ_of_some h, ih,
        List.cons_append]

theorem after_add (c : Config) (j k : Nat) : c.after (j + k) = (c.after j).after k := by
  induction j generalizing c with
  | zero => simp
  | succ j ih =>
    rw [Nat.succ_add]
    cases h : c.upcoming? with
    | none => simp only [after_of_none h]
    | some i => rw [after_succ_of_some h, after_succ_of_some h, ih]

/-- As long as a course goes on, it has as many instructions as are asked for. -/
theorem length_course_of_le {j k : Nat} (h : (c.course k).length = k) (hLe : j ≤ k) :
    (c.course j).length = j := by
  obtain ⟨d, rfl⟩ := Nat.exists_eq_add_of_le hLe
  rw [course_add, List.length_append] at h
  have hFirst := length_course_le c j
  have hSecond := length_course_le (c.after j) d
  omega

theorem mem_course_of_le {j k : Nat} {e : Executed} (hLe : j ≤ k) (h : e ∈ c.course j) :
    e ∈ c.course k := by
  obtain ⟨d, rfl⟩ := Nat.exists_eq_add_of_le hLe
  rw [course_add]
  exact List.mem_append_left _ h

/-- The instruction at a position of a course, with those before it and behind it. -/
theorem exists_course_eq_append_cons {j k : Nat} (h : (c.course k).length = k) (hLt : j < k) :
    ∃ e es, c.course (j + 1) = c.course j ++ [e] ∧ c.course k = c.course j ++ e :: es ∧
      es.length + 1 = k - j := by
  have hFirst := length_course_of_le h (Nat.le_of_lt hLt)
  have hNext : (c.course (j + 1)).length = j + 1 := length_course_of_le h hLt
  obtain ⟨d, rfl⟩ : ∃ d, k = j + 1 + d := Nat.exists_eq_add_of_le hLt
  have hOne := hNext
  rw [course_add, List.length_append, hFirst, Nat.add_left_cancel_iff] at hOne
  obtain ⟨e, he⟩ := List.length_eq_one_iff.mp hOne
  have hStep : c.course (j + 1) = c.course j ++ [e] := by rw [course_add, he]
  rw [course_add, List.length_append, hNext, Nat.add_left_cancel_iff] at h
  refine ⟨e, (c.after (j + 1)).course d, hStep, ?_, by omega⟩
  rw [course_add, hStep, List.append_assoc]
  rfl

/-- An instruction in a course is executed where the instructions before it have led to. -/
theorem course_eq_append_cons {k : Nat} {es fs : List Executed} {e : Executed}
    (h : c.course k = es ++ e :: fs) :
    c.course es.length = es ∧ c.after es.length = e.before ∧
      e.before.upcoming? = some e.instruction := by
  induction es generalizing c k with
  | nil =>
    cases k with
    | zero => cases h
    | succ k =>
      cases hNext : c.upcoming? with
      | none => simp [course_of_none hNext] at h
      | some i =>
        rw [course_succ_of_some hNext] at h
        cases h
        exact ⟨rfl, rfl, hNext⟩
  | cons d es ih =>
    cases k with
    | zero => cases h
    | succ k =>
      cases hNext : c.upcoming? with
      | none => simp [course_of_none hNext] at h
      | some i =>
        rw [course_succ_of_some hNext, List.cons_append, List.cons.injEq] at h
        obtain ⟨rfl, hRest⟩ := h
        obtain ⟨hCourse, hAfter, hUpcoming⟩ := ih hRest
        rw [List.length_cons, course_succ_of_some hNext, after_succ_of_some hNext, hCourse]
        exact ⟨rfl, hAfter, hUpcoming⟩

end Config

namespace Session

variable {σ : Type} {o : Observer σ} {s t u : Session σ}

theorem upcoming?_of_step_executed (hStep : s.step o = ⟨.ok .executed, t⟩) :
    ∃ i, s.machine.upcoming? = some i ∧
      t = (s.note (.executing s.machine.registers.pc i)).complete o i := by
  have hCase := stepOf_step o (status_of_step_executed hStep).1
  rw [hStep] at hCase
  cases hCase with
  | executed i hFetch hChecks => exact ⟨i, Config.upcoming?_eq_some_iff.mpr ⟨hFetch, hChecks⟩, rfl⟩

theorem step_of_upcoming? {i : Instruction} (o : Observer σ)
    (hRunning : s.machine.status = .running) (h : s.machine.upcoming? = some i) :
    s.step o = ⟨.ok .executed, (s.note (.executing s.machine.registers.pc i)).complete o i⟩ := by
  obtain ⟨hFetch, hChecks⟩ := Config.upcoming?_eq_some_iff.mp h
  exact step_of_obstacle?_eq_none o hRunning hFetch hChecks

/-- A machine has followed a course for a number of instructions, which are counted. -/
structure Follows (s : Session σ) (k : Nat) (t : Session σ) : Prop where
  length : (s.machine.course k).length = k
  config : t.machine.toConfig = s.machine.after k
  steps : t.machine.steps = s.machine.steps + k

theorem Follows.refl (s : Session σ) : Follows s 0 s :=
  ⟨rfl, rfl, rfl⟩

theorem Follows.trans {j k : Nat} (hFirst : Follows s j t) (hSecond : Follows t k u) :
    Follows s (j + k) u := by
  refine ⟨?_, ?_, ?_⟩
  · rw [Config.course_add, List.length_append, hFirst.length, ← hFirst.config, hSecond.length]
  · rw [Config.after_add, ← hFirst.config, hSecond.config]
  · rw [hSecond.steps, hFirst.steps, Nat.add_assoc]

theorem follows_of_step_executed (hStep : s.step o = ⟨.ok .executed, t⟩) : Follows s 1 t := by
  obtain ⟨i, hNext, rfl⟩ := upcoming?_of_step_executed hStep
  refine ⟨?_, ?_, ?_⟩
  · rw [Config.course_succ_of_some hNext]
    rfl
  · rw [Config.after_succ_of_some hNext, machine_complete]
    rfl
  · rw [machine_complete]
    rfl

theorem follows_of_after {k : Nat} (hAfter : s.after o k = some t) : Follows s k t := by
  induction k generalizing s with
  | zero =>
    cases hAfter
    exact .refl _
  | succ k ih =>
    obtain ⟨u, hStep, hRest⟩ := after_succ_eq_some_iff.mp hAfter
    rw [Nat.add_comm]
    exact (follows_of_step_executed hStep).trans (ih hRest)

/-- A running machine can be made to follow its course for as long as that goes on. -/
theorem exists_after_of_course (o : Observer σ) {k : Nat}
    (hRunning : s.machine.status = .running) (h : (s.machine.course k).length = k) :
    ∃ t, s.after o k = some t := by
  induction k generalizing s with
  | zero => exact ⟨s, rfl⟩
  | succ k ih =>
    cases hNext : s.machine.upcoming? with
    | none => simp [Config.course_of_none hNext] at h
    | some i =>
      have hStep := step_of_upcoming? o hRunning hNext
      have hFirst := follows_of_step_executed hStep
      rw [Config.course_succ_of_some hNext, List.length_cons, Nat.add_right_cancel_iff] at h
      have hConfig := hFirst.config
      rw [Config.after_succ_of_some hNext, Config.after_zero] at hConfig
      obtain ⟨u, hRest⟩ := ih (status_of_step_executed hStep).2 (by rw [hConfig]; exact h)
      exact ⟨u, by rw [after_succ_of_executed hStep, hRest]⟩

theorem follows_step (s : Session σ) (o : Observer σ) : ∃ k, Follows s k (s.step o).session := by
  by_cases hStep : (s.step o).answer = .ok .executed
  · exact ⟨1, follows_of_step_executed (step_eq_of_answer hStep)⟩
  · obtain ⟨hMachine, -⟩ := machine_of_step_stopped hStep
    refine ⟨0, rfl, ?_, ?_⟩
    · rw [hMachine]
      rfl
    · rw [hMachine]
      rfl

theorem follows_drive (s : Session σ) (d : Drive σ) : ∃ k, Follows s k (s.drive d) := by
  refine drive_of_step (P := fun t => ∃ k, Follows s k t) d ?_ ⟨0, .refl s⟩
  rintro t ⟨j, hFirst⟩
  obtain ⟨k, hSecond⟩ := follows_step t d.observer
  exact ⟨j + k, hFirst.trans hSecond⟩

/-- A machine that is only driven follows its course. -/
theorem follows_driven (s : Session σ) (drives : List (Drive σ)) :
    ∃ k, Follows s k (s.performAll (drives.map .drive)) := by
  induction drives generalizing s with
  | nil => exact ⟨0, .refl s⟩
  | cons d drives ih =>
    obtain ⟨j, hFirst⟩ := follows_drive s d
    obtain ⟨k, hSecond⟩ := ih (s.drive d)
    exact ⟨j + k, hFirst.trans hSecond⟩

end Session

end RegisterMachine
