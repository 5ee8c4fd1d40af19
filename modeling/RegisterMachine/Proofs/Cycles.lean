import RegisterMachine.Proofs.Listings

/-!
# Cycles

What a machine does next depends on its registers and its memory alone. So a machine that comes back
to a configuration goes around in a cycle: it executes the same instructions again and again,
whatever looks on and however it is driven, and it never stops.

* `Leads.after_mod`: on a cycle only the remainder by its length matters.
* `Machine.Endless`: a machine whose course goes on forever, and what calls answer that drive it.
* `repetitions_never_stop`: a machine that comes back to a configuration.
-/

namespace RegisterMachine

namespace Config.Leads

variable {c d : Config} {k p : Nat}

/-- A cycle can be followed several times. -/
theorem repeated (h : Leads c p c) (q : Nat) : Leads c (p * q) c := by
  induction q with
  | zero => exact .refl c
  | succ q ih => exact ih.trans h

theorem after_mod (h : Leads c p c) (n : Nat) : c.after n = c.after (n % p) := by
  conv_lhs => rw [← Nat.div_add_mod n p]
  rw [after_add, (h.repeated (n / p)).after]

/-- From a cycle on the course goes on forever. -/
theorem length_course_of_cycle (h : Leads c p c) (hPositive : 0 < p) (n : Nat) :
    (c.course n).length = n :=
  length_course_of_le (h.repeated n).length (Nat.le_mul_of_pos_left n hPositive)

/-- A machine that gets to a cycle is in the same place whenever it has gone around. -/
theorem after_of_le (h : Leads c k d) (hCycle : Leads d p d) {n : Nat} (hLe : k ≤ n) :
    c.after n = c.after (k + (n - k) % p) := by
  obtain ⟨m, rfl⟩ := Nat.exists_eq_add_of_le hLe
  rw [Nat.add_sub_cancel_left, after_add, after_add, h.after, hCycle.after_mod]

end Config.Leads

/-- A machine that runs, and whose course goes on forever. -/
structure Machine.Endless (m : Machine) : Prop where
  running : m.status = .running
  length (n : Nat) : (m.course n).length = n

namespace Session

variable {σ : Type} {s t : Session σ} {k : Nat}

/-! ## Machines that never stop -/

theorem endless_of_leads {d : Config} {p : Nat} (hRunning : s.machine.status = .running)
    (h : s.machine.Leads k d) (hCycle : d.Leads p d) (hPositive : 0 < p) :
    s.machine.Endless := by
  refine ⟨hRunning, fun n => ?_⟩
  have hBehind := hCycle.length_course_of_cycle hPositive n
  have hBoth : (s.machine.course (k + n)).length = k + n := by
    rw [Config.course_add, List.length_append, h.length, h.after, hBehind]
  exact Config.length_course_of_le hBoth (Nat.le_add_left n k)

/-- A machine that never stops is at no point about to stop. -/
theorem answer_of_endless {o : Observer σ} (h : s.machine.Endless) (hAfter : s.after o k = some t) :
    (t.step o).answer = .ok .executed := by
  obtain ⟨i, hNext⟩ := Config.exists_upcoming?_of_course (h.length (k + 1))
  rw [verdict_of_after h.running hAfter]
  by_contra hStop
  rw [Config.upcoming?_eq_none_iff.mpr hStop] at hNext
  cases hNext

theorem step_of_endless (o : Observer σ) (h : s.machine.Endless) :
    (s.step o).session.machine.Endless := by
  have hStep := step_eq_of_answer (answer_of_endless (o := o) h after_zero)
  refine ⟨(status_of_step_executed hStep).2, fun n => ?_⟩
  have hFirst := leads_of_after (after_succ_of_executed hStep 0)
  have hBoth : s.machine.Leads (1 + n) _ := ⟨h.length (1 + n), rfl⟩
  exact (hBoth.rest hFirst).length

theorem drive_of_endless (h : s.machine.Endless) (d : Drive σ) : (s.drive d).machine.Endless :=
  drive_of_step (P := fun t => t.machine.Endless) d (fun _ => step_of_endless d.observer) h

theorem performAll_of_endless (h : s.machine.Endless) (drives : List (Drive σ)) :
    (s.performAll (drives.map .drive)).machine.Endless := by
  induction drives generalizing s with
  | nil => exact h
  | cons d drives ih => exact ih (drive_of_endless h d)

theorem runFor_of_endless (o : Observer σ) (h : s.machine.Endless) (n : Nat) :
    (s.runFor o n).answer = .ok none := by
  have hRun := runForOf_runFor o n h.running
  generalize s.runFor o n = outcome at hRun ⊢
  cases hRun with
  | exhausted t hAfter hStep => rfl
  | halted k t _ u hAfter _ hStep | faulted k t _ u hAfter _ hStep =>
    have hAnswer := answer_of_endless h hAfter
    rw [hStep] at hAnswer
    cases hAnswer

theorem run_of_endless (o : Observer σ) (h : s.machine.Endless) : (s.run o).answer = .ok none := by
  have hRun : RunOf o (maxSteps + 1) s (s.run o) := runOf_runTo ..
  generalize s.run o = outcome at hRun ⊢
  cases hRun with
  | exhausted t hAfter => rfl
  | halted k t _ u hAfter _ hStep | faulted k t _ u hAfter _ hStep =>
    have hAnswer := answer_of_endless h hAfter
    rw [hStep] at hAnswer
    cases hAnswer

/-- A machine that has the same registers and the same memory after two different numbers of
instructions never stops. A run with a budget always uses it up, and after it the machine is where
it was in its first round. However the machine is driven, nothing that drives it reports a halt or a
fault. -/
theorem repetitions_never_stop {o : Observer σ} {s t u : Session σ} {i j : Nat}
    (hRunning : s.machine.status = .running) (hLt : i < j) (hFirst : s.after o i = some t)
    (hAgain : s.after o j = some u) (hSame : u.machine.toConfig = t.machine.toConfig)
    (p : Observer σ) :
    (∀ n, s.machine.steps + n < UInt64.size →
      ∃ v, s.runFor p n = ⟨.ok none, v⟩ ∧ s.after p n = some v ∧ v.machine.status = .running ∧
        v.machine.steps = s.machine.steps + n) ∧
      (∀ n, i ≤ n →
        ∃ v w, s.after p n = some v ∧ s.after p (i + (n - i) % (j - i)) = some w ∧
          v.machine.toConfig = w.machine.toConfig) ∧
      ∀ drives : List (Drive σ),
        let v := s.performAll (drives.map .drive)
        v.machine.status = .running ∧
          ∀ q, (v.step q).answer = .ok .executed ∧ (∀ n, (v.runFor q n).answer = .ok none) ∧
            (v.run q).answer = .ok none := by
  have hPath := leads_of_after hFirst
  have hLonger := leads_of_after hAgain
  rw [hSame, ← Nat.add_sub_cancel' (Nat.le_of_lt hLt)] at hLonger
  have hCycle := hLonger.rest hPath
  have hEndless := endless_of_leads hRunning hPath hCycle (Nat.sub_pos_of_lt hLt)
  refine ⟨fun n hSteps => ?_, fun n hLe => ?_, fun drives => ?_⟩
  · obtain ⟨v, hRun, hAfter⟩ := runFor_of_leads p hRunning
      ⟨hEndless.length (n + 1), rfl⟩ (Nat.lt_succ_self n) hSteps
    exact ⟨v, hRun, hAfter, status_of_after hRunning hAfter, steps_of_after hAfter⟩
  · obtain ⟨v, hAfter⟩ := exists_after_of_course p hRunning (hEndless.length n)
    obtain ⟨w, hEarlier⟩ :=
      exists_after_of_course p hRunning (hEndless.length (i + (n - i) % (j - i)))
    refine ⟨v, w, hAfter, hEarlier, ?_⟩
    rw [(follows_of_after hAfter).config, (follows_of_after hEarlier).config,
      hPath.after_of_le hCycle hLe]
  · have hDriven := performAll_of_endless hEndless drives
    exact ⟨hDriven.running, fun q => ⟨answer_of_endless hDriven after_zero,
      runFor_of_endless q hDriven, run_of_endless q hDriven⟩⟩

/-- A loop of two instructions behind one that is executed only once. -/
theorem repetitions_never_stop_behind_constant :
    let program : List Instruction :=
      [⟨.constant, 0, 7, 0⟩, ⟨.constant, 1, 0, 0⟩, ⟨.jumpIfZero, 4, 1, 0⟩]
    let s : Session Unit :=
      { machine := .boot (Memory.zero.poke 0 (program.flatMap Instruction.encode))
        watch := ()
        log := { threshold := none } }
    ∃ t u, s.machine.status = .running ∧ s.after .idle 1 = some t ∧ s.after .idle 3 = some u ∧
      u.machine.toConfig = t.machine.toConfig ∧ t.machine.registers ≠ s.machine.registers ∧
      (s.runFor .idle 1000).answer = .ok none := by
  intro program s
  have hCode : s.machine.memory.Lists 0 program := Memory.lists_poke .zero (by decide)
  let c := s.machine.successor ⟨.constant, 0, 7, 0⟩
  let d := c.successor ⟨.constant, 1, 0, 0⟩
  have hEntry : s.machine.Leads 1 c := Config.leads_of_lists hCode 0 rfl rfl rfl
  have hBody : c.Leads 1 d := Config.leads_of_lists hCode 1 rfl rfl rfl
  have hBack : d.Leads 1 (d.successor ⟨.jumpIfZero, 4, 1, 0⟩) :=
    Config.leads_of_lists hCode 2 rfl rfl rfl
  have hSame : d.successor ⟨.jumpIfZero, 4, 1, 0⟩ = c :=
    congrArg₂ Config.mk (by decide) rfl
  rw [hSame] at hBack
  obtain ⟨t, hFirst, hMachine⟩ := after_of_leads .idle rfl hEntry
  obtain ⟨u, hAgain, hMachine'⟩ := after_of_leads .idle rfl (hEntry.trans (hBody.trans hBack))
  have hConfig : u.machine.toConfig = t.machine.toConfig := by rw [hMachine, hMachine']
  obtain ⟨hRun, -⟩ := repetitions_never_stop rfl (by decide) hFirst hAgain hConfig .idle
  obtain ⟨v, hOutcome, -⟩ := hRun 1000 (by decide)
  refine ⟨t, u, rfl, hFirst, hAgain, hConfig, ?_, by rw [hOutcome]⟩
  rw [hMachine]
  decide

end Session

end RegisterMachine
