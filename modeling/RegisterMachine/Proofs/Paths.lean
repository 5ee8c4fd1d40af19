import RegisterMachine.Proofs.Stops

/-!
# Paths

A configuration leads to another one if a number of instructions are executed on the way. Paths are
laid one behind the other, and a running machine goes along every path that starts where it is,
whatever looks on. While it is on a path it does not stop, and if the path ends where a machine
stops, a run ends there.

* `Leads.trans`, `Leads.rest`: paths in two portions.
* `after_of_leads`: a machine goes along a path.
* `runFor_of_leads`, `run_of_leads`: a run with a budget that ends on a path, and a run to its end.
-/

namespace RegisterMachine

namespace Config

variable {c d e : Config} {i : Instruction} {j k n : Nat}

/-- A number of instructions are executed from a configuration on and lead to another one. -/
structure Leads (c : Config) (k : Nat) (d : Config) : Prop where
  length : (c.course k).length = k
  after : c.after k = d

namespace Leads

theorem refl (c : Config) : Leads c 0 c :=
  ⟨rfl, rfl⟩

theorem single (h : c.upcoming? = some i) : Leads c 1 (c.successor i) :=
  ⟨by rw [course_succ_of_some h, course_zero, List.length_singleton], after_succ_of_some h 0⟩

theorem trans (h : Leads c j d) (h' : Leads d k e) : Leads c (j + k) e := by
  constructor
  · rw [course_add, List.length_append, h.length, h.after, h'.length]
  · rw [after_add, h.after, h'.after]

/-- A path starts with all paths that are shorter. -/
theorem of_le (h : Leads c k d) (hLe : j ≤ k) : Leads c j (c.after j) :=
  ⟨length_course_of_le h.length hLe, rfl⟩

/-- What is left of a path behind another one. -/
theorem rest (h : Leads c (j + k) e) (h' : Leads c j d) : Leads d k e := by
  have hLength := h.length
  rw [course_add, List.length_append, h'.length, h'.after, Nat.add_left_cancel_iff] at hLength
  exact ⟨hLength, by rw [← h'.after, ← after_add, h.after]⟩

/-- A budget that ends on a path does not see the machine stop. -/
theorem stopsBy (h : Leads c k d) (hLt : n < k) : c.stopsBy n = false := by
  have hNext := length_course_of_le h.length (Nat.succ_le_of_lt hLt)
  refine stopsBy_of_full (length_course_of_le h.length (Nat.le_of_lt hLt)) fun halt hHalt => ?_
  obtain ⟨i, hUpcoming⟩ := exists_upcoming?_of_course hNext
  have hNone : (c.after n).upcoming? = none := upcoming?_eq_none_iff.mpr (by simp [hHalt])
  rw [hUpcoming] at hNone
  cases hNone

end Leads

end Config

namespace Session

variable {σ : Type} {o : Observer σ} {s t : Session σ} {c : Config} {k n : Nat}

theorem leads_of_after (hAfter : s.after o k = some t) :
    s.machine.Leads k t.machine.toConfig :=
  ⟨(follows_of_after hAfter).length, (follows_of_after hAfter).config.symm⟩

/-- A running machine goes along a path, whatever looks on. -/
theorem after_of_leads (o : Observer σ) (hRunning : s.machine.status = .running)
    (h : s.machine.Leads k c) :
    ∃ t, s.after o k = some t ∧
      t.machine = { toConfig := c, steps := s.machine.steps + k, status := .running } := by
  obtain ⟨t, hAfter⟩ := exists_after_of_course o hRunning h.length
  have hFollows := follows_of_after hAfter
  refine ⟨t, hAfter, ?_⟩
  rw [← h.after, ← hFollows.config, ← hFollows.steps, ← status_of_after hRunning hAfter]

theorem step_of_leads (o : Observer σ) (hRunning : s.machine.status = .running)
    (h : s.machine.Leads 1 c) :
    ∃ t, s.step o = ⟨.ok .executed, t⟩ ∧
      t.machine = { toConfig := c, steps := s.machine.steps + 1, status := .running } := by
  obtain ⟨u, hAfter, hMachine⟩ := after_of_leads o hRunning h
  obtain ⟨t, hStep, hRest⟩ := after_succ_eq_some_iff.mp hAfter
  cases hRest
  exact ⟨u, hStep, hMachine⟩

/-- A run with a budget that is used up on a path. -/
theorem runFor_of_leads (o : Observer σ) (hRunning : s.machine.status = .running)
    (h : s.machine.Leads k c) (hLt : n < k) (hSteps : s.machine.steps + n < UInt64.size) :
    ∃ t, s.runFor o n = ⟨.ok none, t⟩ ∧ s.after o n = some t := by
  have hRun := endsAt_runFor (n := n) o hRunning hSteps
  rw [(h.of_le (Nat.le_of_lt hLt)).length, h.stopsBy hLt] at hRun
  generalize s.runFor o n = outcome at hRun ⊢
  cases hRun with
  | running t hAfter => exact ⟨t, rfl, hAfter⟩

/-- A run to the end of a path, where the machine stops. -/
theorem run_of_leads (o : Observer σ) (hRunning : s.machine.status = .running)
    (h : s.machine.Leads k c) {stop : Except Fault Halt} (hStop : c.verdict = stop.map .halted)
    (hSteps : s.machine.steps + k < UInt64.size) :
    (s.run o).answer = stop.map some ∧
      (s.run o).session.machine =
        { toConfig := c, steps := s.machine.steps + k, status := .stopped stop } := by
  obtain ⟨hLength, rfl⟩ := h
  obtain ⟨hAnswer, hArrives⟩ :=
    run_of_stopsAfter o hRunning ((Machine.stopsAfter_iff hRunning).mpr ⟨hLength, hStop⟩) hSteps
  have hStatus : (s.run o).session.machine.status = .stopped stop :=
    hArrives.status.trans (Status.ofStep_eq_stopped_iff.mpr hStop)
  exact ⟨hAnswer, by rw [← hArrives.config, ← hArrives.steps, ← hStatus]⟩

end Session

end RegisterMachine
