import RegisterMachine.Proofs.Determinism

/-!
# Where a machine stops

A machine that is left alone executes a number of instructions and stops behind them, or it never
stops (`Machine.StopsAfter`). Where it stops is read off its course, and a run that can count as
many steps ends there.

* `stopsAfter_iff`, `stopsAfter_unique`: where a machine stops by its course.
* `run_of_stopsAfter`: a run of a machine that stops.
-/

namespace RegisterMachine

namespace Machine

/-- A session of a machine that nobody looks at. -/
def alone (m : Machine) : Session Unit :=
  { machine := m, watch := (), log := { threshold := none } }

/-- A machine executes a number of instructions, and the next step stops it. -/
def StopsAfter (m : Machine) (k : Nat) (stop : Except Fault Halt) : Prop :=
  ∃ t, m.alone.after .idle k = some t ∧ (t.step .idle).answer = stop.map .halted

/-- A machine neither halts within a number of instructions nor faults with fewer of them executed
before. -/
def Outlasts (m : Machine) (n : Nat) : Prop :=
  (∀ k h, m.StopsAfter k (.ok h) → n < k) ∧ ∀ k f, m.StopsAfter k (.error f) → n ≤ k

variable {m : Machine} {k : Nat} {stop : Except Fault Halt}

theorem stopsAfter_iff (hRunning : m.status = .running) :
    m.StopsAfter k stop ↔ (m.course k).length = k ∧ (m.after k).verdict = stop.map .halted := by
  constructor
  · rintro ⟨t, hAfter, hStop⟩
    refine ⟨(Session.follows_of_after hAfter).length, ?_⟩
    rw [← hStop]
    exact (Session.verdict_of_after hRunning hAfter).symm
  · rintro ⟨hLength, hVerdict⟩
    obtain ⟨t, hAfter⟩ := Session.exists_after_of_course (s := m.alone) .idle hRunning hLength
    exact ⟨t, hAfter, (Session.verdict_of_after hRunning hAfter).trans hVerdict⟩

theorem map_halted_inj {stop stop' : Except Fault Halt}
    (h : stop.map Step.halted = stop'.map Step.halted) : stop = stop' := by
  cases stop <;> cases stop' <;> cases h <;> rfl

/-- A machine stops only once. -/
theorem stopsAfter_unique {j : Nat} {stop' : Except Fault Halt} (h : m.StopsAfter k stop)
    (h' : m.StopsAfter j stop') : k = j ∧ stop = stop' := by
  obtain ⟨t, hAfter, hStop⟩ := h
  obtain ⟨u, hAfter', hStop'⟩ := h'
  have hLength : (k : ℕ∞) = j := by
    rw [← Session.runLength_eq hAfter (Session.answer_ne_executed hStop),
      ← Session.runLength_eq hAfter' (Session.answer_ne_executed hStop')]
  cases Nat.cast_inj.mp hLength
  rw [hAfter'] at hAfter
  cases hAfter
  exact ⟨rfl, map_halted_inj (hStop.symm.trans hStop')⟩

end Machine

namespace Config

variable {c : Config} {k : Nat} {stop : Except Fault Halt}

/-- A machine does not stop before the last instruction of a course. -/
theorem exists_upcoming?_of_course (hLength : (c.course (k + 1)).length = k + 1) :
    ∃ i, (c.after k).upcoming? = some i := by
  cases hNext : (c.after k).upcoming? with
  | some i => exact ⟨i, rfl⟩
  | none =>
    have hShort := length_course_le c k
    rw [(course_of_stop hNext (Nat.le_succ k)).1] at hLength
    omega

theorem upcoming?_of_verdict (h : c.verdict = stop.map .halted) : c.upcoming? = none :=
  upcoming?_eq_none_iff.mpr (Session.answer_ne_executed h)

/-- A machine that executes no instruction stops. -/
theorem exists_stop_of_upcoming? (h : c.upcoming? = none) :
    ∃ stop : Except Fault Halt, c.verdict = stop.map .halted := by
  match hVerdict : c.verdict with
  | .ok .executed => exact absurd hVerdict (upcoming?_eq_none_iff.mp h)
  | .ok (.halted h) => exact ⟨.ok h, rfl⟩
  | .error f => exact ⟨.error f, rfl⟩

end Config

namespace Session

variable {σ : Type} {s : Session σ} {k : Nat} {stop : Except Fault Halt}

/-- A run gets to where the machine stops if as many steps can be counted. -/
theorem run_of_stopsAfter (o : Observer σ) (hRunning : s.machine.status = .running)
    (hStop : s.machine.StopsAfter k stop) (hSteps : s.machine.steps + k < UInt64.size) :
    (s.run o).answer = stop.map some ∧ Arrives s k true (s.run o).session := by
  obtain ⟨hLength, hVerdict⟩ := (Machine.stopsAfter_iff hRunning).mp hStop
  obtain ⟨hAnswer, hArrives⟩ :=
    arrives_run o hRunning hLength (Config.upcoming?_of_verdict hVerdict) hSteps
  refine ⟨?_, hArrives⟩
  rw [hAnswer, hVerdict]
  cases stop <;> rfl

end Session

end RegisterMachine
