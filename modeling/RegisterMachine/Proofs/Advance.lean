import RegisterMachine.Proofs.Stops

/-!
# The advance of the program counter

An instruction that does not write the program counter leaves it where it is, and then the machine
moves it on by four. A fetch does not wrap around at the end of memory. So a machine cannot go
straight on for long: by the numbers of the addresses its program counter only grows, until there is
no room for another instruction.

* `pc_successor_of_straight`: an instruction that does not write the program counter.
* `pc_after_of_straight`: a run of such instructions.
* `exists_writesPc`: one among 16383 instructions that are followed by another writes it.
* `exists_stop_of_straight`: where a machine stops that goes straight on.
* `straight_runs_end`: the same for a machine that is driven in any way.
-/

namespace RegisterMachine

/-- An instruction writes the program counter if it is a jump, a conditional jump that is taken, or
if it has the program counter as its destination. -/
def Executed.WritesPc (e : Executed) : Prop :=
  match e.instruction.opcode with
  | .jump => True
  | .jumpIfZero => e.before.register e.instruction.b = 0
  | .store | .push => False
  | _ => e.instruction.a = 15

namespace Config

variable {c : Config} {i : Instruction} {k : Nat}

theorem pc_assign_of_ne (c : Config) {operand : Word} (w : Word) (h : operand ≠ 15) :
    (c.assign operand w).registers.pc = c.next := by
  rw [assign, pc_goto, if_neg h]

/-- Behind an instruction that does not write the program counter the next one follows. -/
theorem pc_successor_of_straight (h : ¬Executed.WritesPc ⟨c, i⟩) :
    (c.successor i).registers.pc = c.next := by
  obtain ⟨opcode, a, b, d⟩ := i
  cases opcode with
  | add | multiply | subtract | divide | copy | constant | load | equal | less | lessEqual | greater
  | greaterEqual => exact pc_assign_of_ne c _ h
  | store | push => exact pc_goto ..
  | jump => exact absurd trivial h
  | jumpIfZero =>
    have hNot : ¬c.register b = 0 := h
    simp only [successor, if_neg hNot, pc_goto]
  | pop =>
    simp only [successor]
    split
    · exact pc_goto ..
    · rw [pc_setRegister, if_neg (by decide)]
      exact pc_assign_of_ne c _ h

theorem pc_lt_of_upcoming? (h : c.upcoming? = some i) : c.registers.pc.toNat < 65532 := by
  have hFetch := (upcoming?_eq_some_iff.mp h).1
  by_contra hEnd
  rw [fetch_of_le (Nat.not_lt.mp hEnd)] at hFetch
  cases hFetch

/-- By the numbers of the addresses the program counter grows, without wrapping around. -/
theorem pc_after_of_straight (hLength : (c.course k).length = k)
    (hStraight : ∀ e ∈ c.course k, ¬e.WritesPc) :
    (c.after k).registers.pc.toNat = c.registers.pc.toNat + 4 * k := by
  induction k generalizing c with
  | zero => rfl
  | succ k ih =>
    cases hNext : c.upcoming? with
    | none =>
      rw [course_of_none hNext] at hLength
      cases hLength
    | some i =>
      rw [course_succ_of_some hNext] at hLength hStraight
      have hPc := pc_lt_of_upcoming? hNext
      have hStep : (c.successor i).registers.pc.toNat = c.registers.pc.toNat + 4 := by
        rw [pc_successor_of_straight (hStraight _ List.mem_cons_self), next, UInt16.toNat_add]
        exact Nat.mod_eq_of_lt (by simp; omega)
      have hRest := ih (Nat.succ.inj hLength) fun e he => hStraight e (List.mem_cons_of_mem _ he)
      rw [after_succ_of_some hNext, hRest, hStep]
      omega

/-- The number of instructions that there is room for from the program counter on. -/
def room (c : Config) : Nat :=
  (65535 - c.registers.pc.toNat) / 4

theorem le_room_of_straight (hLength : (c.course k).length = k)
    (hStraight : ∀ e ∈ c.course k, ¬e.WritesPc) : k ≤ c.room := by
  have hPc := pc_after_of_straight hLength hStraight
  have hWord := (c.after k).registers.pc.toNat_lt
  unfold room
  omega

theorem room_eq (c : Config) : c.room =
    if c.registers.pc.toNat ≤ 65531 then (65531 - c.registers.pc.toNat) / 4 + 1 else 0 := by
  have hWord := c.registers.pc.toNat_lt
  unfold room
  split <;> omega

/-- A part of a course is the course from where it starts. -/
theorem take_drop_course (hLength : (c.course k).length = k) {i j : Nat} (hLe : i + j ≤ k) :
    ((c.course k).drop i).take j = (c.after i).course j ∧
      ((c.after i).course j).length = j := by
  have hFirst := length_course_of_le hLength (Nat.le_of_add_right_le hLe)
  have hBoth := length_course_of_le hLength hLe
  rw [course_add, List.length_append, hFirst, Nat.add_left_cancel_iff] at hBoth
  obtain ⟨d, rfl⟩ := Nat.exists_eq_add_of_le hLe
  refine ⟨?_, hBoth⟩
  rw [Nat.add_assoc, course_add, List.drop_left' hFirst, course_add, List.take_left' hBoth]

/-- There is no room in memory for 16384 instructions, so the last of them is executed only if an
earlier one has written the program counter. -/
theorem exists_writesPc (hLength : (c.course k).length = k) {i : Nat} (hWindow : i + 16384 ≤ k) :
    ∃ e ∈ ((c.course k).drop i).take 16383, e.WritesPc := by
  obtain ⟨hPart, hFirst⟩ := take_drop_course hLength (i := i) (j := 16383) (by omega)
  obtain ⟨-, hAll⟩ := take_drop_course hLength hWindow
  rw [hPart]
  by_contra hNone
  have hPc := pc_after_of_straight hFirst fun e he hWrites => hNone ⟨e, he, hWrites⟩
  obtain ⟨last, hLast⟩ := exists_upcoming?_of_course hAll
  have hRoom := pc_lt_of_upcoming? hLast
  omega

/-- A machine that goes straight on comes to a stop. If it gets to the end of memory, it stops there
because there are no four words left. -/
theorem exists_stop_of_straight (hStraight : ∀ e ∈ c.course c.room, ¬e.WritesPc) :
    ∃ (n : Nat) (stop : Except Fault Halt), n ≤ c.room ∧ (c.course n).length = n ∧
      (c.after n).verdict = stop.map .halted ∧
      (n = c.room →
        stop = .error ⟨.ofNat (c.registers.pc.toNat + 4 * n), .outsideMemory 65535⟩) := by
  have hLe := length_course_le c c.room
  obtain ⟨hCourse, hAfter⟩ := course_length_course c c.room
  by_cases hShort : (c.course c.room).length < c.room
  · obtain ⟨stop, hVerdict⟩ := exists_stop_of_upcoming? (upcoming?_after_of_lt hShort)
    refine ⟨_, stop, hLe, congrArg List.length hCourse, ?_, fun hFull => ?_⟩
    · rw [hAfter, hVerdict]
    · exact absurd hFull (Nat.ne_of_lt hShort)
  · have hFull : (c.course c.room).length = c.room := by omega
    have hPc := pc_after_of_straight hFull hStraight
    have hEnd : 65532 ≤ (c.after c.room).registers.pc.toNat := by
      rw [hPc]
      unfold room
      omega
    refine ⟨c.room, .error ⟨(c.after c.room).registers.pc, .outsideMemory 65535⟩, Nat.le_refl _,
      hFull, verdict_of_le hEnd, fun _ => ?_⟩
    rw [← hPc, UInt16.ofNat_toNat]

end Config

namespace Session

variable {σ : Type}

/-- A machine is driven in any way. Of any 16384 instructions that it executes one after another one
of the first 16383 writes the program counter. As long as none does, the program counter grows
without wrapping around, and no more instructions are executed than there is room for. A machine
whose instructions never write it halts or faults after at most as many, and if it has executed all
of them it faults because it cannot fetch another one. -/
theorem straight_runs_end (s : Session σ) (drives : List (Drive σ)) :
    let m := s.machine
    let t := s.performAll (drives.map .drive)
    let p := m.registers.pc.toNat
    let most := if p ≤ 65531 then (65531 - p) / 4 + 1 else 0
    (∃ k, Follows s k t ∧
      (∀ i, i + 16384 ≤ k → ∃ e ∈ ((m.course k).drop i).take 16383, e.WritesPc) ∧
      ((∀ e ∈ m.course k, ¬e.WritesPc) →
        k ≤ most ∧ ∀ j ≤ k, (m.after j).registers.pc.toNat = p + 4 * j)) ∧
      (m.status = .running → (∀ e ∈ m.course most, ¬e.WritesPc) →
        ∃ n stop, n ≤ most ∧ m.StopsAfter n stop ∧
          (n = most → stop = .error ⟨.ofNat (p + 4 * n), .outsideMemory 65535⟩) ∧
          ∀ o, m.steps + n < UInt64.size →
            (s.run o).answer = stop.map some ∧
              (s.run o).session.machine.steps = m.steps + n) := by
  intro m t p most
  have hMost : m.room = most := m.room_eq
  refine ⟨?_, fun hRunning hStraight => ?_⟩
  · obtain ⟨k, hFollows⟩ := follows_driven s drives
    refine ⟨k, hFollows, fun i hWindow => ?_, fun hStraight => ⟨?_, fun j hLe => ?_⟩⟩
    · exact Config.exists_writesPc hFollows.length hWindow
    · rw [← hMost]
      exact Config.le_room_of_straight hFollows.length hStraight
    · exact Config.pc_after_of_straight (Config.length_course_of_le hFollows.length hLe)
        fun e he => hStraight e (Config.mem_course_of_le hLe he)
  · rw [← hMost] at hStraight ⊢
    obtain ⟨n, stop, hLe, hLength, hVerdict, hFull⟩ := Config.exists_stop_of_straight hStraight
    have hStop : m.StopsAfter n stop := (Machine.stopsAfter_iff hRunning).mpr ⟨hLength, hVerdict⟩
    refine ⟨n, stop, hLe, hStop, hFull, fun o hSteps => ?_⟩
    obtain ⟨hAnswer, hArrives⟩ := run_of_stopsAfter o hRunning hStop hSteps
    exact ⟨hAnswer, hArrives.steps⟩

/-- There is room for one more instruction before the end of memory. Behind it the machine faults,
and it does not go on at address zero. -/
theorem straight_runs_end_at_end :
    let i : Instruction := ⟨.constant, 0, 7, 0⟩
    let m : Machine :=
      { registers := Registers.initial.set .pc 65528, memory := Memory.zero.poke 65528 i.encode }
    let s : Session Unit := { machine := m, watch := (), log := { threshold := none } }
    m.status = .running ∧ (∀ e ∈ m.course 1, ¬e.WritesPc) ∧
      (s.run .idle).answer = .error ⟨65532, .outsideMemory 65535⟩ ∧
      (s.run .idle).session.machine.steps = 1 := by
  intro i m s
  have hPc : m.registers.pc.toNat = 65528 := rfl
  have hFetch : m.fetch = .ok (.instruction i) := by
    apply Config.fetch_of_slice
    have hWords : 65528 + i.encode.length ≤ 65535 := by decide
    rw [hPc]
    exact Memory.slice_poke Memory.zero hWords
  have hNext : m.upcoming? = some i := Config.upcoming?_eq_some_iff.mpr ⟨hFetch, rfl⟩
  have hStraight : ∀ e ∈ m.course 1, ¬e.WritesPc := by
    intro e he
    rw [Config.course_succ_of_some hNext, Config.course_zero, List.mem_singleton] at he
    have hOther : (0 : Word) ≠ 15 := by decide
    rw [he]
    exact hOther
  obtain ⟨-, hEnds⟩ := straight_runs_end s []
  have hPc' : s.machine.registers.pc.toNat = 65528 := hPc
  have hMost : (if 65528 ≤ 65531 then (65531 - 65528) / 4 + 1 else 0) = 1 := rfl
  rw [hPc', hMost] at hEnds
  obtain ⟨n, stop, hLe, hStop, hFull, hRun⟩ := hEnds rfl hStraight
  obtain rfl : n = 1 := by
    have hVerdict := ((Machine.stopsAfter_iff rfl).mp hStop).2
    have hSome : n ≠ 0 := by
      rintro rfl
      exact absurd (hNext.symm.trans (Config.upcoming?_of_verdict hVerdict)) nofun
    omega
  obtain ⟨hAnswer, hSteps⟩ := hRun .idle (by decide)
  rw [hFull rfl] at hAnswer
  exact ⟨rfl, hStraight, hAnswer, hSteps⟩

end Session

end RegisterMachine
