import RegisterMachine.Proofs.Listings

/-!
# Counting down

A program of seven instructions that counts one register down to zero and another one up: three
constants and a loop of four instructions. It counts before it tests, so from zero it counts all
words through.

* `Counting`: the registers and memory between any two instructions of the loop.
* `Counting.subtract`, `Counting.add`, `Counting.equal`, `Counting.jump`: the instructions of the
  loop, one by one.
* `loop`: all rounds, by induction on their number.
* `run_counts_down`: a run of the program.
-/

namespace RegisterMachine

namespace Countdown

def program (n : Word) : List Instruction :=
  [⟨.constant, 0, n, 0⟩, ⟨.constant, 1, 1, 0⟩, ⟨.constant, 2, 0, 0⟩,
    ⟨.subtract, 0, 0, 1⟩, ⟨.add, 3, 3, 1⟩, ⟨.equal, 4, 0, 2⟩, ⟨.jumpIfZero, 12, 4, 0⟩]

/-- How often a register is decremented until it is zero. -/
def rounds (x : Word) : Nat :=
  if x = 0 then 65536 else x.toNat

theorem rounds_eq (x : Word) : rounds x = (x - 1).toNat + 1 := by
  unfold rounds
  split
  · next hZero =>
    rw [hZero]
    rfl
  · next hOther =>
    have hNumber : x.toNat ≠ 0 := UInt16.toNat_inj.ne.mpr hOther
    have hSub := UInt16.toNat_sub x 1
    have hLt := x.toNat_lt
    simp at hSub
    omega

theorem rounds_le (x : Word) : rounds x ≤ 65536 := by
  rw [rounds_eq]
  exact (x - 1).toNat_lt

theorem rounds_of_last {x : Word} (h : x - 1 = 0) : rounds x = 1 := by
  rw [rounds_eq, h]
  rfl

theorem rounds_of_other {x : Word} (h : x - 1 ≠ 0) : rounds x = rounds (x - 1) + 1 := by
  rw [rounds_eq, rounds, if_neg h]

/-- The registers of a machine that counts down, `x` to go and `y` done. -/
structure Counting (m : Memory) (pc x y : Word) (c : Config) : Prop where
  memory : c.memory = m
  pc : c.registers.pc = pc
  left : c.register 0 = x
  one : c.register 1 = 1
  zero : c.register 2 = 0
  done : c.register 3 = y
  others (q : Word) (hOther : 5 ≤ q.toNat) (hPc : q ≠ 15) :
    c.register q = (Machine.boot m).register q

variable {m : Memory} {n pc x y : Word} {c : Config}

namespace Counting

/-- The constants are kept when another register is written. -/
theorem assign (h : Counting m pc x y c) (a w : Word) (ha : a.toNat < 5) (hOne : a ≠ 1)
    (hZero : a ≠ 2) :
    Counting m (pc + 4) (if a = 0 then w else x) (if a = 3 then w else y) (c.assign a w) := by
  have hRegister := Config.register_assign c (show a.toNat < 15 by omega) w
  constructor
  · rw [Config.memory_assign, h.memory]
  · rw [← Config.register_pc, hRegister, if_pos rfl, Config.next, h.pc]
  · rw [hRegister, if_neg (by decide), h.left]
    simp only [eq_comm]
  · rw [hRegister, if_neg (by decide), if_neg hOne.symm, h.one]
  · rw [hRegister, if_neg (by decide), if_neg hZero.symm, h.zero]
  · rw [hRegister, if_neg (by decide), h.done]
    simp only [eq_comm]
  · intro q hOther hPc
    have hFree : q ≠ a := by
      rintro rfl
      omega
    rw [hRegister, if_neg hPc, if_neg hFree, h.others q hOther hPc]

theorem goto (h : Counting m pc x y c) (target : Word) : Counting m target x y (c.goto target) := by
  have hRegister := Config.register_goto c target
  constructor
  · exact h.memory
  · exact Config.pc_goto ..
  · rw [hRegister, if_neg (by decide), h.left]
  · rw [hRegister, if_neg (by decide), h.one]
  · rw [hRegister, if_neg (by decide), h.zero]
  · rw [hRegister, if_neg (by decide), h.done]
  · intro q hOther hPc
    rw [hRegister, if_neg hPc, h.others q hOther hPc]

/-- An instruction of the program is executed. -/
theorem leads (h : Counting m pc x y c) (hCode : m.Lists 0 (program n)) (k : Nat) {i : Instruction}
    (hGet : (program n)[k]? = some i) (hPc : pc.toNat = 4 * k) (hChecks : c.obstacle? i = none) :
    c.Leads 1 (c.successor i) := by
  rw [← h.memory] at hCode
  exact Config.leads_of_lists hCode k hGet (by rw [h.pc, hPc, Nat.zero_add]) hChecks

/-! ## The instructions of the loop -/

theorem subtract (h : Counting m 12 x y c) (hCode : m.Lists 0 (program n)) :
    ∃ d, c.Leads 1 d ∧ Counting m 16 (x - 1) y d := by
  refine ⟨_, h.leads hCode 3 rfl rfl rfl, ?_⟩
  rw [Config.successor_subtract, h.left, h.one]
  exact h.assign 0 (x - 1) (by decide) (by decide) (by decide)

theorem add (h : Counting m 16 x y c) (hCode : m.Lists 0 (program n)) :
    ∃ d, c.Leads 1 d ∧ Counting m 20 x (y + 1) d := by
  refine ⟨_, h.leads hCode 4 rfl rfl rfl, ?_⟩
  rw [Config.successor_add, h.done, h.one]
  exact h.assign 3 (y + 1) (by decide) (by decide) (by decide)

/-- The result of the comparison is left in the fifth register. -/
theorem equal (h : Counting m 20 x y c) (hCode : m.Lists 0 (program n)) :
    ∃ d, c.Leads 1 d ∧ Counting m 24 x y d ∧ d.register 4 = if x = 0 then 1 else 0 := by
  refine ⟨_, h.leads hCode 5 rfl rfl rfl, ?_⟩
  have hSuccessor : c.successor ⟨.equal, 4, 0, 2⟩ = c.assign 4 (if x = 0 then 1 else 0) := by
    simp only [Config.successor, h.left, h.zero, UInt16.toNat_inj]
  rw [hSuccessor]
  refine ⟨h.assign 4 _ (by decide) (by decide) (by decide), ?_⟩
  rw [Config.register_assign c (by decide), if_neg (by decide), if_pos rfl]

/-- The jump goes back unless the count has come to zero. -/
theorem jump (h : Counting m 24 x y c) (hCode : m.Lists 0 (program n))
    (hFlag : c.register 4 = if x = 0 then 1 else 0) :
    ∃ d, c.Leads 1 d ∧ Counting m (if x = 0 then 28 else 12) x y d ∧
      d.register 4 = if x = 0 then 1 else 0 := by
  refine ⟨_, h.leads hCode 6 rfl rfl rfl, ?_⟩
  have hSuccessor : c.successor ⟨.jumpIfZero, 12, 4, 0⟩ = c.goto (if x = 0 then 28 else 12) := by
    simp only [Config.successor, hFlag, Config.next, h.pc]
    by_cases hZero : x = 0
    · rw [if_pos hZero, if_pos hZero, if_neg (by decide)]
      rfl
    · rw [if_neg hZero, if_neg hZero, if_pos rfl]
  rw [hSuccessor]
  refine ⟨h.goto _, ?_⟩
  rw [Config.register_goto, if_neg (by decide), hFlag]

end Counting

/-! ## Rounds -/

theorem round (h : Counting m 12 x y c) (hCode : m.Lists 0 (program n)) :
    ∃ d, c.Leads 4 d ∧ Counting m (if x - 1 = 0 then 28 else 12) (x - 1) (y + 1) d ∧
      d.register 4 = if x - 1 = 0 then 1 else 0 := by
  obtain ⟨d₁, hSubtract, h₁⟩ := h.subtract hCode
  obtain ⟨d₂, hAdd, h₂⟩ := h₁.add hCode
  obtain ⟨d₃, hEqual, h₃, hFlag⟩ := h₂.equal hCode
  obtain ⟨d₄, hJump, h₄, hFlag'⟩ := h₃.jump hCode hFlag
  exact ⟨d₄, ((hSubtract.trans hAdd).trans hEqual).trans hJump, h₄, hFlag'⟩

/-- The loop is left when the count gets to zero, after as many rounds as it takes to get there. -/
theorem loop (h : Counting m 12 x y c) (hCode : m.Lists 0 (program n)) :
    ∃ d, c.Leads (4 * rounds x) d ∧ Counting m 28 0 (y + x) d ∧ d.register 4 = 1 := by
  -- The sum of what is done and what is to go is the same in every round.
  induction hRounds : rounds x generalizing x y c with
  | zero =>
    rw [rounds_eq] at hRounds
    omega
  | succ k ih =>
    obtain ⟨d, hRound, hNext, hFlag⟩ := round h hCode
    by_cases hLast : x - 1 = 0
    · rw [rounds_of_last hLast] at hRounds
      obtain rfl : k = 0 := by omega
      have hOne : x = 1 := by grind
      rw [if_pos hLast, hLast] at hNext
      rw [if_pos hLast] at hFlag
      refine ⟨d, hRound, ?_, hFlag⟩
      rw [hOne]
      exact hNext
    · rw [rounds_of_other hLast, Nat.add_right_cancel_iff] at hRounds
      rw [if_neg hLast] at hNext
      obtain ⟨e, hRest, hEnd, hDone⟩ := ih hNext hRounds
      have hSum : y + 1 + (x - 1) = y + x := by grind
      rw [hSum] at hEnd
      refine ⟨e, ?_, hEnd, hDone⟩
      rw [Nat.mul_succ, Nat.add_comm]
      exact hRound.trans hRest

/-! ## The whole program -/

/-- The constants, in front of the loop. -/
theorem setup (hCode : m.Lists 0 (program n)) :
    ∃ d, (Machine.boot m).Leads 3 d ∧ Counting m 12 n 0 d := by
  let b : Config := (Machine.boot m).toConfig
  let c₁ := b.successor ⟨.constant, 0, n, 0⟩
  let c₂ := c₁.successor ⟨.constant, 1, 1, 0⟩
  let d := c₂.successor ⟨.constant, 2, 0, 0⟩
  have hFirst : b.Leads 1 c₁ := Config.leads_of_lists hCode 0 rfl rfl rfl
  have hSecond : c₁.Leads 1 c₂ := Config.leads_of_lists hCode 1 rfl rfl rfl
  have hThird : c₂.Leads 1 d := Config.leads_of_lists hCode 2 rfl rfl rfl
  have hRegister (q : Word) (hPc : q ≠ 15) : d.register q =
      if q = 2 then 0 else if q = 1 then 1 else if q = 0 then n else b.register q := by
    change (((b.assign 0 n).assign 1 1).assign 2 0).register q = _
    rw [Config.register_assign _ (by decide), Config.register_assign _ (by decide),
      Config.register_assign _ (by decide), if_neg hPc, if_neg hPc, if_neg hPc]
  refine ⟨d, (hFirst.trans hSecond).trans hThird, rfl, rfl, ?_, ?_, ?_, ?_, fun q hOther hPc => ?_⟩
  · exact hRegister 0 (by decide)
  · exact hRegister 1 (by decide)
  · exact hRegister 2 (by decide)
  · exact hRegister 3 (by decide)
  · have hFree (r : Word) (hr : r.toNat < 5) : q ≠ r := by
      rintro rfl
      omega
    rw [hRegister q hPc, if_neg (hFree 2 (by decide)), if_neg (hFree 1 (by decide)),
      if_neg (hFree 0 (by decide))]

/-- The constants and all rounds of the loop. -/
theorem exists_counted (hCode : m.Lists 0 (program n)) :
    ∃ d, (Machine.boot m).Leads (3 + 4 * rounds n) d ∧ Counting m 28 0 n d ∧
      d.register 4 = 1 := by
  obtain ⟨c, hSetup, hStart⟩ := setup hCode
  obtain ⟨d, hLoop, hCounted, hFlag⟩ := loop hStart hCode
  rw [UInt16.zero_add] at hCounted
  exact ⟨d, hSetup.trans hLoop, hCounted, hFlag⟩

theorem verdict_of_end (h : Counting m 28 x y c)
    (hEnd : ∀ opcode : Opcode, opcode.toWord ≠ m.get 28) :
    c.verdict = .ok (.halted ⟨28, m.get 28⟩) := by
  have hFetch : c.fetch = .ok (.undefined (m.get 28)) := by
    rw [Config.fetch_eq_undefined_iff (by rw [h.pc]; decide), h.pc]
    refine ⟨?_, hEnd⟩
    rw [← h.memory]
    rfl
  rw [Config.verdict, hFetch, h.pc]

variable {σ : Type} {s : Session σ}

/-- A new machine that has the program in memory, with no operation behind it, counts down and
halts. The first register is zero then, and the fourth has got to where the first one began. A run
with a budget that is less than the number of instructions reports nothing. -/
theorem run_counts_down (o : Observer σ) (hBoot : s.machine = .boot m)
    (hCode : m.Lists 0 (program n)) (hEnd : ∀ opcode : Opcode, opcode.toWord ≠ m.get 28) :
    let k := 3 + 4 * rounds n
    let t := (s.run o).session.machine
    (s.run o).answer = .ok (some ⟨28, m.get 28⟩) ∧ t.steps = k ∧ t.memory = m ∧
      t.register 0 = 0 ∧ t.register 1 = 1 ∧ t.register 2 = 0 ∧ t.register 3 = n ∧
      t.register 4 = 1 ∧
      (∀ q : Word, 5 ≤ q.toNat → q ≠ 15 → t.register q = (Machine.boot m).register q) ∧
      ∀ budget < k, (s.runFor o budget).answer = .ok none := by
  intro k t
  obtain ⟨d, hPath, hCounted, hFlag⟩ := exists_counted hCode
  have hRunning : s.machine.status = .running := by rw [hBoot]; rfl
  have hZero : s.machine.steps = 0 := by rw [hBoot]; rfl
  rw [← hBoot] at hPath
  have hSize : k < UInt64.size := by
    have hRounds := rounds_le n
    unfold k UInt64.size
    omega
  have hStop : d.verdict = (Except.ok ⟨28, m.get 28⟩ : Except Fault Halt).map .halted :=
    verdict_of_end hCounted hEnd
  obtain ⟨hAnswer, hMachine⟩ := Session.run_of_leads o hRunning hPath hStop (by omega)
  have hConfig : t.toConfig = d := congrArg Machine.toConfig hMachine
  have hSteps : t.steps = s.machine.steps + k := congrArg Machine.steps hMachine
  refine ⟨hAnswer, ?_, ?_, ?_, ?_, ?_, ?_, ?_, fun q hOther hPc => ?_, fun budget hLt => ?_⟩
  · rw [hSteps, hZero, Nat.zero_add]
  · rw [hConfig, hCounted.memory]
  · rw [hConfig, hCounted.left]
  · rw [hConfig, hCounted.one]
  · rw [hConfig, hCounted.zero]
  · rw [hConfig, hCounted.done]
  · rw [hConfig, hFlag]
  · rw [hConfig, hCounted.others q hOther hPc]
  · obtain ⟨u, hRun, -⟩ := Session.runFor_of_leads o hRunning hPath hLt (by omega)
    rw [hRun]

/-- From zero all words are counted through. -/
theorem run_counts_down_from_zero :
    let m := Memory.zero.poke 0 ((program 0).flatMap Instruction.encode)
    let s : Session Unit := { machine := .boot m, watch := (), log := { threshold := none } }
    m.Lists 0 (program 0) ∧ (∀ opcode : Opcode, opcode.toWord ≠ m.get 28) ∧
      (s.run .idle).answer = .ok (some ⟨28, 0⟩) ∧ (s.run .idle).session.machine.steps = 262147 ∧
      (s.runFor .idle 262146).answer = .ok none := by
  intro m s
  have hCode : m.Lists 0 (program 0) := Memory.lists_poke .zero (by decide)
  have hWord : m.get 28 = 0 := by decide
  have hEnd (opcode : Opcode) : opcode.toWord ≠ m.get 28 := by
    rw [hWord]
    cases opcode <;> decide
  obtain ⟨hAnswer, hSteps, -, -, -, -, -, -, -, hBudgets⟩ :=
    run_counts_down (s := s) .idle rfl hCode hEnd
  refine ⟨hCode, hEnd, ?_, hSteps, hBudgets 262146 (by decide)⟩
  rw [hAnswer, hWord]

end Countdown

end RegisterMachine
