import RegisterMachine.Proofs.Determinism
import RegisterMachine.Proofs.Programs

/-!
# Straight-line programs

A program that only calculates, and leaves the program counter alone, runs from its first
instruction to its last and stops behind that, or at the first instruction that fails. What it does
to the registers is told without a machine: `calculate` is the fold of what the single instructions
do to a register file, in which the program counter reads as the address of each instruction in
turn.

* `execute_eq_commit`: an instruction that calculates, in place and as a function of the registers.
* `course_of_calculate_ok`, `course_of_calculate_error`: a machine follows the fold as far as it
  goes.
* `verdict_behind_program`: what stops a machine behind its last instruction.
* `straight_line_programs_calculate`: what a straight-line image does when it is loaded and run. It
  halts behind its last instruction, unless it is so long that there is no room for another.
-/

namespace RegisterMachine

/-! ## Calculations -/

/-- Is it an operation that only puts a word into a register? -/
def Opcode.isCalculation : Opcode → Bool
  | .add | .multiply | .subtract | .divide | .copy | .constant | .load | .equal | .less
  | .lessEqual | .greater | .greaterEqual => true
  | .store | .jump | .jumpIfZero | .pop | .push => false

namespace Instruction

/-- An instruction that calculates a register other than the program counter. -/
structure Straight (i : Instruction) : Prop where
  opcode : i.opcode.isCalculation
  target : i.a ≠ 15

instance (i : Instruction) : Decidable i.Straight :=
  decidable_of_iff (i.opcode.isCalculation ∧ i.a ≠ 15)
    ⟨fun h => ⟨h.1, h.2⟩, fun h => ⟨h.opcode, h.target⟩⟩

/-- A function of the second and the third register of an instruction. -/
def ofRegisters (i : Instruction) (regs : Registers) (f : Word → Word → Except FaultCause Word) :
    Except FaultCause Word := do
  let x ← regs.read i.b
  let y ← regs.read i.c
  f x y

/-- The word that an instruction calculates from the registers and the words of an image. The
operations that calculate nothing are given a zero. -/
def value (i : Instruction) (image : List Word) (regs : Registers) : Except FaultCause Word :=
  match i.opcode with
  | .add => i.ofRegisters regs fun x y => .ok (x + y)
  | .multiply => i.ofRegisters regs fun x y => .ok (x * y)
  | .subtract => i.ofRegisters regs fun x y => .ok (x - y)
  | .divide => i.ofRegisters regs fun x y => if y = 0 then .error .divisionByZero else .ok (x / y)
  | .copy => regs.read i.b
  | .constant => .ok i.b
  | .load =>
    if i.b.toNat < 65535 then .ok (image.getD i.b.toNat 0) else .error (.outsideMemory i.b.toNat)
  | .equal => i.ofRegisters regs fun x y => .ok (if x = y then 1 else 0)
  | .less => i.ofRegisters regs fun x y => .ok (if x < y then 1 else 0)
  | .lessEqual => i.ofRegisters regs fun x y => .ok (if x ≤ y then 1 else 0)
  | .greater => i.ofRegisters regs fun x y => .ok (if x > y then 1 else 0)
  | .greaterEqual => i.ofRegisters regs fun x y => .ok (if x ≥ y then 1 else 0)
  | .store | .jump | .jumpIfZero | .pop | .push => .ok 0

/-- What an instruction does to the registers. -/
def effect (i : Instruction) (image : List Word) (regs : Registers) :
    Except FaultCause Registers := do
  let w ← i.value image regs
  regs.write i.a w

end Instruction

/-- Where a calculation fails: the number of the instruction, the cause, and the registers that it
was going to work on. -/
structure Breakdown where
  index : Nat
  cause : FaultCause
  registers : Registers

/-- One instruction of a calculation, with its number. The program counter reads as its address. -/
def calculateStep (image : List Word) (regs : Registers) (p : Instruction × Nat) :
    Except Breakdown Registers :=
  let regs := regs.set .pc (.ofNat (4 * p.2))
  (p.1.effect image regs).mapError fun cause => { index := p.2, cause, registers := regs }

/-- The registers after all instructions of a program, from those of a new machine. -/
def calculate (image : List Word) (program : List Instruction) : Except Breakdown Registers :=
  program.zipIdx.foldlM (calculateStep image) .initial

/-! ## In place -/

namespace Config

/-- What is left by a part of an execution that reads a word or fails. -/
def yield {α : Type} (c : Config) : Except FaultCause α → EStateM.Result FaultCause Config α
  | .ok a => .ok a c
  | .error cause => .error cause c

/-- What is left by an execution that changes the registers or fails. -/
def commit (c : Config) : Except FaultCause Registers → EStateM.Result FaultCause Config Unit
  | .ok registers => .ok () { c with registers }
  | .error cause => .error cause c

end Config

namespace Execution

variable {c : Config} {image : List Word} {i : Instruction}

theorem bind_yield {α : Type} {x : Execution α} {result : Except FaultCause α}
    (hx : x c = c.yield result) {f : α → Execution Unit} {g : α → Except FaultCause Registers}
    (hf : ∀ a, f a c = c.commit (g a)) : (x >>= f) c = c.commit (result >>= g) := by
  change EStateM.bind x f c = _
  unfold EStateM.bind
  rw [hx]
  cases result with
  | error cause => rfl
  | ok a => exact hf a

theorem readRegister_eq_yield (operand : Word) (c : Config) :
    readRegister operand c = c.yield (c.registers.read operand) := by
  unfold readRegister
  cases c.registers.read operand <;> rfl

theorem readMemory_eq_yield (n : Nat) (c : Config) :
    readMemory n c = c.yield (c.memory.read n) := by
  unfold readMemory
  cases c.memory.read n <;> rfl

theorem writeRegister_eq_commit (operand w : Word) (c : Config) :
    writeRegister operand w c = c.commit (c.registers.write operand w) := by
  unfold writeRegister Registers.write
  cases Register.ofWord operand <;> rfl

theorem faultIf_eq_yield (p : Prop) [Decidable p] (cause : FaultCause) (c : Config) :
    faultIf p cause c = c.yield (if p then .error cause else .ok ()) := by
  unfold faultIf
  split <;> rfl

theorem combine_eq_commit (i : Instruction) {f : Word → Word → Word}
    {g : Word → Word → Except FaultCause Word} (hWord : ∀ x y, g x y = .ok (f x y)) (c : Config) :
    combine i f c = c.commit (i.ofRegisters c.registers g >>= c.registers.write i.a) := by
  unfold combine Instruction.ofRegisters
  rw [bind_assoc]
  refine bind_yield (readRegister_eq_yield ..) fun x => ?_
  rw [bind_assoc]
  refine bind_yield (readRegister_eq_yield ..) fun y => ?_
  rw [hWord, writeRegister_eq_commit]
  rfl

theorem compare_eq_commit (i : Instruction) {f : Word → Word → Bool}
    {g : Word → Word → Except FaultCause Word}
    (hWord : ∀ x y, g x y = .ok (if f x y then 1 else 0)) (c : Config) :
    compare i f c = c.commit (i.ofRegisters c.registers g >>= c.registers.write i.a) :=
  combine_eq_commit i hWord c

theorem quotient_eq_commit (i : Instruction) (c : Config) :
    quotient i c = c.commit (i.ofRegisters c.registers
      (fun x y => if y = 0 then .error .divisionByZero else .ok (x / y)) >>=
        c.registers.write i.a) := by
  unfold quotient Instruction.ofRegisters
  rw [bind_assoc]
  refine bind_yield (readRegister_eq_yield ..) fun x => ?_
  rw [bind_assoc]
  refine bind_yield (readRegister_eq_yield ..) fun y => ?_
  have hQuotient := bind_yield (faultIf_eq_yield (y = 0) .divisionByZero c) fun _ =>
    writeRegister_eq_commit i.a (x / y) c
  refine hQuotient.trans (congrArg c.commit ?_)
  dsimp only
  split <;> rfl

/-- A load finds a word of the image, or a zero behind it. -/
theorem readMemory_eq_yield_image (hMemory : c.memory = Memory.zero.poke 0 image) (x : Word) :
    readMemory x.toNat c = c.yield (if x.toNat < 65535 then .ok (image.getD x.toNat 0)
      else .error (.outsideMemory x.toNat)) := by
  rw [readMemory_eq_yield, hMemory]
  split
  · next h => rw [Memory.read_of_lt _ h, Memory.get_poke_zero]
  · next h => rw [Memory.read_of_le _ (Nat.not_lt.mp h)]

/-- An instruction that calculates, executed in place, has its effect on the registers and no
other. -/
theorem execute_eq_commit (hOpcode : i.opcode.isCalculation)
    (hMemory : c.memory = Memory.zero.poke 0 image) :
    i.execute c = c.commit (i.effect image c.registers) := by
  obtain ⟨opcode, a, b, k⟩ := i
  cases opcode with
  | add | multiply | subtract => exact combine_eq_commit _ (fun _ _ => rfl) c
  | equal | less | lessEqual | greater | greaterEqual =>
    exact compare_eq_commit _ (fun _ _ => by simp) c
  | divide => exact quotient_eq_commit ..
  | copy => exact bind_yield (readRegister_eq_yield ..) fun w => writeRegister_eq_commit ..
  | constant => exact writeRegister_eq_commit ..
  | load =>
    exact bind_yield (readMemory_eq_yield_image hMemory b) fun w => writeRegister_eq_commit ..
  | store | jump | jumpIfZero | pop | push => cases hOpcode

end Execution

/-! ## One instruction -/

theorem Registers.pc_of_write {regs regs' : Registers} {operand w : Word} (hOther : operand ≠ 15)
    (h : regs.write operand w = .ok regs') : regs'.pc = regs.pc := by
  by_cases hOperand : operand.toNat < 16
  · rw [write_of_lt _ hOperand] at h
    cases h
    refine get_set_of_ne _ _ fun hEq => hOther ?_
    have hNumber : operand.toNat = 15 := congrArg Fin.val hEq
    exact UInt16.toNat_inj.mp hNumber
  · rw [write_of_le _ (Nat.not_lt.mp hOperand)] at h
    cases h

theorem Instruction.pc_of_effect {i : Instruction} {image : List Word} {regs regs' : Registers}
    (hTarget : i.a ≠ 15) (h : i.effect image regs = .ok regs') : regs'.pc = regs.pc := by
  unfold effect at h
  cases hValue : i.value image regs with
  | error cause =>
    rw [hValue] at h
    cases h
  | ok w =>
    rw [hValue] at h
    exact Registers.pc_of_write hTarget h

namespace Config

variable {c : Config} {image : List Word} {i : Instruction} {j : Nat}

/-- An instruction fails in place if its effect does. -/
theorem obstacle?_of_effect_error (hOpcode : i.opcode.isCalculation)
    (hMemory : c.memory = Memory.zero.poke 0 image) {cause : FaultCause}
    (h : i.effect image c.registers = .error cause) : c.obstacle? i = some cause := by
  have hExecute := Execution.execute_eq_commit hOpcode hMemory
  rw [Execution.execute_apply, h] at hExecute
  cases hCase : c.obstacle? i with
  | none =>
    rw [hCase] at hExecute
    cases hExecute
  | some cause' =>
    rw [hCase] at hExecute
    cases hExecute
    rfl

/-- An instruction that does not fail leaves its effect, and the program counter goes on. -/
theorem successor_of_effect_ok (hOpcode : i.opcode.isCalculation)
    (hMemory : c.memory = Memory.zero.poke 0 image) {regs : Registers}
    (h : i.effect image c.registers = .ok regs) :
    c.obstacle? i = none ∧ c.successor i = Config.advance { c with registers := regs } := by
  have hExecute := Execution.execute_eq_commit hOpcode hMemory
  rw [Execution.execute_apply, h] at hExecute
  cases hCase : c.obstacle? i with
  | none =>
    rw [hCase] at hExecute
    injection hExecute with hUnit hConfig
    exact ⟨rfl, by rw [← hConfig, advance_retreat]⟩
  | some cause =>
    rw [hCase] at hExecute
    cases hExecute

/-! ## All instructions -/

theorem address_succ (j : Nat) :
    (UInt16.ofNat (4 * j) : Word) + Instruction.size = .ofNat (4 * (j + 1)) := by
  rw [Nat.mul_succ, UInt16.ofNat_add]
  rfl

/-- An instruction of a calculation that does not fail is executed, and it is the turn of the next
one. -/
theorem successor_of_calculateStep {regs regs' : Registers} (hStraight : i.Straight)
    (hMemory : c.memory = Memory.zero.poke 0 image)
    (hRegisters : c.registers = regs.set .pc (.ofNat (4 * j)))
    (hFetch : c.fetch = .ok (.instruction i))
    (h : calculateStep image regs (i, j) = .ok regs') :
    c.upcoming? = some i ∧
      c.successor i = { c with registers := regs'.set .pc (.ofNat (4 * (j + 1))) } := by
  unfold calculateStep at h
  dsimp only at h
  rw [← hRegisters] at h
  cases hEffect : i.effect image c.registers with
  | error cause =>
    rw [hEffect] at h
    cases h
  | ok regs'' =>
    rw [hEffect] at h
    cases h
    obtain ⟨hChecks, hSuccessor⟩ := successor_of_effect_ok hStraight.opcode hMemory hEffect
    have hPc : regs'.pc = .ofNat (4 * j) := by
      rw [Instruction.pc_of_effect hStraight.target hEffect, hRegisters]
      exact Registers.get_set_self ..
    refine ⟨upcoming?_eq_some_iff.mpr ⟨hFetch, hChecks⟩, ?_⟩
    rw [hSuccessor, advance, hPc, address_succ]

/-- An instruction of a calculation that fails is where the machine faults. -/
theorem verdict_of_calculateStep {regs : Registers} {e : Breakdown} (hStraight : i.Straight)
    (hMemory : c.memory = Memory.zero.poke 0 image)
    (hRegisters : c.registers = regs.set .pc (.ofNat (4 * j)))
    (hFetch : c.fetch = .ok (.instruction i))
    (h : calculateStep image regs (i, j) = .error e) :
    e.index = j ∧ e.registers = c.registers ∧ c.registers.pc = .ofNat (4 * j) ∧
      c.verdict = .error ⟨.ofNat (4 * j), e.cause⟩ := by
  unfold calculateStep at h
  dsimp only at h
  rw [← hRegisters] at h
  cases hEffect : i.effect image c.registers with
  | ok regs' =>
    rw [hEffect] at h
    cases h
  | error cause =>
    rw [hEffect] at h
    cases h
    have hObstacle := obstacle?_of_effect_error hStraight.opcode hMemory hEffect
    have hPc : c.registers.pc = .ofNat (4 * j) := by
      rw [hRegisters]
      exact Registers.get_set_self ..
    refine ⟨rfl, rfl, hPc, ?_⟩
    rw [← hPc]
    exact (verdict_eq_error_iff hFetch).mpr hObstacle

/-- A machine that is about to execute the rest of a straight-line program from an image. -/
structure Poised (image : List Word) (rest : List Instruction) (j : Nat) (regs : Registers)
    (c : Config) : Prop where
  memory : c.memory = Memory.zero.poke 0 image
  registers : c.registers = regs.set .pc (.ofNat (4 * j))
  words : image.drop (4 * j) = rest.flatMap Instruction.encode
  straight : ∀ i ∈ rest, i.Straight

variable {rest : List Instruction} {regs : Registers}

theorem Poised.fetch (hFits : image.length ≤ 65535) (h : Poised image (i :: rest) j regs c) :
    c.fetch = .ok (.instruction i) := by
  refine fetch_of_drop hFits h.memory ?_ (h.words.trans List.flatMap_cons)
  rw [h.registers]
  exact Registers.get_set_self ..

theorem Poised.next {regs' : Registers} (h : Poised image (i :: rest) j regs c) :
    Poised image rest (j + 1) regs'
      { c with registers := regs'.set .pc (.ofNat (4 * (j + 1))) } := by
  refine ⟨h.memory, rfl, ?_, fun i hi => h.straight i (List.mem_cons_of_mem _ hi)⟩
  rw [Nat.mul_succ, ← List.drop_drop, h.words, List.flatMap_cons]
  exact List.drop_left' rfl

/-- A machine executes a calculation that does not fail to its end. -/
theorem course_of_calculate_ok {regs' : Registers} (hFits : image.length ≤ 65535)
    (h : Poised image rest j regs c)
    (hOk : (rest.zipIdx j).foldlM (calculateStep image) regs = .ok regs') :
    (c.course rest.length).length = rest.length ∧
      c.after rest.length =
        { c with registers := regs'.set .pc (.ofNat (4 * (j + rest.length))) } := by
  induction rest generalizing j regs c with
  | nil =>
    cases hOk
    refine ⟨rfl, ?_⟩
    rw [List.length_nil, Nat.add_zero, ← h.registers]
    rfl
  | cons i rest ih =>
    rw [List.zipIdx_cons, List.foldlM_cons] at hOk
    cases hStep : calculateStep image regs (i, j) with
    | error e =>
      rw [hStep] at hOk
      cases hOk
    | ok regs'' =>
      rw [hStep] at hOk
      obtain ⟨hNext, hSuccessor⟩ := successor_of_calculateStep
        (h.straight i List.mem_cons_self) h.memory h.registers (h.fetch hFits) hStep
      obtain ⟨hLength, hAfter⟩ := ih h.next hOk
      rw [List.length_cons, course_succ_of_some hNext, after_succ_of_some hNext, hSuccessor,
        hAfter, List.length_cons, hLength, Nat.add_right_comm, Nat.add_assoc]
      exact ⟨rfl, rfl⟩

/-- A machine executes a calculation that fails up to the instruction that does. -/
theorem course_of_calculate_error {e : Breakdown} (hFits : image.length ≤ 65535)
    (h : Poised image rest j regs c)
    (hError : (rest.zipIdx j).foldlM (calculateStep image) regs = .error e) :
    ∃ k, e.index = j + k ∧ k < rest.length ∧ (c.course k).length = k ∧
      c.after k = { c with registers := e.registers } ∧
      e.registers.pc = .ofNat (4 * e.index) ∧
      (c.after k).verdict = .error ⟨.ofNat (4 * e.index), e.cause⟩ := by
  induction rest generalizing j regs c with
  | nil => cases hError
  | cons i rest ih =>
    have hStraight := h.straight i List.mem_cons_self
    rw [List.zipIdx_cons, List.foldlM_cons] at hError
    cases hStep : calculateStep image regs (i, j) with
    | error e' =>
      rw [hStep] at hError
      cases hError
      obtain ⟨rfl, hRegisters, hPc, hVerdict⟩ :=
        verdict_of_calculateStep hStraight h.memory h.registers (h.fetch hFits) hStep
      rw [hRegisters]
      exact ⟨0, rfl, Nat.succ_pos _, rfl, rfl, hPc, hVerdict⟩
    | ok regs' =>
      rw [hStep] at hError
      obtain ⟨hNext, hSuccessor⟩ :=
        successor_of_calculateStep hStraight h.memory h.registers (h.fetch hFits) hStep
      obtain ⟨k, hIndex, hLt, hLength, hAfter, hPc, hVerdict⟩ := ih h.next hError
      refine ⟨k + 1, by omega, Nat.succ_lt_succ hLt, ?_, ?_, hPc, ?_⟩
      · rw [course_succ_of_some hNext, hSuccessor, List.length_cons, hLength]
      · rw [after_succ_of_some hNext, hSuccessor, hAfter]
      · rw [after_succ_of_some hNext, hSuccessor, hVerdict]

/-! ## Behind the last instruction -/

/-- There is a zero behind an image that leaves room for another instruction. -/
theorem verdict_behind_image (hMemory : c.memory = Memory.zero.poke 0 image)
    (hLength : image.length = 4 * j) (hPc : c.registers.pc = .ofNat (4 * j)) (hRoom : j ≤ 16382) :
    c.verdict = .ok (.halted ⟨.ofNat (4 * j), 0⟩) := by
  have hStart : c.registers.pc.toNat = 4 * j := by rw [hPc, toNat_address (by omega)]
  have hLt : c.registers.pc.toNat + 3 < 65535 := by omega
  have hWord : c.memory.get ⟨c.registers.pc.toNat, by omega⟩ = 0 := by
    rw [hMemory, Memory.get_poke_zero, List.getD_eq_getElem?_getD,
      List.getElem?_eq_none (Nat.le_of_eq (hLength.trans hStart.symm)), Option.getD_none]
  have hFetch : c.fetch = .ok (.undefined 0) := by
    rw [fetch, Memory.fetch_of_lt _ hLt, hWord, Fetched.ofWords_of_not_opcode (by decide)]
    rfl
  rw [verdict, hFetch, hPc]

/-- Behind the longest image that can be loaded there is not enough of memory left. -/
theorem verdict_at_end (hPc : c.registers.pc = 65532) :
    c.verdict = .error ⟨65532, .outsideMemory 65535⟩ := by
  have hEnd : 65532 ≤ c.registers.pc.toNat := by
    rw [hPc]
    decide
  rw [verdict_of_le hEnd, hPc]

/-- What stops a machine behind the last of a number of instructions. -/
def stopBehind (n : Nat) : Except Fault Halt :=
  if n ≤ 16382 then .ok ⟨.ofNat (4 * n), 0⟩ else .error ⟨65532, .outsideMemory 65535⟩

theorem verdict_behind_program (hMemory : c.memory = Memory.zero.poke 0 image)
    (hLength : image.length = 4 * j) (hPc : c.registers.pc = .ofNat (4 * j)) (hFits : j ≤ 16383) :
    c.verdict = (stopBehind j).map .halted := by
  unfold stopBehind
  split
  · next hRoom => exact verdict_behind_image hMemory hLength hPc hRoom
  · next hFull =>
    have hLongest : j = 16383 := by omega
    refine verdict_at_end (hPc.trans ?_)
    rw [hLongest]
    rfl

end Config

namespace Session

variable {σ : Type} {s : Session σ} {program : List Instruction} {k : Nat}

/-- A machine that holds a straight-line program and nothing else, and that has not made a step. -/
structure Prepared (program : List Instruction) (s : Session σ) : Prop where
  machine : s.machine =
    { registers := .initial, memory := Memory.zero.poke 0 (program.flatMap Instruction.encode) }
  length : program.length ≤ 16383
  straight : ∀ i ∈ program, i.Straight

theorem exists_prepared_of_load (hLength : program.length ≤ 16383)
    (hStraight : ∀ i ∈ program, i.Straight) (watch : σ) (log : Log) :
    let new : Session σ := { machine := .boot .zero, watch, log }
    ∃ s, new.load (Image.ofWords (program.flatMap Instruction.encode)) =
        .ok (4 * program.length, s) ∧ Prepared program s := by
  intro new
  rw [← length_flatMap_encode]
  exact ⟨_, new.load_ofWords (length_flatMap_encode_le hLength), rfl, hLength, hStraight⟩

namespace Prepared

theorem length_words (h : Prepared program s) :
    (program.flatMap Instruction.encode).length ≤ 65535 :=
  length_flatMap_encode_le h.length

theorem poised (h : Prepared program s) :
    Config.Poised (program.flatMap Instruction.encode) program 0 .initial
      s.machine.toConfig := by
  rw [h.machine]
  exact ⟨rfl, (Registers.set_get .initial .pc).symm, rfl, h.straight⟩

/-- A machine that is run stops where its course ends. -/
theorem run_of_verdict {registers : Registers} {stop : Except Fault Halt}
    (h : Prepared program s) (o : Observer σ) (hCount : k ≤ program.length)
    (hCourse : (s.machine.course k).length = k)
    (hAfter : s.machine.after k = { s.machine.toConfig with registers })
    (hVerdict : (s.machine.after k).verdict = stop.map .halted) :
    (s.run o).answer = stop.map some ∧
      (s.run o).session.machine.memory = Memory.zero.poke 0 (program.flatMap Instruction.encode) ∧
      (s.run o).session.machine.steps = k ∧
      (s.run o).session.machine.registers = registers := by
  have hRunning : s.machine.status = .running := by rw [h.machine]
  have hSteps : s.machine.steps = 0 := by rw [h.machine]
  have hEnd := Config.upcoming?_eq_none_iff.mpr (answer_ne_executed hVerdict)
  have hBound : s.machine.steps + k < UInt64.size := by
    rw [hSteps, Nat.zero_add]
    exact Nat.lt_of_le_of_lt (hCount.trans h.length) (by decide)
  obtain ⟨hAnswer, hArrives⟩ := arrives_run o hRunning hCourse hEnd hBound
  refine ⟨?_, ?_, ?_, ?_⟩
  · rw [hAnswer, hVerdict]
    cases stop <;> rfl
  · rw [hArrives.config, hAfter, h.machine]
  · rw [hArrives.steps, hSteps, Nat.zero_add]
  · rw [hArrives.config, hAfter]

theorem run_of_calculate_error {e : Breakdown} (h : Prepared program s) (o : Observer σ)
    (hError : calculate (program.flatMap Instruction.encode) program = .error e) :
    (s.run o).answer = .error ⟨.ofNat (4 * e.index), e.cause⟩ ∧
      (s.run o).session.machine.memory = Memory.zero.poke 0 (program.flatMap Instruction.encode) ∧
      (s.run o).session.machine.steps = e.index ∧
      (s.run o).session.machine.registers = e.registers ∧
      e.registers.pc = .ofNat (4 * e.index) := by
  obtain ⟨k, hIndex, hLt, hCourse, hAfter, hPc, hVerdict⟩ :=
    Config.course_of_calculate_error h.length_words h.poised hError
  have hStop : (s.machine.after k).verdict =
      (Except.error ⟨.ofNat (4 * e.index), e.cause⟩).map Step.halted := hVerdict
  obtain ⟨hAnswer, hMemory, hSteps, hRegisters⟩ :=
    h.run_of_verdict o (Nat.le_of_lt hLt) hCourse hAfter hStop
  rw [Nat.zero_add] at hIndex
  exact ⟨hAnswer, hMemory, hSteps.trans hIndex.symm, hRegisters, hPc⟩

theorem run_of_calculate_ok {regs : Registers} (h : Prepared program s) (o : Observer σ)
    (hOk : calculate (program.flatMap Instruction.encode) program = .ok regs) :
    (s.run o).answer = (Config.stopBehind program.length).map some ∧
      (s.run o).session.machine.memory = Memory.zero.poke 0 (program.flatMap Instruction.encode) ∧
      (s.run o).session.machine.steps = program.length ∧
      (s.run o).session.machine.registers = regs.set .pc (.ofNat (4 * program.length)) := by
  obtain ⟨hCourse, hAfter⟩ := Config.course_of_calculate_ok h.length_words h.poised hOk
  rw [Nat.zero_add] at hAfter
  have hPc : (s.machine.after program.length).registers.pc = .ofNat (4 * program.length) := by
    rw [hAfter]
    exact Registers.get_set_self ..
  have hMemory : (s.machine.after program.length).memory =
      Memory.zero.poke 0 (program.flatMap Instruction.encode) := by
    rw [hAfter, h.machine]
  have hVerdict :=
    Config.verdict_behind_program hMemory (length_flatMap_encode program) hPc h.length
  exact h.run_of_verdict o (Nat.le_refl _) hCourse hAfter hVerdict

end Prepared

/-- A straight-line image that is loaded into a new machine and run. Its instructions are executed
from the first to the last, and if one fails the machine faults there. Otherwise it halts at the
zero behind the last instruction, or it faults there if the image is so long that no instruction
fits behind it. -/
theorem straight_line_programs_calculate {program : List Instruction}
    (hLength : program.length ≤ 16383) (hStraight : ∀ i ∈ program, i.Straight) (o : Observer σ)
    (watch : σ) (log : Log) :
    let image := program.flatMap Instruction.encode
    let new : Session σ := { machine := .boot .zero, watch, log }
    ∃ s, new.load (Image.ofWords image) = .ok (4 * program.length, s) ∧
      let m := (s.run o).session.machine
      (∀ x, m.memory.get x = image.getD x.val 0) ∧
      (∀ e, calculate image program = .error e →
        (s.run o).answer = .error ⟨.ofNat (4 * e.index), e.cause⟩ ∧ m.steps = e.index ∧
          m.registers = e.registers ∧ m.registers.pc = .ofNat (4 * e.index)) ∧
      ∀ regs, calculate image program = .ok regs →
        m.steps = program.length ∧
        m.registers = regs.set .pc (.ofNat (4 * program.length)) ∧
        (program.length ≤ 16382 →
          (s.run o).answer = .ok (some ⟨.ofNat (4 * program.length), 0⟩)) ∧
        (program.length = 16383 →
          (s.run o).answer = .error ⟨65532, .outsideMemory 65535⟩) := by
  intro image new
  obtain ⟨s, hLoad, h⟩ := exists_prepared_of_load hLength hStraight watch log
  refine ⟨s, hLoad, ?_⟩
  intro m
  cases hCase : calculate image program with
  | error e =>
    obtain ⟨hAnswer, hMemory, hSteps, hRegisters, hPc⟩ := h.run_of_calculate_error o hCase
    refine ⟨fun x => by rw [hMemory, Memory.get_poke_zero], ?_, ?_⟩
    · rintro _ ⟨⟩
      exact ⟨hAnswer, hSteps, hRegisters, hRegisters ▸ hPc⟩
    · rintro _ ⟨⟩
  | ok regs =>
    obtain ⟨hAnswer, hMemory, hSteps, hRegisters⟩ := h.run_of_calculate_ok o hCase
    refine ⟨fun x => by rw [hMemory, Memory.get_poke_zero], ?_, ?_⟩
    · rintro _ ⟨⟩
    · rintro _ ⟨⟩
      refine ⟨hSteps, hRegisters, fun hRoom => ?_, fun hFull => ?_⟩
      · rw [hAnswer, Config.stopBehind, if_pos hRoom]
        rfl
      · rw [hAnswer, Config.stopBehind, if_neg (by omega)]
        rfl

/-- A division by a register that was never set, behind a constant that was. -/
theorem straight_line_programs_calculate_division :
    let program : List Instruction := [⟨.constant, 1, 7, 0⟩, ⟨.divide, 2, 1, 3⟩]
    let image := program.flatMap Instruction.encode
    let new : Session Unit := { machine := .boot .zero, watch := (), log := { threshold := none } }
    program.length ≤ 16383 ∧ (∀ i ∈ program, i.Straight) ∧
      ∃ s, new.load (Image.ofWords image) = .ok (8, s) ∧
        (s.run .idle).answer = .error ⟨4, .divisionByZero⟩ ∧
        (s.run .idle).session.machine.steps = 1 ∧
        (s.run .idle).session.machine.registers.get 1 = 7 := by
  intro program image new
  have hLength : program.length ≤ 16383 := by decide
  have hStraight : ∀ i ∈ program, i.Straight := by decide
  obtain ⟨s, hLoad, -, hError, -⟩ :=
    straight_line_programs_calculate hLength hStraight .idle () { threshold := none }
  obtain ⟨hAnswer, hSteps, hRegisters, -⟩ := hError ⟨1, .divisionByZero, _⟩ rfl
  refine ⟨hLength, hStraight, s, hLoad, hAnswer, hSteps, ?_⟩
  rw [hRegisters]
  decide

end Session

end RegisterMachine
