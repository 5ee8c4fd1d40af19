import RegisterMachine.Execution

/-!
# Operands and their conditions

Reading and writing a register or a word of memory succeeds under a condition on one word: a
register operand has to name a register, an address has to lie in memory. A divisor must not be
zero. `Config.checks` lists the conditions of each operation in the order in which they are tested,
and `Config.obstacle?` is the fault of the first one that fails.

Beside the conditions stand total views of a configuration: `register`, `word`, `setRegister` and
`setWord` take any word, also one that names nothing. Each primitive of `Execution` is a view behind
a condition (`readRegister_apply`, `writeRegister_apply`, `readMemory_apply`, `writeMemory_apply`).
-/

namespace RegisterMachine

/-- A condition on a word that an instruction uses. -/
inductive Check where
  | register (operand : Word)
  | address (x : Word)
  | divisor (w : Word)

namespace Check

/-- The fault of a condition, unless it holds. -/
def failure? : Check → Option FaultCause
  | register operand => if operand.toNat < 16 then none else some (.noRegister operand)
  | address x => if x.toNat < 65535 then none else some (.outsideMemory x.toNat)
  | divisor w => if w = 0 then some .divisionByZero else none

/-- What comes next if a condition holds, and its fault in an unchanged configuration if not. -/
def guard {α : Type} (k : Check) (c : Config) (next : EStateM.Result FaultCause Config α) :
    EStateM.Result FaultCause Config α :=
  match k.failure? with
  | none => next
  | some cause => .error cause c

theorem guard_of_holds {α : Type} {k : Check} (h : k.failure? = none) (c : Config)
    (next : EStateM.Result FaultCause Config α) : k.guard c next = next := by
  rw [guard, h]

theorem guard_eq_ok_iff {α : Type} {k : Check} {c d : Config}
    {next : EStateM.Result FaultCause Config α} {a : α} :
    k.guard c next = .ok a d ↔ k.failure? = none ∧ next = .ok a d := by
  unfold guard
  cases k.failure? <;> simp

/-- Two conditions that hold are found to hold again, whatever the configuration is then. -/
theorem guard_guard_again {α : Type} (k l : Check) (c d : Config)
    (next : EStateM.Result FaultCause Config α) :
    k.guard c (l.guard c (k.guard d (l.guard d next))) = k.guard c (l.guard c next) := by
  cases hFirst : k.failure? with
  | none =>
    cases hSecond : l.failure? with
    | none => simp only [guard_of_holds hFirst, guard_of_holds hSecond]
    | some cause => simp only [guard, hFirst, hSecond]
  | some cause => simp only [guard, hFirst]

theorem foldr_guard {α : Type} (ks : List Check) (c : Config)
    (next : EStateM.Result FaultCause Config α) :
    ks.foldr (guard · c) next =
      match ks.findSome? failure? with
      | none => next
      | some cause => .error cause c := by
  induction ks with
  | nil => rfl
  | cons k ks ih =>
    rw [List.foldr_cons, ih, List.findSome?_cons, guard]
    cases k.failure? <;> rfl

end Check

namespace Config

/-- The word of the register that an operand names, and zero if it names none. -/
def register (c : Config) (operand : Word) : Word :=
  if h : operand.toNat < 16 then c.registers.get ⟨operand.toNat, h⟩ else 0

/-- The word at an address, and zero outside of memory. -/
def word (c : Config) (x : Word) : Word :=
  if h : x.toNat < 65535 then c.memory.get ⟨x.toNat, h⟩ else 0

/-- Puts a word into the register that an operand names, if there is one. -/
def setRegister (c : Config) (operand w : Word) : Config :=
  if h : operand.toNat < 16 then
    { c with registers := c.registers.set ⟨operand.toNat, h⟩ w }
  else
    c

/-- Puts a word at an address, if that is in memory. -/
def setWord (c : Config) (x w : Word) : Config :=
  if h : x.toNat < 65535 then
    { c with memory := c.memory.set ⟨x.toNat, h⟩ w }
  else
    c

/-- The conditions of an instruction in the order in which they are tested. -/
def checks (c : Config) (i : Instruction) : List Check :=
  match i.opcode with
  | .add | .multiply | .subtract | .equal | .less | .lessEqual | .greater | .greaterEqual =>
    [.register i.b, .register i.c, .register i.a]
  | .divide => [.register i.b, .register i.c, .divisor (c.register i.c), .register i.a]
  | .copy => [.register i.b, .register i.a]
  | .constant => [.register i.a]
  | .load => [.address i.b, .register i.a]
  | .store => [.register i.b, .address i.a]
  | .jump => []
  | .jumpIfZero => [.register i.b]
  | .pop => [.address c.registers.sp, .register i.a]
  | .push => [.register i.a, .address (c.registers.sp - 1)]

/-- The fault of the first condition that fails. -/
def obstacle? (c : Config) (i : Instruction) : Option FaultCause :=
  (c.checks i).findSome? Check.failure?

theorem setRegister_sp (c : Config) (w : Word) :
    c.setRegister 14 w = { c with registers := c.registers.set .sp w } :=
  rfl

end Config

namespace Execution

variable {α β : Type}

theorem bind_apply (x : Execution α) (f : α → Execution β) (c : Config) :
    (x >>= f) c =
      match x c with
      | .ok a d => f a d
      | .error cause d => .error cause d := by
  change EStateM.bind x f c = _
  unfold EStateM.bind
  cases x c <;> rfl

theorem bind_of_ok {x : Execution α} {c d : Config} {a : α} (h : x c = .ok a d)
    (f : α → Execution β) : (x >>= f) c = f a d := by
  rw [bind_apply, h]

theorem bind_of_guard {x : Execution α} {k : Check} {c d : Config} {a : α}
    (h : x c = k.guard c (.ok a d)) (f : α → Execution β) :
    (x >>= f) c = k.guard c (f a d) := by
  rw [bind_apply, h, Check.guard, Check.guard]
  cases k.failure? <;> rfl

theorem stackPointer_apply (c : Config) : stackPointer c = .ok c.registers.sp c :=
  rfl

theorem setRegister_apply (r : Register) (w : Word) (c : Config) :
    setRegister r w c = .ok () { c with registers := c.registers.set r w } :=
  rfl

theorem readRegister_apply (operand : Word) (c : Config) :
    readRegister operand c = (Check.register operand).guard c (.ok (c.register operand) c) := by
  unfold readRegister Check.guard Check.failure? Config.register
  by_cases h : operand.toNat < 16
  · simp [Registers.read_of_lt _ h, h]
  · simp [Registers.read_of_le _ (Nat.not_lt.mp h), h]

theorem writeRegister_apply (operand w : Word) (c : Config) :
    writeRegister operand w c =
      (Check.register operand).guard c (.ok () (c.setRegister operand w)) := by
  unfold writeRegister Check.guard Check.failure? Config.setRegister
  by_cases h : operand.toNat < 16
  · simp only [Register.ofWord_of_lt h, h, if_true, dif_pos]
    rfl
  · simp [Register.ofWord_of_le (Nat.not_lt.mp h), h]

theorem readMemory_apply (x : Word) (c : Config) :
    readMemory x.toNat c = (Check.address x).guard c (.ok (c.word x) c) := by
  unfold readMemory Check.guard Check.failure? Config.word
  by_cases h : x.toNat < 65535
  · simp [Memory.read_of_lt _ h, h]
  · simp [Memory.read_of_le _ (Nat.not_lt.mp h), h]

theorem writeMemory_apply (x w : Word) (c : Config) :
    writeMemory x.toNat w c = (Check.address x).guard c (.ok () (c.setWord x w)) := by
  unfold writeMemory Check.guard Check.failure? Config.setWord
  by_cases h : x.toNat < 65535
  · simp [Address.ofNat_of_lt h, h]
  · simp [Address.ofNat_of_le (Nat.not_lt.mp h), h]

theorem faultIf_zero_apply (w : Word) (c : Config) :
    faultIf (w = 0) .divisionByZero c = (Check.divisor w).guard c (.ok () c) := by
  unfold faultIf Check.guard Check.failure?
  by_cases h : w = 0 <;> simp [h]

theorem faultIf_outside_apply (x : Word) (c : Config) :
    faultIf (Memory.capacity ≤ x.toNat) (.outsideMemory x.toNat) c =
      (Check.address x).guard c (.ok () c) := by
  unfold faultIf Check.guard Check.failure? Memory.capacity
  by_cases h : x.toNat < 65535
  · simp [h, Nat.not_le.mpr h]
  · simp [h, Nat.not_lt.mp h]

end Execution

end RegisterMachine
