import RegisterMachine.Proofs.Operands

/-!
# The reference table

`Config.successor` is the configuration after an instruction, read off a table with one row for
each operation. All sources are taken from the configuration before the instruction, arithmetic is
that of natural numbers reduced to words, and the next program counter is given at once: the target
of a jump, the word behind the one that an instruction puts into the program counter, or the next
instruction.

* `execute_apply`: an instruction whose conditions hold leaves what the table says, with the program
  counter one instruction back; an instruction with a condition that fails leaves everything as it
  was, though it writes in place.
-/

namespace RegisterMachine

namespace Config

def goto (c : Config) (target : Word) : Config :=
  { c with registers := c.registers.set .pc target }

/-- Moves the program counter back by one instruction. -/
def retreat (c : Config) : Config :=
  c.goto (c.registers.pc - Instruction.size)

/-- The instruction behind the one at the program counter. -/
def next (c : Config) : Word :=
  c.registers.pc + 4

/-- Puts a word into a register and goes on. Execution continues behind a word that is put into the
program counter. -/
def assign (c : Config) (operand w : Word) : Config :=
  (c.setRegister operand w).goto (if operand = 15 then w + 4 else c.next)

/-- The configuration after an instruction, if its conditions hold. -/
def successor (c : Config) (i : Instruction) : Config :=
  let x := c.register i.b
  let y := c.register i.c
  let sp := c.registers.sp
  match i.opcode with
  | .add => c.assign i.a (.ofNat (x.toNat + y.toNat))
  | .multiply => c.assign i.a (.ofNat (x.toNat * y.toNat))
  | .subtract => c.assign i.a (.ofNat (65536 + x.toNat - y.toNat))
  | .divide => c.assign i.a (.ofNat (x.toNat / y.toNat))
  | .copy => c.assign i.a x
  | .constant => c.assign i.a i.b
  | .load => c.assign i.a (c.word i.b)
  | .store => (c.setWord i.a x).goto c.next
  | .equal => c.assign i.a (if x.toNat = y.toNat then 1 else 0)
  | .less => c.assign i.a (if x.toNat < y.toNat then 1 else 0)
  | .lessEqual => c.assign i.a (if x.toNat ≤ y.toNat then 1 else 0)
  | .greater => c.assign i.a (if y.toNat < x.toNat then 1 else 0)
  | .greaterEqual => c.assign i.a (if y.toNat ≤ x.toNat then 1 else 0)
  | .jump => c.goto i.a
  | .jumpIfZero => c.goto (if x = 0 then i.a else c.next)
  | .pop =>
    if i.a = 14 then
      (c.setRegister 14 (c.word sp + 1)).goto c.next
    else
      (c.assign i.a (c.word sp)).setRegister 14 (sp + 1)
  | .push =>
    let w := if i.a = 14 then sp - 1 else c.register i.a
    ((c.setRegister 14 (sp - 1)).setWord (sp - 1) w).goto c.next

/-! ## The program counter -/

@[simp]
theorem pc_goto (c : Config) (target : Word) : (c.goto target).registers.pc = target :=
  Registers.get_set_self ..

theorem goto_goto (c : Config) (v w : Word) : (c.goto v).goto w = c.goto w := by
  simp [goto]

theorem goto_pc (c : Config) : c.goto c.registers.pc = c := by
  simp [goto, Registers.pc]

theorem advance_retreat (c : Config) : c.retreat.advance = c := by
  have hPc : c.registers.pc - Instruction.size + Instruction.size = c.registers.pc :=
    UInt16.sub_add_cancel ..
  change c.retreat.goto (c.retreat.registers.pc + Instruction.size) = c
  rw [retreat, pc_goto, goto_goto, hPc, goto_pc]

theorem retreat_goto (c : Config) (target : Word) :
    (c.goto target).retreat = c.goto (target - Instruction.size) := by
  rw [retreat, pc_goto, goto_goto]

theorem retreat_goto_next {c d : Config} (h : d.registers.pc = c.registers.pc) :
    (d.goto c.next).retreat = d := by
  have hPc : c.next - Instruction.size = d.registers.pc := by
    rw [h]
    exact UInt16.add_sub_cancel ..
  rw [retreat_goto, hPc, goto_pc]

/-! ## Written registers -/

theorem get_setRegister (c : Config) (operand w : Word) (r : Register) :
    (c.setRegister operand w).registers.get r =
      if operand.toNat = r.val then w else c.registers.get r := by
  unfold setRegister
  split
  · simp [Registers.get_set, Fin.ext_iff]
  · have := r.isLt
    rw [if_neg (by omega)]

theorem sp_setRegister (c : Config) (operand w : Word) :
    (c.setRegister operand w).registers.sp = if operand = 14 then w else c.registers.sp := by
  simp only [Registers.sp, get_setRegister, ← UInt16.toNat_inj]
  rfl

theorem pc_setRegister (c : Config) (operand w : Word) :
    (c.setRegister operand w).registers.pc = if operand = 15 then w else c.registers.pc := by
  simp only [Registers.pc, get_setRegister, ← UInt16.toNat_inj]
  rfl

theorem register_setRegister (c : Config) {operand : Word} (h : operand.toNat < 16)
    (w other : Word) :
    (c.setRegister operand w).register other = if other = operand then w else c.register other := by
  unfold register
  simp only [get_setRegister, ← UInt16.toNat_inj]
  split
  · simp only [eq_comm]
  · rw [if_neg (by omega)]

/-- Going on behind an assignment and back again is the assignment alone. -/
theorem retreat_assign (c : Config) (operand w : Word) :
    (c.assign operand w).retreat = c.setRegister operand w := by
  have hPc : (if operand = 15 then w + 4 else c.next) - Instruction.size =
      (c.setRegister operand w).registers.pc := by
    rw [pc_setRegister]
    split
    · exact UInt16.add_sub_cancel ..
    · exact UInt16.add_sub_cancel ..
  rw [assign, retreat_goto, hPc, goto_pc]

theorem retreat_setRegister_sp (c : Config) (w : Word) :
    (c.setRegister 14 w).retreat = c.retreat.setRegister 14 w := by
  have hPc : (c.setRegister 14 w).registers.pc = c.registers.pc := by
    rw [pc_setRegister, if_neg (by decide)]
  rw [retreat, hPc]
  simp only [retreat, goto, setRegister_sp]
  rw [Registers.set_comm _ _ _ (by decide)]

theorem pc_setWord (c : Config) (x w : Word) : (c.setWord x w).registers.pc = c.registers.pc := by
  unfold setWord
  split <;> rfl

end Config

/-! ## Words as numbers -/

namespace Word

theorem sub_eq_ofNat (x y : Word) : x - y = .ofNat (65536 + x.toNat - y.toNat) := by
  have hx := x.toNat_lt
  have hy := y.toNat_lt
  apply UInt16.toNat_inj.mp
  rw [UInt16.toNat_sub, UInt16.toNat_ofNat']
  congr 1
  omega

theorem div_eq_ofNat (x y : Word) : x / y = .ofNat (x.toNat / y.toNat) := by
  have hQuotient := Nat.div_le_self x.toNat y.toNat
  have hx := x.toNat_lt
  apply UInt16.toNat_inj.mp
  rw [UInt16.toNat_div, UInt16.toNat_ofNat', Nat.mod_eq_of_lt (by omega)]

theorem ofBool_decide (p : Prop) [Decidable p] : ofBool (decide p) = if p then 1 else 0 := by
  unfold ofBool
  simp only [decide_eq_true_eq]

end Word

/-! ## Operations in place -/

namespace Execution

theorem combine_apply {i : Instruction} {f : Word → Word → Word} {c : Config} {w : Word}
    (hWord : f (c.register i.b) (c.register i.c) = w) :
    combine i f c =
      [.register i.b, .register i.c, .register i.a].foldr (Check.guard · c)
        (.ok () (c.assign i.a w).retreat) := by
  unfold combine
  rw [bind_of_guard (readRegister_apply ..), bind_of_guard (readRegister_apply ..),
    writeRegister_apply, hWord, Config.retreat_assign]
  rfl

theorem quotient_apply (i : Instruction) (c : Config) :
    quotient i c =
      [.register i.b, .register i.c, .divisor (c.register i.c), .register i.a].foldr
        (Check.guard · c)
        (.ok ()
          (c.assign i.a (.ofNat ((c.register i.b).toNat / (c.register i.c).toNat))).retreat) := by
  unfold quotient
  rw [bind_of_guard (readRegister_apply ..), bind_of_guard (readRegister_apply ..),
    bind_of_guard (faultIf_zero_apply ..), writeRegister_apply, Word.div_eq_ofNat,
    Config.retreat_assign]
  rfl

/-- The stack pointer is moved on from what it is after the word is written. -/
theorem pop_apply (operand : Word) (c : Config) :
    pop operand c =
      [.address c.registers.sp, .register operand].foldr (Check.guard · c)
        (.ok () (if operand = 14 then c.setRegister 14 (c.word c.registers.sp + 1)
          else (c.setRegister operand (c.word c.registers.sp)).setRegister 14
            (c.registers.sp + 1))) := by
  unfold pop
  rw [bind_of_ok (stackPointer_apply ..), bind_of_guard (readMemory_apply ..),
    bind_of_guard (writeRegister_apply ..), bind_of_ok (stackPointer_apply ..), setRegister_apply,
    Config.sp_setRegister, ← Config.setRegister_sp]
  split
  · next h =>
    rw [h, Config.setRegister_sp, Config.setRegister_sp, Config.setRegister_sp]
    simp only [Registers.set_set]
    rfl
  · rfl

/-- The register is tested once more after the stack pointer has moved, with the same result. -/
theorem push_apply (operand : Word) (c : Config) :
    push operand c =
      [.register operand, .address (c.registers.sp - 1)].foldr (Check.guard · c)
        (.ok () ((c.setRegister 14 (c.registers.sp - 1)).setWord (c.registers.sp - 1)
          (if operand = 14 then c.registers.sp - 1 else c.register operand))) := by
  unfold push
  rw [bind_of_ok (stackPointer_apply ..), bind_of_guard (readRegister_apply ..),
    bind_of_guard (faultIf_outside_apply ..), bind_of_ok (setRegister_apply ..),
    ← Config.setRegister_sp, bind_of_guard (readRegister_apply ..), writeMemory_apply,
    Config.register_setRegister _ (by decide)]
  exact Check.guard_guard_again ..

/-- An instruction in place is what the table says behind the conditions of its operands. -/
theorem execute_apply_guard (i : Instruction) (c : Config) :
    i.execute c = (c.checks i).foldr (Check.guard · c) (.ok () (c.successor i).retreat) := by
  obtain ⟨opcode, a, b, k⟩ := i
  cases opcode with
  | add => exact combine_apply (by simp)
  | multiply => exact combine_apply (by simp)
  | subtract => exact combine_apply (Word.sub_eq_ofNat ..)
  | divide => exact quotient_apply ..
  | copy =>
    change (readRegister b >>= fun w => writeRegister a w) c = _
    rw [bind_of_guard (readRegister_apply ..), writeRegister_apply, ← Config.retreat_assign]
    rfl
  | constant =>
    change writeRegister a b c = _
    rw [writeRegister_apply, ← Config.retreat_assign]
    rfl
  | load =>
    change (readMemory b.toNat >>= fun w => writeRegister a w) c = _
    rw [bind_of_guard (readMemory_apply ..), writeRegister_apply, ← Config.retreat_assign]
    rfl
  | store =>
    change (readRegister b >>= fun w => writeMemory a.toNat w) c = _
    rw [bind_of_guard (readRegister_apply ..), writeMemory_apply,
      ← Config.retreat_goto_next (Config.pc_setWord ..)]
    rfl
  | equal => exact combine_apply (by simp [Word.ofBool, UInt16.toNat_inj])
  | less => exact combine_apply (Word.ofBool_decide _)
  | lessEqual => exact combine_apply (Word.ofBool_decide _)
  | greater => exact combine_apply (Word.ofBool_decide _)
  | greaterEqual => exact combine_apply (Word.ofBool_decide _)
  | jump =>
    change jump a c = .ok () (c.goto a).retreat
    rw [Config.retreat_goto]
    rfl
  | jumpIfZero =>
    change (readRegister b >>= fun w => if w = 0 then jump a else pure ()) c = _
    rw [bind_of_guard (readRegister_apply ..)]
    change (Check.register b).guard c _ = (Check.register b).guard c (.ok () (c.goto _).retreat)
    by_cases hZero : c.register b = 0
    · rw [if_pos hZero, if_pos hZero, Config.retreat_goto]
      rfl
    · rw [if_neg hZero, if_neg hZero, Config.retreat_goto_next rfl]
      rfl
  | pop =>
    refine (pop_apply a c).trans ?_
    congr 2
    simp only [Config.successor]
    split
    · exact (Config.retreat_goto_next (Config.pc_setRegister ..)).symm
    · rw [Config.retreat_setRegister_sp, Config.retreat_assign]
  | push =>
    refine (push_apply a c).trans ?_
    congr 2
    simp only [Config.successor]
    rw [Config.retreat_goto_next]
    rw [Config.pc_setWord, Config.pc_setRegister, if_neg (by decide)]

/-- An instruction whose conditions hold leaves what the table says, with the program counter still
one instruction back. Otherwise the configuration is unchanged. -/
theorem execute_apply (i : Instruction) (c : Config) :
    i.execute c =
      match c.obstacle? i with
      | none => .ok () (c.successor i).retreat
      | some cause => .error cause c := by
  rw [execute_apply_guard, Check.foldr_guard]
  rfl

end Execution

end RegisterMachine
