import RegisterMachine.Proofs.Atomicity
import RegisterMachine.Proofs.Stack

/-!
# Stores

Memory is written by two operations only, and each of them writes one word: a store at the address
that it names, and a push below the stack pointer (`Executed.storedAt?`). So what is found at an
address is the word that was stored there last, and if none was, it is what has been there from the
beginning.

* `get_memory_successor`, `storedAt?_unique`: an executed instruction changes the word that it
  stores and no other.
* `get_memory_after`: the words after a course.
* `memory_keeps_last_stores`: the words after a machine was driven, and that nothing but an executed
  instruction has written them.
-/

namespace RegisterMachine

namespace Executed

/-- The word that an instruction stores at an address, if it stores one there. -/
def storedAt? (x : Address) (e : Executed) : Option Word :=
  match e.instruction.opcode with
  | .store =>
    if e.instruction.a.toNat = x.val then some (e.before.register e.instruction.b) else none
  | .push => if (e.before.registers.sp - 1).toNat = x.val then some e.pushed else none
  | _ => none

/-- An instruction stores one word at most. -/
theorem storedAt?_unique {e : Executed} {x y : Address} {v w : Word}
    (hx : e.storedAt? x = some v) (hy : e.storedAt? y = some w) : x = y := by
  unfold storedAt? at hx hy
  apply Fin.ext
  split at hx
  · next hStore =>
    rw [hStore] at hy
    simp only [Option.ite_none_right_eq_some] at hx hy
    rw [← hx.1, ← hy.1]
  · next hPush =>
    rw [hPush] at hy
    simp only [Option.ite_none_right_eq_some] at hx hy
    rw [← hx.1, ← hy.1]
  · cases hx

end Executed

namespace Config

theorem get_memory_setWord (c : Config) (x w : Word) (y : Address) :
    (c.setWord x w).memory.get y = if x.toNat = y.val then w else c.memory.get y := by
  unfold setWord
  split
  · simp [Memory.get_set, Fin.ext_iff]
  · have := y.isLt
    rw [if_neg (by omega)]

/-- After an instruction memory holds what the instruction has stored, and all else as before. -/
theorem get_memory_successor (c : Config) (i : Instruction) (x : Address) :
    (c.successor i).memory.get x = ((Executed.mk c i).storedAt? x).getD (c.memory.get x) := by
  obtain ⟨opcode, a, b, k⟩ := i
  cases opcode with
  | add | multiply | subtract | divide | copy | constant | load | equal | less | lessEqual | greater
  | greaterEqual => exact congrArg (·.get x) (memory_assign ..)
  | jump | jumpIfZero => rfl
  | pop =>
    simp only [successor, Executed.storedAt?, Option.getD_none]
    split
    · exact congrArg (·.get x) (memory_setRegister ..)
    · rw [memory_setRegister, memory_assign]
  | store =>
    refine (get_memory_setWord c a (c.register b) x).trans ?_
    simp only [Executed.storedAt?]
    split <;> rfl
  | push =>
    refine (get_memory_setWord _ _ _ x).trans ?_
    rw [memory_setRegister]
    simp only [Executed.storedAt?, Executed.pushed]
    split <;> rfl

/-- The words in memory after a course are those stored last. -/
theorem get_memory_after (c : Config) (k : Nat) (x : Address) :
    (c.after k).memory.get x =
      ((c.course k).filterMap (Executed.storedAt? x)).getLast?.getD (c.memory.get x) := by
  induction k generalizing c with
  | zero => rfl
  | succ k ih =>
    cases hNext : c.upcoming? with
    | none =>
      rw [after_of_none hNext, course_of_none hNext]
      rfl
    | some i =>
      rw [after_succ_of_some hNext, course_succ_of_some hNext, ih, get_memory_successor,
        List.filterMap_cons]
      cases (Executed.mk c i).storedAt? x with
      | none => rfl
      | some w =>
        rw [List.getLast?_cons]
        cases ((c.successor i).course k |>.filterMap (Executed.storedAt? x)).getLast? <;> rfl

end Config

namespace Session

variable {σ : Type}

theorem memory_of_step_stopped {o : Observer σ} {s : Session σ}
    (hStep : (s.step o).answer ≠ .ok .executed) :
    (s.step o).session.machine.memory = s.machine.memory := by
  rw [(machine_of_step_stopped hStep).1]

theorem memory_settle (s : Session σ) : s.settle.session.machine.memory = s.machine.memory := by
  unfold settle
  split
  · rfl
  · rfl
  · split <;> rfl

/-- A machine is driven in any way. Then every word of memory is the one that was stored last at its
address by the instructions that were executed, or the one from the beginning if none of them has
stored there. An instruction stores one word at most, and nothing is written by an instruction that
faults, by a halt, by a look ahead, or by a fetch. -/
theorem memory_keeps_last_stores (s : Session σ) (drives : List (Drive σ)) :
    let t := s.performAll (drives.map .drive)
    (∃ k, t.machine.steps = s.machine.steps + k ∧ (s.machine.course k).length = k ∧
      (∀ x, t.machine.memory.get x =
        ((s.machine.course k).filterMap (Executed.storedAt? x)).getLast?.getD
          (s.machine.memory.get x)) ∧
      ∀ e ∈ s.machine.course k,
        (∀ x, e.after.memory.get x = (e.storedAt? x).getD (e.before.memory.get x)) ∧
        ∀ x y v w, e.storedAt? x = some v → e.storedAt? y = some w → x = y) ∧
      (∀ o, (t.step o).answer ≠ .ok .executed →
        (t.step o).session.machine.memory = t.machine.memory) ∧
      (∀ (i : Instruction) c cause d, i.execute c = .error cause d → d.memory = c.memory) ∧
      t.settle.session.machine.memory = t.machine.memory ∧
      (t.perform .fetch).machine.memory = t.machine.memory := by
  intro t
  obtain ⟨k, hFollows⟩ := follows_driven s drives
  refine ⟨⟨k, hFollows.steps, hFollows.length, fun x => ?_, fun e _ => ⟨fun x => ?_, ?_⟩⟩,
    fun o => memory_of_step_stopped, fun i c cause d hError => ?_, memory_settle t, rfl⟩
  · rw [hFollows.config, Config.get_memory_after]
  · exact Config.get_memory_successor e.before e.instruction x
  · exact fun x y v w => Executed.storedAt?_unique
  · rw [Execution.execute_error_unchanged hError]

end Session

end RegisterMachine
