import RegisterMachine.Log
import RegisterMachine.Proofs.Texts

/-!
# Messages

The text of an instruction, of a fault or of a halt tells all there is to know about it: no two of
them read the same. Names and numbers have letters and digits only, so the blanks and other marks
between them show where each of them ends.

* `Opcode.mnemonic_inj`, `Instruction.text_inj`: instructions in a listing.
* `FaultCause.message_inj`, `Fault.message_inj`: faults.
* `Record.haltText_inj`: halts.
* `Record.messages_are_unambiguous`: all of them, and the instructions that are traced.
-/

namespace RegisterMachine

open Text

/-! ## Instructions -/

theorem Opcode.mem_all (op : Opcode) : op ∈ all := by
  cases op <;> decide

theorem Opcode.mnemonic_inj {op op' : Opcode} : op.mnemonic = op'.mnemonic ↔ op = op' := by
  have hAll : ∀ op ∈ all, ∀ op' ∈ all, op.mnemonic = op'.mnemonic → op = op' := by
    decide +kernel
  exact ⟨hAll op op.mem_all op' op'.mem_all, congrArg mnemonic⟩

theorem Opcode.all_mnemonic (op : Opcode) : op.mnemonic.toList.all Char.isAlphanum := by
  cases op <;> decide

/-- Instructions in a listing differ if the instructions do. -/
theorem Instruction.text_inj {i i' : Instruction} : i.text = i'.text ↔ i = i' := by
  obtain ⟨op, a, b, c⟩ := i
  obtain ⟨op', a', b', c'⟩ := i'
  have hSep : (" ").toList.head?.any (!Char.isAlphanum ·) := by decide
  simp only [text, String.append_assoc]
  rw [append_inj_of_all _ _ op.all_mnemonic op'.all_mnemonic hSep,
    append_inj_of_all _ _ (all_decimal _) (all_decimal _) hSep,
    append_inj_of_all _ _ (all_decimal _) (all_decimal _) hSep]
  simp only [Opcode.mnemonic_inj, decimal_inj, UInt16.toNat_inj, mk.injEq]

/-! ## Faults -/

namespace FaultCause

theorem message_noRegister (index : Word) : (noRegister index).message =
    "register index " ++ toString index.toNat ++ " is out of range" :=
  rfl

theorem message_outsideMemory (address : Nat) : (outsideMemory address).message =
    "memory address " ++ hexadecimal address ++ " is out of range" :=
  rfl

/-- The letter that the message of a cause starts with. -/
def initial : FaultCause → Char
  | divisionByZero => 'd'
  | noRegister _ => 'r'
  | outsideMemory _ => 'm'

theorem head?_message (cause : FaultCause) : cause.message.toList.head? = some cause.initial := by
  cases cause with
  | divisionByZero => rfl
  | noRegister _ =>
    rw [message_noRegister, String.append_assoc, String.toList_append]
    rfl
  | outsideMemory _ =>
    rw [message_outsideMemory, String.append_assoc, String.toList_append]
    rfl

/-- Messages of different causes differ: those of two kinds in their first letter, and those of one
kind in their number. -/
theorem message_inj {cause cause' : FaultCause} :
    cause.message = cause'.message ↔ cause = cause' := by
  refine ⟨fun h => ?_, congrArg message⟩
  have hInitial : cause.initial = cause'.initial := by
    rw [← Option.some_inj, ← head?_message, h, head?_message]
  cases cause with
  | divisionByZero =>
    cases cause' with
    | divisionByZero => rfl
    | noRegister _ | outsideMemory _ => simp [initial] at hInitial
  | noRegister index =>
    cases cause' with
    | noRegister index' =>
      rw [message_noRegister, message_noRegister, String.append_left_inj, String.append_right_inj,
        decimal_inj, UInt16.toNat_inj] at h
      rw [h]
    | divisionByZero | outsideMemory _ => simp [initial] at hInitial
  | outsideMemory address =>
    cases cause' with
    | outsideMemory address' =>
      rw [message_outsideMemory, message_outsideMemory, String.append_left_inj,
        String.append_right_inj, hexadecimal_inj] at h
      rw [h]
    | divisionByZero | noRegister _ => simp [initial] at hInitial

/-- There is no parenthesis in the message of a cause. -/
theorem all_message (cause : FaultCause) : cause.message.toList.all (· ≠ '(') := by
  have hNumber {text : String} (h : text.toList.all Char.isAlphanum) :
      text.toList.all (· ≠ '(') := by
    rw [List.all_eq_true] at h ⊢
    intro c hc
    have hChar : c ≠ '(' := by
      rintro rfl
      exact absurd (h _ hc) (by decide)
    exact decide_eq_true hChar
  cases cause with
  | divisionByZero => decide
  | noRegister index =>
    rw [message_noRegister, String.toList_append, String.toList_append, List.all_append,
      List.all_append, hNumber (all_decimal _)]
    decide
  | outsideMemory address =>
    rw [message_outsideMemory, String.toList_append, String.toList_append, List.all_append,
      List.all_append, hNumber (all_hexadecimal _)]
    decide

end FaultCause

theorem Fault.head?_message (f : Fault) : f.message.toList.head? = some f.cause.initial := by
  rw [message, String.append_assoc, String.append_assoc, String.toList_append, List.head?_append,
    f.cause.head?_message, Option.some_or]

/-- Messages of different faults differ: the address of the instruction stands behind the only
parenthesis that is opened. -/
theorem Fault.message_inj {f f' : Fault} : f.message = f'.message ↔ f = f' := by
  have hText (f : Fault) : f.message =
      (f.cause.message ++ " ") ++ ("(pc = " ++ (hexadecimal f.pc.toNat ++ ")")) := by
    simp only [message, String.append_assoc]
    rfl
  have hFront (cause : FaultCause) : (cause.message ++ " ").toList.all (· ≠ '(') := by
    rw [String.toList_append, List.all_append, cause.all_message]
    decide
  obtain ⟨pc, cause⟩ := f
  obtain ⟨pc', cause'⟩ := f'
  rw [hText, hText, append_inj_of_all _ _ (hFront cause) (hFront cause') (by decide)]
  simp only [String.append_left_inj, FaultCause.message_inj, hexadecimal_inj, UInt16.toNat_inj,
    mk.injEq]
  exact and_comm

/-! ## Halts -/

namespace Record

theorem haltText_inj {h h' : Halt} :
    haltText h = haltText h' ↔ h.pc = h'.pc ∧ h.opcode = h'.opcode := by
  simp only [haltText, String.append_assoc, String.append_right_inj]
  rw [append_inj_of_all _ _ (all_hexadecimal _) (all_hexadecimal _) (by decide),
    String.append_left_inj, hexadecimal_inj, hexadecimal_inj, UInt16.toNat_inj, UInt16.toNat_inj]

/-! ## Records -/

theorem text_executing (pc : Word) (i : Instruction) : (executing pc i).text =
    "TRACE" ++ " " ++ (hexadecimal pc.toNat ++ ": " ++ i.text) :=
  rfl

/-- The record of an instruction tells the instruction and where it stands. -/
theorem executing_text_inj {pc pc' : Word} {i i' : Instruction} :
    (executing pc i).text = (executing pc' i').text ↔ pc = pc' ∧ i = i' := by
  rw [text_executing, text_executing, String.append_right_inj, String.append_assoc,
    String.append_assoc, append_inj_of_all _ _ (all_hexadecimal _) (all_hexadecimal _) (by decide),
    hexadecimal_inj, UInt16.toNat_inj, Instruction.text_inj]

/-- What is noted of an instruction, of a fault or of a halt is noted of no other. -/
theorem messages_are_unambiguous :
    (∀ (pc pc' : Word) (i i' : Instruction),
      (executing pc i).text = (executing pc' i').text ↔ pc = pc' ∧ i = i') ∧
    (∀ i i' : Instruction, i.text = i'.text ↔ i = i') ∧
    (∀ f f' : Fault, f.message = f'.message ↔ f = f') ∧
    ∀ h h' : Halt, haltText h = haltText h' ↔ h.pc = h'.pc ∧ h.opcode = h'.opcode := by
  exact ⟨fun _ _ _ _ => executing_text_inj, fun _ _ => Instruction.text_inj,
    fun _ _ => Fault.message_inj, fun _ _ => haltText_inj⟩

end Record

end RegisterMachine
