import RegisterMachine.Word

/-!
# Instructions

An instruction takes four words: an operation and three operands. The seventeen operations are
numbered from one; any other word in the place of the operation is no instruction. Reading the
encoding of an instruction gives the instruction back (`decode_encode`), and what is read as an
instruction was its encoding (`encode_of_decode`).
-/

namespace RegisterMachine

inductive Opcode where
  | add
  | multiply
  | subtract
  | divide
  | copy
  | constant
  | load
  | store
  | equal
  | less
  | lessEqual
  | greater
  | greaterEqual
  | jump
  | jumpIfZero
  | pop
  | push
deriving DecidableEq

namespace Opcode

/-- All operations in the order of their numbers. -/
def all : List Opcode :=
  [add, multiply, subtract, divide, copy, constant, load, store, equal, less, lessEqual, greater,
    greaterEqual, jump, jumpIfZero, pop, push]

/-- The short name of an operation in listings. -/
def mnemonic : Opcode → String
  | add => "ADD"
  | multiply => "MUL"
  | subtract => "SUB"
  | divide => "DIV"
  | copy => "COP"
  | constant => "AFC"
  | load => "LOAD"
  | store => "STR"
  | equal => "EQU"
  | less => "INF"
  | lessEqual => "INFE"
  | greater => "SUP"
  | greaterEqual => "SUPE"
  | jump => "JMP"
  | jumpIfZero => "JMPC"
  | pop => "POP"
  | push => "PUSH"

def toWord : Opcode → Word
  | add => 1
  | multiply => 2
  | subtract => 3
  | divide => 4
  | copy => 5
  | constant => 6
  | load => 7
  | store => 8
  | equal => 9
  | less => 10
  | lessEqual => 11
  | greater => 12
  | greaterEqual => 13
  | jump => 14
  | jumpIfZero => 15
  | pop => 16
  | push => 17

/-- The operation with a number, if there is one. -/
def ofWord? (w : Word) : Option Opcode :=
  if 1 ≤ w.toNat ∧ w.toNat ≤ 17 then all[w.toNat - 1]? else none

/-- The operations are listed in the order of their numbers, from one on. -/
theorem getElem?_all_eq_some_iff {i : Nat} {op : Opcode} :
    all[i]? = some op ↔ op.toWord.toNat = i + 1 := by
  have hNumbers : ∀ i : Fin all.length, all[i].toWord.toNat = i.val + 1 := by decide
  have hPlace (op : Opcode) : all[op.toWord.toNat - 1]? = some op := by cases op <;> rfl
  constructor
  · intro h
    obtain ⟨hi, rfl⟩ := List.getElem?_eq_some_iff.mp h
    exact hNumbers ⟨i, hi⟩
  · intro h
    rw [← hPlace op, h, Nat.add_sub_cancel]

/-- The number of an operation is looked up again as that operation, and no other number is. -/
theorem ofWord?_eq_some_iff {w : Word} {op : Opcode} : ofWord? w = some op ↔ op.toWord = w := by
  have hRange (op : Opcode) : 1 ≤ op.toWord.toNat ∧ op.toWord.toNat ≤ 17 := by
    cases op <;> decide
  unfold ofWord?
  constructor
  · intro h
    obtain ⟨⟨hOne, -⟩, hEntry⟩ := Option.ite_none_right_eq_some.mp h
    rw [getElem?_all_eq_some_iff, Nat.sub_add_cancel hOne] at hEntry
    exact UInt16.toNat_inj.mp hEntry
  · rintro rfl
    rw [if_pos (hRange op), getElem?_all_eq_some_iff, Nat.sub_add_cancel (hRange op).1]

@[simp]
theorem ofWord?_toWord (op : Opcode) : ofWord? op.toWord = some op :=
  ofWord?_eq_some_iff.mpr rfl

theorem toWord_of_ofWord? {w : Word} {op : Opcode} (h : ofWord? w = some op) : op.toWord = w :=
  ofWord?_eq_some_iff.mp h

/-- Exactly the numbers from one to seventeen are operations. -/
theorem isSome_ofWord? (w : Word) : (ofWord? w).isSome = (1 ≤ w.toNat && w.toNat ≤ 17) := by
  unfold ofWord?
  rw [Bool.eq_iff_iff, Bool.and_eq_true, decide_eq_true_eq, decide_eq_true_eq]
  by_cases h : 1 ≤ w.toNat ∧ w.toNat ≤ 17
  · have hIndex : w.toNat - 1 < all.length := by
      change _ < 17
      omega
    rw [if_pos h, List.getElem?_eq_getElem hIndex]
    exact iff_of_true rfl h
  · rw [if_neg h]
    exact iff_of_false Bool.false_ne_true h

end Opcode

structure Instruction where
  opcode : Opcode
  a : Word
  b : Word
  c : Word
deriving DecidableEq

namespace Instruction

def size : Word := 4

def encode (i : Instruction) : List Word :=
  [i.opcode.toWord, i.a, i.b, i.c]

/-- The instruction that four words stand for, if their first is the number of an operation. -/
def decode (op a b c : Word) : Option Instruction :=
  (Opcode.ofWord? op).map fun opcode => { opcode, a, b, c }

@[simp]
theorem decode_encode (i : Instruction) : decode i.opcode.toWord i.a i.b i.c = some i := by
  simp [decode]

theorem encode_of_decode {op a b c : Word} {i : Instruction} (h : decode op a b c = some i) :
    i.encode = [op, a, b, c] := by
  obtain ⟨opcode, hOpcode, rfl⟩ := Option.map_eq_some_iff.mp h
  simp [encode, Opcode.toWord_of_ofWord? hOpcode]

/-- An instruction in a listing: its short name and the decimal texts of all three operands. -/
def text (i : Instruction) : String :=
  i.opcode.mnemonic ++ " " ++ toString i.a.toNat ++ " " ++ toString i.b.toNat ++ " " ++
    toString i.c.toNat

end Instruction

end RegisterMachine
