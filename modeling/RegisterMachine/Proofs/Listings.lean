import RegisterMachine.Proofs.Paths
import RegisterMachine.Proofs.Programs
import RegisterMachine.Proofs.Stores

/-!
# Listings

A program need not have been loaded to be executed: it is enough that the encodings of its
instructions stand one behind another in memory, from any address on. Each of them is fetched when
the program counter gets to it, as long as memory stays as it is. What an instruction does to the
registers and to memory is seen through `register` and `word`, with operands and addresses that are
words.

* `fetch_of_lists`: the instructions of a listing.
* `register_assign`, `word_setWord`: registers and words after an instruction has written one.
-/

namespace RegisterMachine

namespace Memory

variable {m : Memory} {program : List Instruction} {start k : Nat}

/-- The instructions of a program stand one behind another from an address on. -/
def Lists (m : Memory) (start : Nat) (program : List Instruction) : Prop :=
  m.slice start (4 * program.length) = program.flatMap Instruction.encode

theorem lists_poke (m : Memory) (hFits : start + 4 * program.length ≤ 65535) :
    (m.poke start (program.flatMap Instruction.encode)).Lists start program := by
  rw [← length_flatMap_encode] at hFits
  rw [Lists, ← length_flatMap_encode]
  exact slice_poke m hFits

/-- A part of what is found in memory is found from where the part starts. -/
theorem take_drop_slice (m : Memory) {start count i j : Nat} (hLe : i + j ≤ count) :
    ((m.slice start count).drop i).take j = m.slice (start + i) j := by
  apply List.ext_getElem
  · simp only [List.length_take, List.length_drop, length_slice]
    omega
  · intro l hl hl'
    obtain ⟨_, hGet⟩ := getElem_slice m start count (i + l) (by simp at hl ⊢; omega)
    obtain ⟨_, hGet'⟩ := getElem_slice m (start + i) j l hl'
    rw [List.getElem_take, List.getElem_drop, hGet, hGet']
    congr 2
    omega

theorem Lists.slice {i : Instruction} (h : m.Lists start program) (hGet : program[k]? = some i) :
    m.slice (start + 4 * k) 4 = i.encode := by
  obtain ⟨hLt, rfl⟩ := List.getElem?_eq_some_iff.mp hGet
  rw [← take_drop_slice m (show 4 * k + 4 ≤ 4 * program.length by omega), h, drop_flatMap_encode,
    List.drop_eq_getElem_cons hLt, List.flatMap_cons]
  exact List.take_left' rfl

/-- Instructions that are found in memory end before the last address. -/
theorem lt_of_slice {x : Nat} {i : Instruction} (h : m.slice x 4 = i.encode) : x < 65532 := by
  have hLength := congrArg List.length h
  rw [length_slice] at hLength
  change min 4 (65535 - x) = 4 at hLength
  omega

end Memory

namespace Config

variable {c : Config} {i : Instruction}

/-- An instruction of a listing is fetched from its address. -/
theorem fetch_of_lists {program : List Instruction} {start : Nat}
    (h : c.memory.Lists start program) (k : Nat) (hGet : program[k]? = some i)
    (hPc : c.registers.pc.toNat = start + 4 * k) : c.fetch = .ok (.instruction i) := by
  apply fetch_of_slice
  rw [hPc]
  exact h.slice hGet

/-- An instruction of a listing is executed if its conditions hold. -/
theorem leads_of_lists {program : List Instruction} {start : Nat}
    (h : c.memory.Lists start program) (k : Nat) (hGet : program[k]? = some i)
    (hPc : c.registers.pc.toNat = start + 4 * k) (hChecks : c.obstacle? i = none) :
    c.Leads 1 (c.successor i) :=
  .single (upcoming?_eq_some_iff.mpr ⟨fetch_of_lists h k hGet hPc, hChecks⟩)

/-- There is an address behind an instruction in memory. -/
theorem toNat_next (h : c.registers.pc.toNat < 65532) :
    c.next.toNat = c.registers.pc.toNat + 4 := by
  rw [next, UInt16.toNat_add]
  exact Nat.mod_eq_of_lt (by simp; omega)

/-- The words of an instruction in memory. -/
theorem words_of_slice {x : Word} (h : c.memory.slice x.toNat 4 = i.encode) :
    c.word x = i.opcode.toWord ∧ c.word (x + 1) = i.a ∧ c.word (x + 2) = i.b ∧
      c.word (x + 3) = i.c := by
  have hEnd := Memory.lt_of_slice h
  have hPc : (c.goto x).registers.pc = x := pc_goto ..
  have hFetch : (c.goto x).fetch = .ok (.instruction i) := fetch_of_slice (by rw [hPc]; exact h)
  rw [fetch_of_lt (by rwa [hPc]), hPc, Except.ok.injEq, Fetched.ofWords_eq_instruction_iff]
    at hFetch
  simp only [Instruction.encode, List.cons.injEq, and_true] at hFetch
  exact hFetch

/-! ## Registers and words that were written -/

theorem register_pc (c : Config) : c.register 15 = c.registers.pc :=
  rfl

theorem register_sp (c : Config) : c.register 14 = c.registers.sp :=
  rfl

theorem register_goto (c : Config) (target other : Word) :
    (c.goto target).register other = if other = 15 then target else c.register other := by
  have hPc : (15 : Word).toNat < 16 := by decide
  exact register_setRegister c hPc target other

theorem register_assign (c : Config) {operand : Word} (h : operand.toNat < 15) (w other : Word) :
    (c.assign operand w).register other =
      if other = 15 then c.next else if other = operand then w else c.register other := by
  have hOther : operand ≠ 15 := UInt16.ne_of_lt h
  rw [assign, if_neg hOther, register_goto, register_setRegister c (by omega)]

theorem successor_add (c : Config) (a b k : Word) :
    c.successor ⟨.add, a, b, k⟩ = c.assign a (c.register b + c.register k) := by
  simp [successor]

theorem successor_subtract (c : Config) (a b k : Word) :
    c.successor ⟨.subtract, a, b, k⟩ = c.assign a (c.register b - c.register k) := by
  rw [Word.sub_eq_ofNat]
  rfl

theorem register_setWord (c : Config) (x w other : Word) :
    (c.setWord x w).register other = c.register other := by
  simp only [register, registers_setWord]

theorem word_setWord (c : Config) {x : Word} (h : x.toNat < 65535) (w y : Word) :
    (c.setWord x w).word y = if y = x then w else c.word y := by
  unfold word
  simp only [get_memory_setWord, ← UInt16.toNat_inj]
  split
  · simp only [eq_comm]
  · rw [if_neg (by omega)]

end Config

end RegisterMachine
