import RegisterMachine.Proofs.Loading
import RegisterMachine.Proofs.Verdict

/-!
# Programs in memory

The image of a program has the encodings of its instructions, one behind the other. When it is
loaded, each instruction is fetched from its own address again. What a fetch finds is always what
stands in memory: an instruction if its encoding is in the four words at the program counter, and an
undefined word if no operation has it as its number.

* `fetch_eq_instruction_iff`, `fetch_eq_undefined_iff`: what is found by a fetch.
* `fetch_of_drop`: an instruction of a program is fetched from its address.
* `programs_are_fetched_back`: a program that is loaded, and every fetch read backwards.
-/

namespace RegisterMachine

/-! ## Fetching -/

namespace Fetched

variable {op a b c : Word}

theorem ofWords_eq_instruction_iff {i : Instruction} :
    ofWords op a b c = .instruction i ↔ [op, a, b, c] = i.encode := by
  unfold ofWords
  constructor
  · intro h
    split at h
    · next hDecode =>
      cases h
      exact (Instruction.encode_of_decode hDecode).symm
    · cases h
  · intro h
    injection h with hOp h
    injection h with hA h
    injection h with hB h
    injection h with hC
    rw [hOp, hA, hB, hC, Instruction.decode_encode]

theorem ofWords_eq_undefined_iff {w : Word} :
    ofWords op a b c = .undefined w ↔ w = op ∧ ∀ opcode : Opcode, opcode.toWord ≠ w := by
  unfold ofWords Instruction.decode
  cases hOpcode : Opcode.ofWord? op with
  | none =>
    rw [Option.map_none]
    constructor
    · rintro ⟨⟩
      refine ⟨rfl, fun opcode hEq => ?_⟩
      rw [← hEq, Opcode.ofWord?_toWord] at hOpcode
      cases hOpcode
    · rintro ⟨rfl, -⟩
      rfl
  | some opcode =>
    rw [Option.map_some]
    constructor
    · rintro ⟨⟩
    · rintro ⟨rfl, hNone⟩
      exact absurd (Opcode.toWord_of_ofWord? hOpcode) (hNone opcode)

end Fetched

namespace Memory

/-- A fetch reads the four words that it starts at. -/
theorem exists_fetch_of_lt (m : Memory) {start : Nat} (h : start + 3 < 65535) :
    ∃ op a b c, m.slice start 4 = [op, a, b, c] ∧ m.fetch start = .ok (.ofWords op a b c) := by
  refine ⟨_, _, _, _, ?_, fetch_of_lt m h⟩
  rw [slice_succ m (by omega), slice_succ m (by omega), slice_succ m (by omega), slice_succ m h,
    slice_zero]

end Memory

namespace Config

variable {c : Config} {i : Instruction}

theorem fetch_eq_instruction_iff (h : c.registers.pc.toNat < 65532) :
    c.fetch = .ok (.instruction i) ↔ c.memory.slice c.registers.pc.toNat 4 = i.encode := by
  have hWords : c.registers.pc.toNat + 3 < 65535 := by omega
  obtain ⟨op, a, b, d, hSlice, hFetch⟩ := c.memory.exists_fetch_of_lt hWords
  rw [fetch, hFetch, hSlice, ← Fetched.ofWords_eq_instruction_iff]
  change Except.ok _ = Except.ok _ ↔ _
  rw [Except.ok.injEq]

theorem fetch_eq_undefined_iff (h : c.registers.pc.toNat < 65532) {op : Word} :
    c.fetch = .ok (.undefined op) ↔
      op = c.word c.registers.pc ∧ ∀ opcode : Opcode, opcode.toWord ≠ op := by
  rw [fetch_of_lt h, ← Fetched.ofWords_eq_undefined_iff, Except.ok.injEq]

end Config

/-! ## Programs -/

theorem length_flatMap_encode (program : List Instruction) :
    (program.flatMap Instruction.encode).length = 4 * program.length := by
  induction program with
  | nil => rfl
  | cons i program ih =>
    rw [List.flatMap_cons, List.length_append, ih, List.length_cons]
    change 4 + 4 * program.length = _
    omega

theorem length_flatMap_encode_le {program : List Instruction} (h : program.length ≤ 16383) :
    (program.flatMap Instruction.encode).length ≤ 65535 := by
  rw [length_flatMap_encode]
  omega

/-- Behind some instructions the image of a program goes on with the image of the others. -/
theorem drop_flatMap_encode (program : List Instruction) (k : Nat) :
    (program.flatMap Instruction.encode).drop (4 * k) =
      (program.drop k).flatMap Instruction.encode := by
  induction program generalizing k with
  | nil => simp
  | cons i program ih =>
    cases k with
    | zero => rfl
    | succ k => exact ih k

namespace Config

variable {c : Config} {i : Instruction} {k : Nat}

theorem toNat_address (h : 4 * k ≤ 65535) : (UInt16.ofNat (4 * k)).toNat = 4 * k := by
  rw [UInt16.toNat_ofNat', Nat.mod_eq_of_lt (by omega)]

/-- The instruction with a number is fetched where the program counter reads as its address. -/
theorem fetch_of_drop {m : Memory} {image rest : List Word} (hFits : image.length ≤ 65535)
    (hMemory : c.memory = m.poke 0 image) (hPc : c.registers.pc = .ofNat (4 * k))
    (hRest : image.drop (4 * k) = i.encode ++ rest) : c.fetch = .ok (.instruction i) := by
  have hLength := congrArg List.length hRest
  rw [List.length_drop, List.length_append, show i.encode.length = 4 from rfl] at hLength
  apply fetch_of_slice
  rw [hMemory, hPc, toNat_address (by omega), Memory.slice_poke_within m (by omega) hFits, hRest]
  exact List.take_left' rfl

end Config

namespace Session

variable {σ : Type}

/-- A program is loaded if it has 16383 instructions at most, and then each of them is fetched from
its address, whatever memory has held before. A longer program is refused. Read backwards, a fetch
that finds an instruction has found its encoding, and one that finds none has found a word that is
the number of no operation. -/
theorem programs_are_fetched_back (s : Session σ) (program : List Instruction) :
    let image := Image.ofWords (program.flatMap Instruction.encode)
    (program.length ≤ 16383 →
      ∃ t, s.load image = .ok (4 * program.length, t) ∧
        t.log = s.log.add (.loaded (4 * program.length)) ∧
        ∀ (k : Nat) (hk : k < program.length),
          (t.perform (.setProgramCounter (.ofNat (4 * k)))).machine.fetch =
            .ok (.instruction program[k])) ∧
      (16383 < program.length → s.load image = .error ⟨4 * program.length⟩) ∧
      ∀ c : Config, c.registers.pc.toNat ≤ 65531 →
        (∀ i, c.fetch = .ok (.instruction i) ↔
          c.memory.slice c.registers.pc.toNat 4 = i.encode) ∧
        ∀ op, c.fetch = .ok (.undefined op) ↔
          op = c.word c.registers.pc ∧ ∀ opcode : Opcode, opcode.toWord ≠ op := by
  intro image
  have hWords := length_flatMap_encode program
  have hCount : Image.wordCount image = 4 * program.length := by
    rw [Image.wordCount_ofWords, hWords]
  refine ⟨fun hLength => ?_, fun hLength => ?_, fun c hPc => ?_⟩
  · have hFits := length_flatMap_encode_le hLength
    rw [← hWords]
    refine ⟨_, s.load_ofWords hFits, rfl, fun k hk => ?_⟩
    · have hRest : (program.flatMap Instruction.encode).drop (4 * k) =
          program[k].encode ++ (program.drop (k + 1)).flatMap Instruction.encode := by
        rw [drop_flatMap_encode, List.drop_eq_getElem_cons hk, List.flatMap_cons]
      exact Config.fetch_of_drop hFits rfl (Registers.get_set_self ..) hRest
  · have hSize : ¬image.size ≤ 131070 := by
      rw [← Image.wordCount_le_iff, hCount]
      unfold Memory.capacity
      omega
    rw [s.load_of_not_le hSize, hCount]
  · have hLt : c.registers.pc.toNat < 65532 := Nat.lt_succ_of_le hPc
    exact ⟨fun _ => Config.fetch_eq_instruction_iff hLt, fun _ => Config.fetch_eq_undefined_iff hLt⟩

/-- The second of two instructions, in a memory that was not empty. -/
theorem programs_are_fetched_back_second :
    let program : List Instruction := [⟨.constant, 0, 5, 0⟩, ⟨.push, 0, 65535, 7⟩]
    let s : Session Unit :=
      { machine := .boot (Memory.zero.poke 4 [9, 9, 9, 9, 9])
        watch := ()
        log := { threshold := none } }
    program.length ≤ 16383 ∧
      ∃ t, s.load (Image.ofWords (program.flatMap Instruction.encode)) = .ok (8, t) ∧
        (t.perform (.setProgramCounter 4)).machine.fetch =
          .ok (.instruction ⟨.push, 0, 65535, 7⟩) := by
  intro program s
  have hLength : program.length ≤ 16383 := by decide
  obtain ⟨t, hLoad, -, hFetch⟩ := (s.programs_are_fetched_back program).1 hLength
  exact ⟨hLength, t, hLoad, hFetch 1 (by decide)⟩

end Session

end RegisterMachine
