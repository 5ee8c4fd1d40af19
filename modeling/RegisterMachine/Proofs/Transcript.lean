import Mathlib.Data.List.Basic
import RegisterMachine.Proofs.Tables
import RegisterMachine.Proofs.Views

/-!
# The transcript of the debugger

A debugger whose output has room for everything writes a block for each executed instruction. When
it pauses it also asks for a line of input behind each block, until a read finds no more input or a
line that is no text. `Executed.block` is a block, text by text; `Console.lines` cuts the input into
the lines that are read one after another, `Console.lastRead` is the number of the read that ends
the pauses, and `Debugger.transcript` is all that is written.

* `block_eq`: the debugger writes the blocks of the transcript.
* `lines_eq`: a read takes the first of the lines.
* `observe_eq`, `attend_eq`: what the debugger writes, reads and reports at one instruction, and at
  some of them.
* `debugger_transcript`: the transcript of a machine that is driven with a fresh debugger.
-/

namespace RegisterMachine

/-! ## Lines -/

namespace Console

/-- The lines of a byte string. Each goes up to its line feed and includes it; what is left behind
the last line feed is a line, too, unless it is empty. -/
def lines : List UInt8 → List (List UInt8)
  | [] => []
  | b :: bytes =>
    if b = 10 then
      [b] :: lines bytes
    else
      match lines bytes with
      | [] => [[b]]
      | line :: rest => (b :: line) :: rest

def isText (line : List UInt8) : Bool :=
  line.toByteArray.validateUTF8

/-- The number of the first read that finds no line or one that is no text, counted from one. -/
def lastRead (input : List UInt8) : Nat :=
  (lines input).findIdx (fun line => !isText line) + 1

/-- A read takes the first line. -/
theorem lines_eq {bytes : List UInt8} (h : bytes ≠ []) :
    lines bytes = (splitLine bytes).1 :: lines (splitLine bytes).2 := by
  induction bytes with
  | nil => exact absurd rfl h
  | cons b bytes ih =>
    rw [lines, splitLine]
    split
    · rfl
    · by_cases hRest : bytes = []
      · rw [hRest]
        rfl
      · rw [ih hRest]

/-- The lines make up the whole input. -/
theorem flatten_lines (bytes : List UInt8) : (lines bytes).flatten = bytes := by
  induction bytes with
  | nil => rfl
  | cons b bytes ih =>
    unfold lines
    split
    · rw [List.flatten_cons, ih]
      rfl
    · split
      · next hRest =>
        rw [hRest] at ih
        rw [← ih]
        rfl
      · next line rest hRest =>
        rw [hRest] at ih
        rw [← ih]
        rfl

theorem splitLine_of_lines {bytes line : List UInt8} {rest : List (List UInt8)}
    (h : lines bytes = line :: rest) :
    splitLine bytes = (line, rest.flatten) ∧ lines rest.flatten = rest := by
  have hInput : bytes ≠ [] := by
    rintro rfl
    cases h
  rw [lines_eq hInput, List.cons.injEq] at h
  obtain ⟨rfl, rfl⟩ := h
  rw [flatten_lines]
  exact ⟨rfl, rfl⟩

theorem readLine_of_nil {output : ByteArray} {room : Option Nat} :
    readLine { input := [], output, room } = .ok [] { input := [], output, room } := by
  rfl

theorem readLine_of_lines {input line : List UInt8} {rest : List (List UInt8)}
    {output : ByteArray} {room : Option Nat} (h : lines input = line :: rest) :
    readLine { input, output, room } =
      if isText line then .ok line { input := rest.flatten, output, room }
      else .error .invalidText { input := rest.flatten, output, room } := by
  unfold readLine isText
  dsimp only
  rw [(splitLine_of_lines h).1]

theorem ne_nil_of_lines {bytes line : List UInt8} {rest : List (List UInt8)}
    (h : lines bytes = line :: rest) : line ≠ [] := by
  have hSplit := (splitLine_of_lines h).1
  rintro rfl
  have hInput := splitLine_fst_eq_nil_iff.mp (congrArg Prod.fst hSplit)
  rw [hInput] at h
  cases h

theorem lastRead_of_nil : lastRead [] = 1 :=
  rfl

theorem lastRead_of_text {input line : List UInt8} {rest : List (List UInt8)}
    (h : lines input = line :: rest) (hText : isText line) :
    lastRead input = lastRead rest.flatten + 1 := by
  unfold lastRead
  rw [(splitLine_of_lines h).2, h, List.findIdx_cons, hText]
  rfl

theorem lastRead_of_not_text {input line : List UInt8} {rest : List (List UInt8)}
    (h : lines input = line :: rest) (hText : ¬ isText line) : lastRead input = 1 := by
  unfold lastRead
  rw [h, List.findIdx_cons, Bool.eq_false_iff.mpr hText]
  rfl

/-- What is left behind some lines is cut as it was before. -/
theorem lines_drop (input : List UInt8) (n : Nat) :
    lines ((lines input).drop n).flatten = (lines input).drop n := by
  induction n generalizing input with
  | zero => rw [List.drop_zero, flatten_lines]
  | succ n ih =>
    cases h : lines input with
    | nil => rfl
    | cons line rest =>
      have hRest := ih rest.flatten
      rw [(splitLine_of_lines h).2] at hRest
      exact hRest

theorem lastRead_drop {input : List UInt8} (h : 1 < lastRead input) :
    lastRead ((lines input).drop 1).flatten = lastRead input - 1 := by
  match hLines : lines input with
  | [] =>
    unfold lastRead at h
    rw [hLines] at h
    exact absurd h (Nat.lt_irrefl 1)
  | line :: rest =>
    by_cases hText : isText line
    · exact (Nat.sub_eq_of_eq_add (lastRead_of_text hLines hText)).symm
    · rw [lastRead_of_not_text hLines hText] at h
      exact absurd h (Nat.lt_irrefl 1)

end Console

/-! ## Blocks and questions -/

namespace Debugger

/-- The names of the registers in cells of five characters. -/
def heading : String :=
  "| R0    | R1    | R2    | R3    | R4    | R5    | R6    | R7    " ++
    "| R8    | R9    | R10   | R11   | R12   | R13   | SP    | PC    |"

/-- The contents of the registers in cells of five characters. -/
def contents (regs : Registers) : String :=
  String.join ((List.finRange 16).map fun r =>
    "| " ++ String.ofList ((toString (regs.get r).toNat).toList.rightpad 5 ' ') ++ " ") ++ "|"

end Debugger

/-- A block of a transcript: the short name of an instruction and its operands, and below it the
names of the registers and what they contain after it. -/
def Executed.block (e : Executed) : String :=
  let { opcode, a, b, c } := e.instruction
  opcode.mnemonic ++ " " ++ toString a.toNat ++ " " ++ toString b.toNat ++ " " ++
    toString c.toNat ++ "\n" ++ Debugger.heading ++ "\n" ++
    Debugger.contents e.shown.registers ++ "\n"

namespace Debugger

theorem line_names : Table.line Registers.names = heading := by
  rw [Table.line_eq, Registers.names_eq]
  decide +kernel

theorem line_values (regs : Registers) : Table.line regs.values = contents regs := by
  rw [Table.line_eq, Registers.values, List.map_map]
  rfl

/-- The debugger writes the block of an executed instruction. -/
theorem block_eq (e : Executed) : block e.shown.registers e.instruction = e.block := by
  rw [block, Registers.table_eq, line_names, line_values]
  simp only [Instruction.text, Executed.block, String.append_assoc]

/-- The number of the read that ends the pauses of a debugger. One that does not pause has none. -/
def reads (d : Debugger) : Nat :=
  if d.pausing then Console.lastRead d.console.input else 0

/-- What is written for an instruction, counted from zero: its block, a question if a line is read
behind it, and a line feed if that was the last read and there was no line any more. -/
def entry (lines : List (List UInt8)) (reads j : Nat) (block : String) : String :=
  block ++ (if j < reads then "Press enter to continue..." else "") ++
    (if j + 1 = reads ∧ lines.length ≤ j then "\n" else "")

/-- All that is written for the instructions with some blocks. -/
def transcript (lines : List (List UInt8)) (reads : Nat) (blocks : List String) : String :=
  String.join (blocks.mapIdx (entry lines reads))

/-- The failure at an instruction: the last read has found a line that is no text. -/
def failureAt (lines : List (List UInt8)) (reads j : Nat) : Option Console.Failure :=
  if j + 1 = reads ∧ j < lines.length then some .invalidText else none

/-- The failures at the first instructions. -/
def failures (d : Debugger) (n : Nat) : List (Option Console.Failure) :=
  (List.range n).map (failureAt (Console.lines d.console.input) d.reads)

/-- A debugger behind instructions with some blocks, if there is room for everything. -/
def attended (d : Debugger) (blocks : List String) : Debugger :=
  let lines := Console.lines d.console.input
  { console :=
      { input := (lines.drop (min blocks.length d.reads)).flatten
        output := d.console.output ++ (transcript lines d.reads blocks).toUTF8 }
    pausing := decide (blocks.length < d.reads) }

variable {d : Debugger}

theorem entry_succ (lines : List (List UInt8)) (r j : Nat) :
    entry lines r (j + 1) = entry (lines.drop (min 1 r)) (r - 1) j := by
  funext block
  unfold entry
  congr 2
  · congr 1
    simp only [eq_iff_iff]
    omega
  · simp only [List.length_drop, eq_iff_iff]
    omega

theorem transcript_cons (lines : List (List UInt8)) (r : Nat) (block : String)
    (blocks : List String) : transcript lines r (block :: blocks) =
      entry lines r 0 block ++ transcript (lines.drop (min 1 r)) (r - 1) blocks := by
  unfold transcript
  rw [List.mapIdx_cons, String.join_cons]
  simp only [entry_succ]

theorem entry_of_no_reads (lines : List (List UInt8)) (j : Nat) (block : String) :
    entry lines 0 j block = block := by
  simp [entry]

theorem transcript_of_no_reads (lines : List (List UInt8)) (blocks : List String) :
    transcript lines 0 blocks = String.join blocks := by
  have hEntry : entry lines 0 = fun _ block => block := by
    funext j block
    exact entry_of_no_reads lines j block
  rw [transcript, hEntry, List.mapIdx_eq_zipIdx_map, List.zipIdx_map_fst]

theorem failureAt_succ (lines : List (List UInt8)) (r j : Nat) :
    failureAt lines r (j + 1) = failureAt (lines.drop (min 1 r)) (r - 1) j := by
  unfold failureAt
  congr 1
  simp only [List.length_drop, eq_iff_iff]
  omega

theorem transcript_singleton (lines : List (List UInt8)) (r : Nat) (block : String) :
    transcript lines r [block] = entry lines r 0 block := by
  simp [transcript]

/-! ## One instruction -/

theorem append_toUTF8 (output : ByteArray) (first second : String) :
    output ++ (first ++ second).toUTF8 = output ++ first.toUTF8 ++ second.toUTF8 := by
  simp only [String.toUTF8_eq_toByteArray, String.toByteArray_append, ByteArray.append_assoc]

/-- Waits for a line and tells whether to pause at the next instruction. -/
def wait : EStateM Console.Failure Console Bool := do
  let line ← Console.readLine
  if line.isEmpty then
    Console.write "\n"
    return false
  return true

theorem present_eq (regs : Registers) (i : Instruction) (pausing : Bool) :
    present Console.terminal regs i pausing = do
      Console.write (block regs i)
      if pausing then
        Console.write prompt
        wait
      else
        return false := by
  cases pausing <;> rfl

theorem present_of_pausing (regs : Registers) (i : Instruction) (input : List UInt8)
    (output : ByteArray) : (present Console.terminal regs i true).run { input, output } =
      match Console.readLine { input, output := output ++ (block regs i ++ prompt).toUTF8 } with
      | .ok [] console => EStateM.map (fun _ => false) (Console.write "\n") console
      | .ok _ console => .ok true console
      | .error failure console => .error failure console := by
  rw [append_toUTF8, present_eq, if_pos rfl]
  change EStateM.bind Console.readLine _ _ = _
  unfold EStateM.bind
  cases Console.readLine { input, output := output ++ (block regs i).toUTF8 ++ prompt.toUTF8 } with
  | error failure console => rfl
  | ok line console => cases line <;> rfl

/-- What the debugger does at an instruction. -/
theorem observe_eq (m : Machine) (i : Instruction) (hRoom : d.console.room = none) :
    observer.observe m i d =
      (d.attended [block m.registers i], failureAt (Console.lines d.console.input) d.reads 0) := by
  obtain ⟨⟨input, output, room⟩, pausing⟩ := d
  cases hRoom
  unfold attended
  dsimp only
  rw [transcript_singleton]
  cases pausing with
  | false =>
    have hReads : reads { console := { input, output }, pausing := false } = 0 := rfl
    rw [hReads, Nat.min_zero, List.drop_zero, Console.flatten_lines, entry_of_no_reads]
    rfl
  | true =>
    have hReads : reads { console := { input, output }, pausing := true } =
        Console.lastRead input := rfl
    unfold observer
    dsimp only
    rw [present_of_pausing, hReads]
    match hLines : Console.lines input with
    | [] =>
      -- The line that is read is empty, and the line of the question is ended.
      have hInput : input = [] := by rw [← Console.flatten_lines input, hLines, List.flatten_nil]
      have hEntry : entry [] 1 0 (block m.registers i) =
          block m.registers i ++ prompt ++ "\n" := rfl
      rw [hInput, Console.readLine_of_nil, Console.lastRead_of_nil, hEntry,
        append_toUTF8 output (block m.registers i ++ prompt)]
      rfl
    | line :: rest =>
      have hEntry (r : Nat) : entry (line :: rest) r 0 (block m.registers i) =
          block m.registers i ++ (if 0 < r then prompt else "") := by
        simp [entry, prompt]
      rw [Console.readLine_of_lines hLines, hEntry]
      by_cases hText : Console.isText line
      · obtain ⟨b, bytes, rfl⟩ := List.exists_cons_of_ne_nil (Console.ne_nil_of_lines hLines)
        rw [if_pos hText, Console.lastRead_of_text hLines hText]
        simp [failureAt, Console.lastRead]
      · rw [if_neg hText, Console.lastRead_of_not_text hLines hText]
        rfl

/-! ## Many instructions -/

theorem attended_nil (hRoom : d.console.room = none) : d.attended [] = d := by
  obtain ⟨⟨input, output, room⟩, pausing⟩ := d
  cases hRoom
  have hPausing : decide (0 < reads { console := { input, output }, pausing }) = pausing := by
    cases pausing <;> simp [reads, Console.lastRead]
  have hOutput (r : Nat) : output ++ (transcript (Console.lines input) r []).toUTF8 = output :=
    ByteArray.append_empty
  unfold attended
  simp only [List.length_nil, hPausing, hOutput, Nat.zero_min, List.drop_zero,
    Console.flatten_lines]

/-- One read fewer is left after each instruction. -/
theorem reads_attended (d : Debugger) (b : String) : (d.attended [b]).reads = d.reads - 1 := by
  by_cases hMore : 1 < d.reads
  · have hPausing : d.pausing = true := by
      by_contra hNot
      rw [reads, if_neg hNot] at hMore
      exact absurd hMore (Nat.not_lt_zero 1)
    have hReads : d.reads = Console.lastRead d.console.input := by rw [reads, if_pos hPausing]
    have hNext : (d.attended [b]).reads =
        Console.lastRead ((Console.lines d.console.input).drop (min 1 d.reads)).flatten :=
      if_pos (decide_eq_true hMore)
    rw [hNext, Nat.min_eq_left (Nat.le_of_lt hMore), Console.lastRead_drop (hReads ▸ hMore), hReads]
  · have hNext : (d.attended [b]).reads = 0 := by
      rw [reads, if_neg (by simpa [attended] using hMore)]
    omega

theorem lines_attended (d : Debugger) (b : String) :
    Console.lines (d.attended [b]).console.input =
      (Console.lines d.console.input).drop (min 1 d.reads) :=
  Console.lines_drop ..

theorem attended_cons (d : Debugger) (b : String) (blocks : List String) :
    (d.attended [b]).attended blocks = d.attended (b :: blocks) := by
  have hDrop : min 1 d.reads + min blocks.length (d.reads - 1) =
      min (blocks.length + 1) d.reads := by
    omega
  have hMore : blocks.length < d.reads - 1 ↔ blocks.length + 1 < d.reads := by omega
  have hOutput : (d.attended [b]).console.output ++
      (transcript ((Console.lines d.console.input).drop (min 1 d.reads)) (d.reads - 1)
        blocks).toUTF8 =
      d.console.output ++
        (transcript (Console.lines d.console.input) d.reads (b :: blocks)).toUTF8 := by
    rw [transcript_cons, append_toUTF8, ← transcript_singleton]
    rfl
  rw [attended, lines_attended, reads_attended, List.drop_drop, hDrop, decide_eq_decide.mpr hMore,
    hOutput]
  rfl

theorem failures_succ (d : Debugger) (b : String) (n : Nat) :
    d.failures (n + 1) =
      failureAt (Console.lines d.console.input) d.reads 0 :: (d.attended [b]).failures n := by
  unfold failures
  rw [List.range_succ_eq_map, List.map_cons, List.map_map, lines_attended, reads_attended]
  congr 2
  funext j
  exact failureAt_succ _ _ j

/-- What the debugger does at some instructions. -/
theorem attend_eq (steps : Nat) (es : List Executed) (hRoom : d.console.room = none) :
    observer.attend steps es d = (d.attended (es.map Executed.block), d.failures es.length) := by
  induction es generalizing steps d with
  | nil =>
    rw [List.map_nil, attended_nil hRoom]
    rfl
  | cons e es ih =>
    have hFirst : observer.observe { toConfig := e.shown, steps := steps + 1 } e.instruction d =
        (d.attended [e.block], failureAt (Console.lines d.console.input) d.reads 0) := by
      rw [observe_eq _ _ hRoom, block_eq]
    have hRest := ih (d := d.attended [e.block]) (steps + 1) rfl
    unfold Observer.attend
    dsimp only
    rw [hFirst, hRest, attended_cons, List.length_cons, failures_succ d e.block]
    rfl

end Debugger

/-! ## The whole transcript -/

namespace Session

/-- The transcript of a machine that is driven in any way with a fresh debugger. It has the blocks
of the executed instructions, in their order. A debugger that pauses asks for a line behind each
until it has read for the last time, and it takes the lines of the input one by one. -/
theorem debugger_transcript (m : Machine) (log : Log) (input : List UInt8) (pausing : Bool)
    {drives : List (Drive Debugger)} (hDrives : ∀ d ∈ drives, d.observer = Debugger.observer) :
    let fresh : Debugger := { console := { input }, pausing }
    let s : Session Debugger := { machine := m, watch := fresh, log }
    let t := s.performAll (drives.map .drive)
    let lines := Console.lines input
    let last := Console.lastRead input
    ∃ k, Follows s k t ∧
      let blocks := (m.course k).map Executed.block
      (∀ e ∈ m.course k, e.instruction.execute e.before = .ok () e.shown) ∧
      (pausing = false →
        t.watch.console.output = (String.join blocks).toUTF8 ∧
        t.watch.console.input = input ∧
        t.watch.pausing = false) ∧
      (pausing = true →
        t.watch.console.output = (Debugger.transcript lines last blocks).toUTF8 ∧
        t.watch.console.input = (lines.drop (min k last)).flatten ∧
        input = (lines.take (min k last)).flatten ++ t.watch.console.input ∧
        t.watch.pausing = decide (k < last)) ∧
      ∃ ending, Ending ending ∧
        t.log = log.addAll (annotated (m.course k) (fresh.failures k) ++ ending) := by
  intro fresh s t lines last
  obtain ⟨k, hFollows, hWatch, ending, hEnding, hLog⟩ := attends_drives s hDrives
  have hLength : (m.course k).length = k := hFollows.length
  have hAttend := Debugger.attend_eq (d := fresh) m.steps (m.course k) rfl
  rw [hLength] at hAttend
  have hDebugger : t.watch = fresh.attended ((m.course k).map Executed.block) :=
    hWatch.trans (congrArg Prod.fst hAttend)
  have hCount : ((m.course k).map Executed.block).length = k := by rw [List.length_map, hLength]
  refine ⟨k, hFollows, fun e => Config.execute_of_mem_course, ?_, ?_, ending, hEnding, ?_⟩
  · rintro rfl
    have hReads : fresh.reads = 0 := rfl
    rw [hDebugger, Debugger.attended, hReads, Debugger.transcript_of_no_reads, Nat.min_zero,
      List.drop_zero]
    exact ⟨ByteArray.empty_append, Console.flatten_lines input, rfl⟩
  · rintro rfl
    have hReads : fresh.reads = last := rfl
    rw [hDebugger, Debugger.attended, hReads, hCount]
    refine ⟨ByteArray.empty_append, rfl, ?_, rfl⟩
    rw [← List.flatten_append, List.take_append_drop, Console.flatten_lines]
  · exact hLog.trans (congrArg (fun a => log.addAll (annotated (m.course k) a.2 ++ ending)) hAttend)

/-- Three instructions with two lines of input, of which the second is no text: the debugger asks
twice, and what follows the second line is not read. -/
theorem debugger_transcript_not_text :
    let i : Instruction := ⟨.constant, 3, 7, 0⟩
    let m : Machine := .boot (Memory.zero.poke 0 (i.encode ++ i.encode ++ i.encode))
    let s : Session Debugger :=
      { machine := m
        watch := { console := { input := [120, 10, 255, 10, 65] }, pausing := true }
        log := { threshold := some .warn } }
    let drives : List (Drive Debugger) := [.step Debugger.observer, .runFor Debugger.observer 5]
    let t := s.performAll (drives.map .drive)
    let block (pc : String) : String :=
      "AFC 3 7 0\n" ++
        "| R0    | R1    | R2    | R3    | R4    | R5    | R6    | R7    " ++
        "| R8    | R9    | R10   | R11   | R12   | R13   | SP    | PC    |\n" ++
        "| 0     | 0     | 0     | 7     | 0     | 0     | 0     | 0     " ++
        "| 0     | 0     | 0     | 0     | 0     | 0     | 65535 | " ++ pc ++ "     |\n"
    (∀ d ∈ drives, d.observer = Debugger.observer) ∧
      t.watch.console.output =
        (block "0" ++ "Press enter to continue..." ++
          (block "4" ++ "Press enter to continue..." ++ block "8")).toUTF8 ∧
      t.watch.console.input = [65] := by
  intro i m s drives t block
  have hDrives : ∀ d ∈ drives, d.observer = Debugger.observer := by
    intro d hMem
    simp only [drives, List.mem_cons, List.not_mem_nil, or_false] at hMem
    obtain rfl | rfl := hMem <;> rfl
  obtain ⟨k, hFollows, -, -, hPausing, -⟩ :=
    debugger_transcript m { threshold := some .warn } [120, 10, 255, 10, 65] true hDrives
  obtain ⟨hOutput, hInput, -, -⟩ := hPausing rfl
  have hSteps : t.machine.steps = 3 := by decide +kernel
  obtain rfl : k = 3 := by
    have hCount := hFollows.steps
    change t.machine.steps = 0 + k at hCount
    omega
  have hLines : Console.lines [120, 10, 255, 10, 65] = [[120, 10], [255, 10], [65]] := by decide
  have hLast : Console.lastRead [120, 10, 255, 10, 65] = 2 := by decide
  have hBlocks : (m.course 3).map Executed.block = [block "0", block "4", block "8"] := by
    decide +kernel
  refine ⟨hDrives, ?_, hInput.trans ?_⟩
  · rw [hBlocks, hLast, hLines] at hOutput
    refine hOutput.trans (congrArg String.toUTF8 ?_)
    simp [Debugger.transcript, Debugger.entry]
  · decide

end Session

end RegisterMachine
