import Mathlib.Data.Set.Basic
import RegisterMachine.Proofs.Determinism
import RegisterMachine.Proofs.Stores

/-!
# Words that are not read

Code, data and stack are in one memory, and a program may write its own instructions. Still a step
looks at few words only: at the four that are fetched, and at one more if it loads or pops
(`Config.Reads`). Two machines whose memories differ at some addresses do the same as long as none
of these is read before it has been written, because what is written is computed from what was read.

* `AgreeOff.fetch`, `AgreeOff.closing`: configurations that agree on what is read call for the same
  step.
* `AgreeOff.successor`, `agreeOff_after`: they agree again afterwards, also on what was written.
* `unread_words_do_not_matter`: the same for two machines at work.
-/

namespace RegisterMachine

/-- The addresses at which instructions have stored a word. -/
def written (es : List Executed) : Set Address :=
  {x | ∃ e ∈ es, (e.storedAt? x).isSome}

theorem written_append (es fs : List Executed) :
    written (es ++ fs) = written es ∪ written fs := by
  ext x
  simp only [written, List.mem_append, Set.mem_ofPred_eq, Set.mem_union]
  constructor
  · rintro ⟨e, he | he, hx⟩
    · exact .inl ⟨e, he, hx⟩
    · exact .inr ⟨e, he, hx⟩
  · rintro (⟨e, he, hx⟩ | ⟨e, he, hx⟩)
    · exact ⟨e, .inl he, hx⟩
    · exact ⟨e, .inr he, hx⟩

namespace Config

/-- The next step of a machine reads the word at an address. -/
inductive Reads (c : Config) (x : Address) : Prop where
  | fetched (k : Nat) (hWord : k < 4) (hAddress : x.val = c.registers.pc.toNat + k)
  | loaded (i : Instruction) (hFetch : c.fetch = .ok (.instruction i)) (hLoad : i.opcode = .load)
      (hAddress : x.val = i.b.toNat)
  | popped (i : Instruction) (hFetch : c.fetch = .ok (.instruction i)) (hPop : i.opcode = .pop)
      (hAddress : x.val = c.registers.sp.toNat)

/-- Two configurations have the same registers, and the same words but for those at some
addresses. -/
structure AgreeOff (U : Set Address) (c d : Config) : Prop where
  registers : d.registers = c.registers
  memory : ∀ x, x ∉ U → d.memory.get x = c.memory.get x

variable {U : Set Address} {c d : Config} {i : Instruction}

/-! ## The same step -/

theorem AgreeOff.read (h : AgreeOff U c d) {n : Nat}
    (hRead : ∀ x : Address, x.val = n → x ∉ U) : d.memory.read n = c.memory.read n := by
  by_cases hAddress : n < 65535
  · rw [Memory.read_of_lt _ hAddress, Memory.read_of_lt _ hAddress,
      h.memory ⟨n, hAddress⟩ (hRead _ rfl)]
  · rw [Memory.read_of_le _ (Nat.not_lt.mp hAddress), Memory.read_of_le _ (Nat.not_lt.mp hAddress)]

theorem AgreeOff.word (h : AgreeOff U c d) {w : Word}
    (hRead : ∀ x : Address, x.val = w.toNat → x ∉ U) : d.word w = c.word w := by
  unfold Config.word
  split
  · next hAddress => exact h.memory ⟨w.toNat, hAddress⟩ (hRead _ rfl)
  · rfl

theorem AgreeOff.fetch (h : AgreeOff U c d) (hReads : ∀ x ∈ U, ¬c.Reads x) :
    d.fetch = c.fetch := by
  have hWord (k : Nat) (hk : k < 4) : d.memory.read (c.registers.pc.toNat + k) =
      c.memory.read (c.registers.pc.toNat + k) :=
    h.read fun x hx hMem => hReads x hMem (.fetched k hk hx)
  have hFirst : d.memory.read c.registers.pc.toNat = c.memory.read c.registers.pc.toNat :=
    hWord 0 (by decide)
  rw [Config.fetch, Config.fetch, h.registers, Memory.fetch, Memory.fetch, hFirst,
    hWord 1 (by decide), hWord 2 (by decide), hWord 3 (by decide)]

theorem register_congr (h : d.registers = c.registers) (operand : Word) :
    d.register operand = c.register operand := by
  unfold register
  rw [h]

theorem checks_congr (h : d.registers = c.registers) (i : Instruction) :
    d.checks i = c.checks i := by
  unfold checks
  rw [register_congr h, h]

theorem obstacle?_congr (h : d.registers = c.registers) (i : Instruction) :
    d.obstacle? i = c.obstacle? i := by
  rw [obstacle?, obstacle?, checks_congr h]

theorem AgreeOff.verdict (h : AgreeOff U c d) (hReads : ∀ x ∈ U, ¬c.Reads x) :
    d.verdict = c.verdict := by
  unfold Config.verdict
  rw [h.fetch hReads, h.registers]
  simp only [obstacle?_congr h.registers]

theorem AgreeOff.upcoming? (h : AgreeOff U c d) (hReads : ∀ x ∈ U, ¬c.Reads x) :
    d.upcoming? = c.upcoming? := by
  unfold Config.upcoming?
  rw [h.fetch hReads]
  simp only [obstacle?_congr h.registers]

theorem AgreeOff.closing (h : AgreeOff U c d) (hReads : ∀ x ∈ U, ¬c.Reads x) :
    d.closing = c.closing := by
  unfold Config.closing Machine.closing
  dsimp only
  rw [h.fetch hReads, h.registers]
  simp only [obstacle?_congr h.registers]

/-! ## The same successor -/

theorem registers_goto_congr (h : d.registers = c.registers) (target : Word) :
    (d.goto target).registers = (c.goto target).registers := by
  rw [goto, goto, h]

theorem registers_setRegister_congr (h : d.registers = c.registers) (operand w : Word) :
    (d.setRegister operand w).registers = (c.setRegister operand w).registers := by
  unfold setRegister
  split
  · rw [h]
  · exact h

theorem registers_assign_congr (h : d.registers = c.registers) (operand w : Word) :
    (d.assign operand w).registers = (c.assign operand w).registers := by
  rw [assign, assign, next, next, h]
  exact registers_goto_congr (registers_setRegister_congr h operand w) _

/-- The registers after an instruction come from those before it, and from the word that it loads or
pops. -/
theorem registers_successor_congr (h : d.registers = c.registers)
    (hLoad : i.opcode = .load → d.word i.b = c.word i.b)
    (hPop : i.opcode = .pop → d.word c.registers.sp = c.word c.registers.sp) :
    (d.successor i).registers = (c.successor i).registers := by
  obtain ⟨opcode, a, b, k⟩ := i
  have hNext : d.next = c.next := by rw [next, next, h]
  cases opcode with
  | add | multiply | subtract | divide | copy | constant | equal | less | lessEqual | greater
  | greaterEqual =>
    simp only [successor, register_congr h]
    exact registers_assign_congr h ..
  | load =>
    simp only [successor, hLoad rfl]
    exact registers_assign_congr h ..
  | store =>
    simp only [successor, hNext]
    refine registers_goto_congr ?_ _
    rw [registers_setWord, registers_setWord, h]
  | jump | jumpIfZero =>
    simp only [successor, register_congr h, hNext]
    exact registers_goto_congr h _
  | pop =>
    simp only [successor, h, hPop rfl, hNext]
    split
    · exact registers_goto_congr (registers_setRegister_congr h ..) _
    · exact registers_setRegister_congr (registers_assign_congr h ..) ..
  | push =>
    simp only [successor, h, hNext]
    refine registers_goto_congr ?_ _
    rw [registers_setWord, registers_setWord]
    exact registers_setRegister_congr h ..

theorem storedAt?_congr (h : d.registers = c.registers) (i : Instruction) (x : Address) :
    (Executed.mk d i).storedAt? x = (Executed.mk c i).storedAt? x := by
  unfold Executed.storedAt? Executed.pushed
  simp only [register_congr h, h]

/-- Behind the same instruction two configurations agree again, also on the word that it has
stored. -/
theorem AgreeOff.successor (h : AgreeOff U c d) (hReads : ∀ x ∈ U, ¬c.Reads x)
    (hFetch : c.fetch = .ok (.instruction i)) :
    AgreeOff (U \ written [⟨c, i⟩]) (c.successor i) (d.successor i) := by
  constructor
  · refine registers_successor_congr h.registers (fun hLoad => ?_) fun hPop => ?_
    · exact h.word fun x hx hMem => hReads x hMem (.loaded i hFetch hLoad hx)
    · exact h.word fun x hx hMem => hReads x hMem (.popped i hFetch hPop hx)
  · intro x hx
    rw [get_memory_successor, get_memory_successor, storedAt?_congr h.registers]
    cases hStored : (Executed.mk c i).storedAt? x with
    | some w => rfl
    | none =>
      refine h.memory x fun hMem => hx ⟨hMem, ?_⟩
      rintro ⟨e, hSame, hSome⟩
      rw [List.mem_singleton.mp hSame, hStored] at hSome
      cases hSome

/-! ## The same course -/

theorem agreeOff_step (h : AgreeOff U c d) (hReads : ∀ x ∈ U, ¬c.Reads x) :
    (d.course 1).map Executed.record = (c.course 1).map Executed.record ∧
      AgreeOff (U \ written (c.course 1)) (c.after 1) (d.after 1) := by
  have hSame := h.upcoming? hReads
  cases hNext : c.upcoming? with
  | none =>
    rw [hNext] at hSame
    rw [course_of_none hNext, course_of_none hSame, after_of_none hNext, after_of_none hSame]
    refine ⟨rfl, h.registers, fun x hx => h.memory x fun hMem => hx ⟨hMem, ?_⟩⟩
    rintro ⟨e, hNone, -⟩
    cases hNone
  | some i =>
    rw [hNext] at hSame
    rw [course_succ_of_some hNext, course_succ_of_some hSame, after_succ_of_some hNext,
      after_succ_of_some hSame]
    refine ⟨?_, h.successor hReads (upcoming?_eq_some_iff.mp hNext).1⟩
    simp only [course_zero, List.map_cons, List.map_nil, Executed.record, h.registers]

/-- Two configurations execute the same instructions as long as no address at which they differ is
read before it is written, and what is written is the same. -/
theorem agreeOff_after (h : AgreeOff U c d) {n : Nat}
    (hReads : ∀ j < n, ∀ x ∈ U, (c.after j).Reads x → x ∈ written (c.course j)) :
    (d.course n).map Executed.record = (c.course n).map Executed.record ∧
      AgreeOff (U \ written (c.course n)) (c.after n) (d.after n) := by
  induction n with
  | zero =>
    refine ⟨rfl, h.registers, fun x hx => h.memory x fun hMem => hx ⟨hMem, ?_⟩⟩
    rintro ⟨e, hNone, -⟩
    cases hNone
  | succ n ih =>
    obtain ⟨hRecords, hAgree⟩ := ih fun j hj => hReads j (Nat.lt_succ_of_lt hj)
    obtain ⟨hLast, hEnd⟩ := agreeOff_step hAgree fun x hx hRead =>
      hx.2 (hReads n (Nat.lt_succ_self n) x hx.1 hRead)
    rw [course_add, course_add, after_add, after_add, List.map_append, List.map_append, hRecords,
      hLast, written_append, ← Set.sdiff_sdiff]
    exact ⟨rfl, hEnd⟩

end Config

namespace Session

variable {σ τ : Type} {s : Session σ} {s' : Session τ} {U : Set Address} {n : Nat}

/-- Two running machines have the same registers and the same memory but for some addresses. The
first makes a number of steps, the last of which may stop it, and reads none of these addresses
before it has written it. Then the second executes the same instructions with the same registers
after each of them, and it is stopped in the same way if the first is. Their memories agree at the
end but for those of the addresses that were not written. A run with a budget looks ahead, so it
also depends on the words behind its last instruction. -/
theorem unread_words_do_not_matter (o : Observer σ) (o' : Observer τ)
    (hRunning : s.machine.status = .running) (hRunning' : s'.machine.status = .running)
    (hAgree : Config.AgreeOff U s.machine.toConfig s'.machine.toConfig)
    (hReads : ∀ j < n, ∀ x ∈ U, (s.machine.after j).Reads x → x ∈ written (s.machine.course j)) :
    (∀ j ≤ n, (s'.machine.course j).map Executed.record =
        (s.machine.course j).map Executed.record ∧
      Config.AgreeOff (U \ written (s.machine.course j)) (s.machine.after j)
        (s'.machine.after j)) ∧
      (s.makeSteps o n).machine.toConfig = s.machine.after n ∧
      (s'.makeSteps o' n).machine.toConfig = s'.machine.after n ∧
      InStep s (s.makeSteps o n) s' (s'.makeSteps o' n) ∧
      ((∀ x ∈ U, (s.machine.after n).Reads x → x ∈ written (s.machine.course n)) →
        s.machine.steps + n < UInt64.size → s'.machine.steps + n < UInt64.size →
        (s'.runFor o' n).answer = (s.runFor o n).answer ∧
          InStep s (s.runFor o n).session s' (s'.runFor o' n).session) := by
  have hCourses (j : Nat) (hLe : j ≤ n) := Config.agreeOff_after (n := j) hAgree fun i hi =>
    hReads i (Nat.lt_of_lt_of_le hi hLe)
  obtain ⟨hRecords, hEnd⟩ := hCourses n (Nat.le_refl n)
  have hLength : (s'.machine.course n).length = (s.machine.course n).length := by
    simpa using congrArg List.length hRecords
  obtain ⟨hCourse, hAfter⟩ := Config.course_length_course s.machine.toConfig n
  obtain ⟨hCourse', hAfter'⟩ := Config.course_length_course s'.machine.toConfig n
  have hSteps := arrives_steps o n hRunning
  have hSteps' := arrives_steps o' n hRunning'
  rw [hLength] at hCourse' hAfter' hSteps'
  refine ⟨hCourses, hSteps.config.trans hAfter, hSteps'.config.trans hAfter', ?_,
    fun hAhead hCount hCount' => ?_⟩
  · -- If the first machine was stopped, then by one of the steps that read nothing unwritten.
    have hStop (hStopped : decide ((s.machine.course n).length < n) = true) (x : Address)
        (hx : x ∈ U \ written (s.machine.course n)) : ¬(s.machine.after n).Reads x := by
      intro hRead
      have hLt := of_decide_eq_true hStopped
      refine hx.2 ?_
      rw [← hCourse]
      exact hReads _ hLt x hx.1 (hAfter ▸ hRead)
    refine inStep_of_arrives ?_ (fun hStopped => ?_) (fun hStopped => ?_) hSteps hSteps'
    · rw [hCourse, hCourse', hRecords]
    · rw [hAfter, hAfter', hEnd.verdict (hStop hStopped)]
    · rw [hAfter, hAfter', hEnd.closing (hStop hStopped)]
  · have hNext (x : Address) (hx : x ∈ U \ written (s.machine.course n)) :
        ¬(s.machine.after n).Reads x := fun hRead => hx.2 (hAhead x hx.1 hRead)
    have hVerdict := hEnd.verdict hNext
    have hStops : s'.machine.stopsBy n = s.machine.stopsBy n := by
      rw [Config.stopsBy, Config.stopsBy, hVerdict, hLength]
    obtain ⟨hAnswer, hRun⟩ := arrives_runFor o hRunning hCount
    obtain ⟨hAnswer', hRun'⟩ := arrives_runFor o' hRunning' hCount'
    rw [hLength, hStops] at hRun'
    refine ⟨?_, inStep_of_arrives ?_ (fun _ => ?_) (fun _ => ?_) hRun hRun'⟩
    · rw [hAnswer, hAnswer', Config.report, Config.report, hStops, hVerdict]
    · rw [hCourse, hCourse', hRecords]
    · rw [hAfter, hAfter', hVerdict]
    · rw [hAfter, hAfter', hEnd.closing hNext]

/-- A word is overwritten and then loaded. What was there before does not matter, and at the end it
is gone. -/
theorem unread_words_do_not_matter_overwritten :
    let x : Address := 100
    let store : Instruction := ⟨.store, 100, 14, 0⟩
    let load : Instruction := ⟨.load, 1, 100, 0⟩
    let memory := Memory.zero.poke 0 (store.encode ++ load.encode)
    let s : Session Unit := { machine := .boot memory, watch := (), log := { threshold := none } }
    let s' : Session Unit :=
      { machine := .boot (memory.set x 7), watch := (), log := { threshold := none } }
    s.machine.status = .running ∧ s'.machine.status = .running ∧
      Config.AgreeOff {x} s.machine.toConfig s'.machine.toConfig ∧
      (∀ j < 3, ∀ y ∈ ({x} : Set Address), (s.machine.after j).Reads y →
        y ∈ written (s.machine.course j)) ∧
      (s.makeSteps .idle 3).machine.status = .halted ⟨8, 0⟩ ∧
      (s'.makeSteps .idle 3).machine.status = .halted ⟨8, 0⟩ ∧
      (s'.machine.after 3).registers = (s.machine.after 3).registers ∧
      (s'.machine.after 3).memory.get x = (s.machine.after 3).memory.get x := by
  intro x store load memory s s'
  have hAgree : Config.AgreeOff {x} s.machine.toConfig s'.machine.toConfig :=
    ⟨rfl, fun y hy => Memory.get_set_of_ne memory 7 fun hSame => hy hSame.symm⟩
  have hFirst : s.machine.upcoming? = some store := by decide +kernel
  have hSecond : (s.machine.successor store).upcoming? = some load := by decide +kernel
  have hStored : ∀ k, x ∈ written (s.machine.course (k + 1)) := by
    intro k
    rw [Config.course_succ_of_some hFirst]
    exact ⟨_, List.mem_cons_self, rfl⟩
  have hReads (j : Nat) (y : Address) (hy : y ∈ ({x} : Set Address))
      (hRead : (s.machine.after j).Reads y) : y ∈ written (s.machine.course j) := by
    rw [hy]
    cases j with
    | succ k => exact hStored k
    | zero =>
      -- Only the store itself is read before it is executed.
      rw [hy] at hRead
      have hFetch := (Config.upcoming?_eq_some_iff.mp hFirst).1
      cases hRead with
      | fetched k hWord hAddress =>
        have hFar : (100 : Nat) = 0 + k := hAddress
        omega
      | loaded i hFetch' hLoad =>
        cases hFetch.symm.trans hFetch'
        cases hLoad
      | popped i hFetch' hPop =>
        cases hFetch.symm.trans hFetch'
        cases hPop
  have hRunning : s.machine.status = .running := rfl
  have hRunning' : s'.machine.status = .running := rfl
  obtain ⟨hCourses, -, -, hInStep, -⟩ := unread_words_do_not_matter (n := 3) .idle .idle hRunning
    hRunning' hAgree fun j _ => hReads j
  have hHalted : (s.makeSteps .idle 3).machine.status = .halted ⟨8, 0⟩ := by decide +kernel
  obtain ⟨-, hEnd⟩ := hCourses 3 (Nat.le_refl 3)
  exact ⟨hRunning, hRunning', hAgree, fun j _ => hReads j, hHalted, hInStep.status.trans hHalted,
    hEnd.registers, hEnd.memory x fun hx => hx.2 (hStored 2)⟩

end Session

end RegisterMachine
