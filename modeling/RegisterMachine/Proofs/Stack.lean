import RegisterMachine.Proofs.Course
import RegisterMachine.Proofs.Verdict

/-!
# The stack

Pushing and popping work on the words from the stack pointer up to the end of memory. Nothing
protects them: any instruction may move the stack pointer, and any store may write to them. As long
as instructions do neither (`Executed.KeepsStack`), these words are the contents of a stack, to
which pushes have added and from which pops have taken.

* `holds_course`: the invariant of a run, with the stack that it starts with.
* `exists_matching_push`: what is on a stack was put there by a push, and everything since then has
  been `Balanced`.
* `stack_is_kept`: the stack of a new machine.
-/

namespace RegisterMachine

/-! ## Words in a row -/

namespace Memory

theorem slice_set_of_lt (m : Memory) {x : Address} (w : Word) {start : Nat} (h : x.val < start)
    (count : Nat) : (m.set x w).slice start count = m.slice start count := by
  apply List.ext_getElem
  · simp only [length_slice]
  · intro i hi hi'
    obtain ⟨_, hGet⟩ := getElem_slice (m.set x w) start count i hi
    obtain ⟨_, hGet'⟩ := getElem_slice m start count i hi'
    rw [hGet, hGet', get_set_of_ne]
    intro hEq
    have hVal := congrArg Fin.val hEq
    simp only at hVal
    omega

end Memory

namespace Config

/-! ## What instructions leave alone -/

theorem sp_goto (c : Config) (target : Word) : (c.goto target).registers.sp = c.registers.sp :=
  Registers.get_set_of_ne _ _ (by decide)

theorem memory_setRegister (c : Config) (operand w : Word) :
    (c.setRegister operand w).memory = c.memory := by
  unfold setRegister
  split <;> rfl

theorem registers_setWord (c : Config) (x w : Word) : (c.setWord x w).registers = c.registers := by
  unfold setWord
  split <;> rfl

theorem sp_assign (c : Config) {operand : Word} (w : Word) (h : operand ≠ 14) :
    (c.assign operand w).registers.sp = c.registers.sp := by
  rw [assign, sp_goto, sp_setRegister, if_neg h]

theorem memory_assign (c : Config) (operand w : Word) :
    (c.assign operand w).memory = c.memory :=
  memory_setRegister ..

/-! ## Stacks in memory -/

/-- The words from the stack pointer to the end of memory are those of a stack, the top first. -/
structure Holds (c : Config) (stack : List Word) : Prop where
  length : c.registers.sp.toNat + stack.length = 65535
  words : c.memory.slice c.registers.sp.toNat stack.length = stack

variable {c d : Config} {stack : List Word}

theorem Holds.congr (h : Holds c stack) (hSp : d.registers.sp = c.registers.sp)
    (hMemory : d.memory = c.memory) : Holds d stack := by
  constructor
  · rw [hSp, h.length]
  · rw [hSp, hMemory, h.words]

/-- Below the stack pointer memory may be written. -/
theorem Holds.setWord (h : Holds c stack) {x : Word} (w : Word)
    (hBelow : x.toNat < c.registers.sp.toNat) : Holds (c.setWord x w) stack := by
  have hLength := h.length
  constructor
  · rw [registers_setWord, h.length]
  · rw [registers_setWord, Config.setWord, dif_pos (by omega)]
    exact (Memory.slice_set_of_lt _ _ hBelow _).trans h.words

/-- The stack grows downwards. -/
theorem Holds.push (h : Holds c stack) (hRoom : (c.registers.sp - 1).toNat < 65535) (w : Word) :
    Holds ((c.setRegister 14 (c.registers.sp - 1)).setWord (c.registers.sp - 1) w)
      (w :: stack) := by
  have hLength := h.length
  have hSp : (c.registers.sp - 1).toNat + 1 = c.registers.sp.toNat := by
    have := UInt16.toNat_sub c.registers.sp 1
    simp at this
    omega
  constructor
  · rw [registers_setWord, sp_setRegister, if_pos rfl, List.length_cons]
    omega
  · rw [registers_setWord, sp_setRegister, if_pos rfl, List.length_cons,
      Memory.slice_succ _ hRoom, hSp, Config.setWord, dif_pos hRoom]
    congr 1
    · exact Memory.get_set_self ..
    · rw [Memory.slice_set_of_lt _ _ (by simp only; omega), memory_setRegister, h.words]

/-- What is popped is the top of the stack. -/
theorem Holds.pop (h : Holds c stack) (hAddress : c.registers.sp.toNat < 65535) :
    ∃ rest, stack = c.word c.registers.sp :: rest ∧
      ∀ d : Config, d.registers.sp = c.registers.sp + 1 → d.memory = c.memory → Holds d rest := by
  have hLength := h.length
  have hWords := h.words
  cases stack with
  | nil =>
    rw [List.length_nil] at hLength
    omega
  | cons w rest =>
    rw [List.length_cons, Memory.slice_succ _ hAddress] at hWords
    obtain ⟨hTop, hRest⟩ := List.cons.inj hWords
    refine ⟨rest, ?_, fun d hSp hMemory => ?_⟩
    · rw [word, dif_pos hAddress, hTop]
    · have hNext : (c.registers.sp + 1).toNat = c.registers.sp.toNat + 1 := by
        rw [UInt16.toNat_add]
        exact Nat.mod_eq_of_lt (by simp; omega)
      constructor
      · rw [hSp, hNext]
        rw [List.length_cons] at hLength
        omega
      · rw [hSp, hNext, hMemory, hRest]

end Config

/-! ## The abstract stack -/

namespace Executed

def isPush (e : Executed) : Bool :=
  e.instruction.opcode = .push

def isPop (e : Executed) : Bool :=
  e.instruction.opcode = .pop

/-- The word that a push stores. The stack pointer is pushed as it is afterwards. -/
def pushed (e : Executed) : Word :=
  if e.instruction.a = 14 then e.before.registers.sp - 1 else e.before.register e.instruction.a

/-- The word that a pop delivers. -/
def popped (e : Executed) : Word :=
  e.before.word e.before.registers.sp

/-- What an instruction does to a stack. -/
def act (stack : List Word) (e : Executed) : List Word :=
  match e.instruction.opcode with
  | .push => e.pushed :: stack
  | .pop => stack.tail
  | _ => stack

/-- An instruction does not name the stack pointer as the register that it writes, and a store
writes below the stack. -/
def KeepsStack (e : Executed) : Prop :=
  match e.instruction.opcode with
  | .store => e.instruction.a.toNat < e.before.registers.sp.toNat
  | .jump | .jumpIfZero | .push => True
  | _ => e.instruction.a ≠ 14

theorem length_act (e : Executed) {stack : List Word}
    (hFull : e.instruction.opcode = .pop → stack ≠ []) :
    (e.act stack).length + (if e.isPop then 1 else 0) =
      stack.length + (if e.isPush then 1 else 0) := by
  unfold act isPop isPush
  split
  · next hPush => simp [hPush]
  · next hPop =>
    have hLength := List.length_pos_iff.mpr (hFull hPop)
    simp [hPop]
    omega
  · next hPush hPop =>
    simp only [decide_eq_true_eq]
    rw [if_neg hPop, if_neg hPush]

end Executed

/-- The stack that instructions leave, if there was none before them. -/
def contents (es : List Executed) : List Word :=
  es.foldl Executed.act []

def pushes (es : List Executed) : Nat :=
  es.countP Executed.isPush

def pops (es : List Executed) : Nat :=
  es.countP Executed.isPop

/-- Instructions in which every push has its pop and every pop its push. -/
inductive Balanced : List Executed → Prop where
  | nil : Balanced []
  | other {es : List Executed} {e : Executed} (hBefore : Balanced es) (hPush : ¬e.isPush)
      (hPop : ¬e.isPop) : Balanced (es ++ [e])
  | nested {es fs : List Executed} {p e : Executed} (hBefore : Balanced es) (hPush : p.isPush)
      (hInside : Balanced fs) (hPop : e.isPop) : Balanced (es ++ p :: fs ++ [e])

theorem contents_append_singleton (es : List Executed) (e : Executed) :
    contents (es ++ [e]) = e.act (contents es) := by
  rw [contents, List.foldl_append]
  rfl

/-- The top of a stack was stored by a push. Since then pushes and pops have cancelled out, and
below it is what was on the stack before. -/
theorem exists_matching_push (es : List Executed) {w : Word} {rest : List Word}
    (h : contents es = w :: rest) :
    ∃ before p mid, es = before ++ p :: mid ∧ p.isPush ∧ p.pushed = w ∧ Balanced mid ∧
      contents before = rest := by
  induction hLength : es.length using Nat.strongRecOn generalizing es w rest with
  | ind n ih =>
    obtain rfl | ⟨fs, e, rfl⟩ := List.eq_nil_or_concat' es
    · cases h
    · rw [List.length_append, List.length_singleton] at hLength
      rw [contents_append_singleton] at h
      unfold Executed.act at h
      split at h
      · next hPush =>
        obtain ⟨hTop, hRest⟩ := List.cons.inj h
        exact ⟨fs, e, [], rfl, by simp [Executed.isPush, hPush], hTop, .nil, hRest⟩
      · next hPop =>
        -- The pop takes what its push has stored, and the new top lay below that.
        obtain ⟨x, hx⟩ : ∃ x, contents fs = x :: w :: rest := by
          cases hFs : contents fs with
          | nil => simp [hFs] at h
          | cons x xs => exact ⟨x, by rw [← h, hFs]; rfl⟩
        obtain ⟨gs, q, inside, rfl, hQ, -, hInside, hBelow⟩ := ih fs.length (by omega) fs hx rfl
        obtain ⟨before, p, mid, rfl, hP, hStored, hMid, hRest⟩ :=
          ih gs.length (by simp at hLength; omega) gs hBelow rfl
        refine ⟨before, p, mid ++ q :: inside ++ [e], by simp, hP, hStored,
          .nested hMid hQ hInside (by simp [Executed.isPop, hPop]), hRest⟩
      · next hPush hPop =>
        obtain ⟨before, p, mid, rfl, hP, hStored, hMid, hRest⟩ := ih fs.length (by omega) fs h rfl
        exact ⟨before, p, mid ++ [e], by simp, hP, hStored,
          .other hMid (by simpa [Executed.isPush] using hPush)
            (by simpa [Executed.isPop] using hPop), hRest⟩

namespace Config

variable {c : Config} {i : Instruction} {stack : List Word}

theorem holds_of_assign (h : Holds c stack) (hKeeps : i.a ≠ 14) (w : Word) :
    Holds (c.assign i.a w) stack :=
  h.congr (sp_assign c w hKeeps) (memory_assign ..)

/-- A popping instruction has passed the test of its address. -/
theorem sp_lt_of_pop (hPop : i.opcode = .pop) (hChecks : c.obstacle? i = none) :
    c.registers.sp.toNat < 65535 := by
  simp only [obstacle?, checks, hPop, List.findSome?_eq_none_iff] at hChecks
  have hAddress := hChecks (.address c.registers.sp) (by simp)
  simpa [Check.failure?] using hAddress

theorem sp_lt_of_push (hPush : i.opcode = .push) (hChecks : c.obstacle? i = none) :
    (c.registers.sp - 1).toNat < 65535 := by
  simp only [obstacle?, checks, hPush, List.findSome?_eq_none_iff] at hChecks
  have hAddress := hChecks (.address (c.registers.sp - 1)) (by simp)
  simpa [Check.failure?] using hAddress

/-- An executed instruction that keeps the stack does to the words in memory what it does to the
abstract stack, and it pops nothing off an empty one. -/
theorem holds_successor (h : Holds c stack) (hChecks : c.obstacle? i = none)
    (hKeeps : Executed.KeepsStack ⟨c, i⟩) :
    Holds (c.successor i) (Executed.act stack ⟨c, i⟩) ∧ (i.opcode = .pop → stack ≠ []) := by
  obtain ⟨opcode, a, b, k⟩ := i
  cases opcode with
  | add | multiply | subtract | divide | copy | constant | load | equal | less | lessEqual | greater
  | greaterEqual => exact ⟨holds_of_assign h hKeeps _, nofun⟩
  | store => exact ⟨(h.setWord _ hKeeps).congr (sp_goto ..) rfl, nofun⟩
  | jump | jumpIfZero => exact ⟨h.congr (sp_goto ..) rfl, nofun⟩
  | push => exact ⟨(h.push (sp_lt_of_push rfl hChecks) _).congr (sp_goto ..) rfl, nofun⟩
  | pop =>
    obtain ⟨rest, rfl, hRest⟩ := h.pop (sp_lt_of_pop rfl hChecks)
    refine ⟨?_, nofun⟩
    rw [successor]
    dsimp only
    rw [if_neg hKeeps]
    apply hRest
    · rw [sp_setRegister, if_pos rfl]
    · rw [memory_setRegister, memory_assign]

/-- A run of instructions that keep the stack. -/
theorem holds_course (h : Holds c stack) {k : Nat} (hKeeps : ∀ e ∈ c.course k, e.KeepsStack) :
    Holds (c.after k) ((c.course k).foldl Executed.act stack) ∧
      ((c.course k).foldl Executed.act stack).length + pops (c.course k) =
        stack.length + pushes (c.course k) := by
  induction k generalizing c stack with
  | zero => exact ⟨h, rfl⟩
  | succ k ih =>
    cases hNext : c.upcoming? with
    | none =>
      rw [course_of_none hNext, after_of_none hNext]
      exact ⟨h, rfl⟩
    | some i =>
      rw [course_succ_of_some hNext] at hKeeps
      rw [course_succ_of_some hNext, after_succ_of_some hNext, List.foldl_cons]
      obtain ⟨hStep, hFull⟩ := holds_successor h (upcoming?_eq_some_iff.mp hNext).2
        (hKeeps _ List.mem_cons_self)
      obtain ⟨hHolds, hCount⟩ := ih hStep fun e he => hKeeps e (List.mem_cons_of_mem _ he)
      refine ⟨hHolds, ?_⟩
      have hAct := Executed.length_act ⟨c, i⟩ hFull
      simp only [pops, pushes, List.countP_cons] at hCount ⊢
      omega

/-- Only an empty stack lets the address of a pop fail. -/
theorem obstacle?_of_pop (h : Holds c stack) (hPop : i.opcode = .pop) :
    c.obstacle? i = some (.outsideMemory 65535) ↔ stack = [] := by
  have hLength := h.length
  by_cases hAddress : c.registers.sp.toNat < 65535
  · have hStack : stack ≠ [] := List.ne_nil_of_length_pos (by omega)
    by_cases hRegister : i.a.toNat < 16 <;>
      simp [obstacle?, checks, hPop, Check.failure?, hAddress, hRegister, hStack]
  · have hSp : c.registers.sp.toNat = 65535 := by omega
    have hStack : stack = [] := List.eq_nil_of_length_eq_zero (by omega)
    simp [obstacle?, checks, hPop, Check.failure?, hSp, hStack]

/-- Only a stack that fills memory lets the address of a push fail. -/
theorem obstacle?_of_push (h : Holds c stack) (hPush : i.opcode = .push)
    (hRegister : i.a.toNat < 16) :
    c.obstacle? i = some (.outsideMemory 65535) ↔ stack.length = 65535 := by
  have hLength := h.length
  have hSub := UInt16.toNat_sub c.registers.sp 1
  by_cases hAddress : (c.registers.sp - 1).toNat < 65535
  · have hStack : stack.length ≠ 65535 := by
      simp at hSub
      omega
    simp [obstacle?, checks, hPush, Check.failure?, hAddress, hRegister, hStack]
  · have hSp := (c.registers.sp - 1).toNat_lt
    have hEnd : (c.registers.sp - 1).toNat = 65535 := by omega
    have hStack : stack.length = 65535 := by
      simp at hSub
      omega
    simp [obstacle?, checks, hPush, Check.failure?, hEnd, hRegister, hStack]

/-- A new machine starts with an empty stack. -/
theorem holds_boot (memory : Memory) : Holds (Machine.boot memory).toConfig [] := by
  constructor
  · change Registers.initial.sp.toNat + 0 = 65535
    decide
  · exact List.eq_nil_of_length_eq_zero (by simp)

theorem successor_of_pop (hPop : i.opcode = .pop) (hOther : i.a ≠ 14) :
    c.successor i =
      (c.assign i.a (c.word c.registers.sp)).setRegister 14 (c.registers.sp + 1) := by
  simp [successor, hPop, hOther]

/-- A pop in a run that starts with an empty stack delivers the word that its push has stored. -/
theorem popped_of_course (h : Holds c []) {n : Nat} (hKeeps : ∀ e ∈ c.course n, e.KeepsStack)
    {es fs : List Executed} {e : Executed} (hSplit : c.course n = es ++ e :: fs)
    (hPop : e.instruction.opcode = .pop) :
    ∃ before p mid, es = before ++ p :: mid ∧ p.isPush ∧ Balanced mid ∧ e.popped = p.pushed ∧
      e.after = (e.before.assign e.instruction.a p.pushed).setRegister 14
        (e.before.registers.sp + 1) := by
  obtain ⟨hCourse, hBefore, hNext⟩ := course_eq_append_cons hSplit
  have hMem : ∀ d ∈ c.course es.length, d.KeepsStack := by
    intro d hd
    rw [hCourse] at hd
    exact hKeeps d (hSplit ▸ List.mem_append_left _ hd)
  obtain ⟨hHolds, -⟩ := holds_course h hMem
  rw [hBefore, hCourse] at hHolds
  obtain ⟨rest, hStack, -⟩ := hHolds.pop (sp_lt_of_pop hPop (upcoming?_eq_some_iff.mp hNext).2)
  obtain ⟨before, p, mid, hEs, hPush, hStored, hMid, -⟩ := exists_matching_push es hStack
  have hOther : e.instruction.a ≠ 14 := by
    have hThis := hKeeps e (hSplit ▸ List.mem_append_right _ List.mem_cons_self)
    simpa only [Executed.KeepsStack, hPop] using hThis
  refine ⟨before, p, mid, hEs, hPush, hMid, hStored.symm, ?_⟩
  rw [Executed.after, successor_of_pop hPop hOther, hStored]

end Config

namespace Session

variable {σ : Type}

/-- A new machine is driven in any way, and its instructions keep the stack. Then at every point of
its run the words from the stack pointer on are those that were pushed and not yet popped. A pop
delivers what its push has stored, and the ends of the stack are where pops and pushes fault. -/
theorem stack_is_kept (memory : Memory) (watch : σ) (log : Log) (drives : List (Drive σ)) :
    let s : Session σ := { machine := .boot memory, watch, log }
    let t := s.performAll (drives.map .drive)
    let c := s.machine.toConfig
    let n := t.machine.steps
    (∀ e ∈ c.course n, e.KeepsStack) →
      t.machine.toConfig = c.after n ∧
      (∀ k ≤ n,
        let es := c.course k
        let d := c.after k
        es.length = k ∧ pops es ≤ pushes es ∧
          (d.registers.sp.toNat : Int) = 65535 - pushes es + pops es ∧
          d.memory.slice d.registers.sp.toNat (65535 - d.registers.sp.toNat) = contents es ∧
          ∀ (u : Session σ) (o : Observer σ) (i : Instruction), u.machine.status = .running →
            u.machine.toConfig = d → d.fetch = .ok (.instruction i) →
            (i.opcode = .pop → ((u.step o).answer = .error ⟨d.registers.pc, .outsideMemory 65535⟩ ↔
              contents es = [])) ∧
            (i.opcode = .push → i.a.toNat < 16 →
              ((u.step o).answer = .error ⟨d.registers.pc, .outsideMemory 65535⟩ ↔
                (contents es).length = 65535))) ∧
      ∀ es e fs, c.course n = es ++ e :: fs → e.isPop →
        ∃ before p mid, es = before ++ p :: mid ∧ p.isPush ∧ Balanced mid ∧ e.popped = p.pushed ∧
          e.after = (e.before.assign e.instruction.a p.pushed).setRegister 14
            (e.before.registers.sp + 1) := by
  intro s t c n hKeeps
  obtain ⟨k, hFollows⟩ := follows_driven s drives
  have hCount : n = k := hFollows.steps.trans (Nat.zero_add k)
  have hLength : (c.course n).length = n := hCount ▸ hFollows.length
  refine ⟨hCount ▸ hFollows.config, fun j hLe => ?_, fun es e fs hSplit hPop => ?_⟩
  · obtain ⟨hHolds, hCounts⟩ := Config.holds_course (Config.holds_boot memory) fun e he =>
      hKeeps e (Config.mem_course_of_le hLe he)
    intro es d
    change d.Holds (contents es) at hHolds
    change (contents es).length + pops es = 0 + pushes es at hCounts
    have hStack := hHolds.length
    have hSize : 65535 - d.registers.sp.toNat = (contents es).length := by omega
    refine ⟨Config.length_course_of_le hLength hLe, by omega, by omega, hSize ▸ hHolds.words, ?_⟩
    intro u o i hRunning hHere hFetch
    rw [answer_step o hRunning, hHere, Config.verdict_eq_error_iff hFetch]
    exact ⟨Config.obstacle?_of_pop hHolds, Config.obstacle?_of_push hHolds⟩
  · exact Config.popped_of_course (Config.holds_boot memory) hKeeps hSplit (of_decide_eq_true hPop)

/-- The stack pointer is pushed and popped into a register, and a second pop finds the stack
empty. -/
theorem stack_is_kept_until_empty :
    let push : Instruction := ⟨.push, 14, 0, 0⟩
    let pop : Instruction := ⟨.pop, 3, 0, 0⟩
    let memory := Memory.zero.poke 0 (push.encode ++ pop.encode ++ pop.encode)
    let s : Session Unit := { machine := .boot memory, watch := (), log := { threshold := none } }
    let c := s.machine.toConfig
    let t := s.performAll (List.map .drive [.step .idle, .runFor .idle 1])
    t.machine.steps = 2 ∧ (∀ e ∈ c.course t.machine.steps, e.KeepsStack) ∧
      contents (c.course 1) = [65534] ∧
      (c.after 1).memory.slice 65534 1 = contents (c.course 1) ∧
      (Executed.mk (c.successor push) pop).popped = 65534 ∧
      (t.step .idle).answer = .error ⟨8, .outsideMemory 65535⟩ := by
  intro push pop memory s c t
  have hSteps : t.machine.steps = 2 := by decide +kernel
  have hFirst : c.upcoming? = some push := by decide +kernel
  have hSecond : (c.successor push).upcoming? = some pop := by decide +kernel
  have hCourse : c.course 2 = [⟨c, push⟩, ⟨c.successor push, pop⟩] := by
    rw [Config.course_succ_of_some hFirst, Config.course_succ_of_some hSecond]
    rfl
  have hKeeps : ∀ e ∈ c.course t.machine.steps, e.KeepsStack := by
    rw [hSteps, hCourse]
    simp [Executed.KeepsStack, push, pop]
  obtain ⟨hConfig, hPoints, hPops⟩ := stack_is_kept memory () { threshold := none }
    [.step .idle, .runFor .idle 1] hKeeps
  have hOne : contents (c.course 1) = [65534] := by decide +kernel
  have hTwo : contents (c.course t.machine.steps) = [] := by
    rw [hSteps]
    decide +kernel
  have hSp : (c.after 1).registers.sp.toNat = 65534 := by decide +kernel
  obtain ⟨-, -, -, hWords, -⟩ := hPoints 1 (by rw [hSteps]; decide)
  rw [hSp] at hWords
  obtain ⟨-, -, -, -, hFaults⟩ := hPoints t.machine.steps (Nat.le_refl _)
  have hPopped : (Executed.mk (c.successor push) pop).popped = 65534 := by
    obtain ⟨before, p, mid, hPush, -, -, hDelivered, -⟩ :=
      hPops [⟨c, push⟩] ⟨c.successor push, pop⟩ [] (by rw [hSteps]; exact hCourse) rfl
    obtain ⟨-, hSame⟩ | ⟨-, hNone⟩ := List.singleton_eq_append_iff.mp hPush
    · rw [hDelivered, (List.cons.inj hSame).1]
      decide +kernel
    · cases hNone
  refine ⟨hSteps, hKeeps, hOne, hWords, hPopped, ?_⟩
  have hFetch : (c.after t.machine.steps).fetch = .ok (.instruction pop) := by
    rw [hSteps]
    decide +kernel
  have hPc : (c.after t.machine.steps).registers.pc = 8 := by
    rw [hSteps]
    decide +kernel
  obtain ⟨hPop, -⟩ := hFaults t .idle pop (by decide +kernel) hConfig hFetch
  rw [hPc] at hPop
  exact (hPop rfl).mpr hTwo

end Session

end RegisterMachine
