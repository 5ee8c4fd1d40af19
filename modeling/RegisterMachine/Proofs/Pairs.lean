import RegisterMachine.Proofs.Listings

/-!
# Two instructions in a row

Pairs of instructions of which the second undoes a part of what the first does. A pop behind a push
copies a register, unless the push overwrites the pop: what is pushed may come to lie in the words
that are executed next. A subtraction behind an addition restores what was added to, unless one of
the words that they take has changed in between.

* `PushPop.fetch`, `PushPop.copied`: what is fetched behind a push, and what a pop leaves that is
  fetched as it was.
* `push_then_pop_copies`: a push and a pop as two steps, and where they need not copy.
* `add_then_subtract_restores`: an addition and a subtraction as two steps.
-/

namespace RegisterMachine

namespace Config

variable {c : Config} {i push pop : Instruction}

/-! ## Pushes and pops -/

theorem register_push (hPush : i.opcode = .push) (q : Word) :
    (c.successor i).register q =
      if q = 15 then c.next else if q = 14 then c.registers.sp - 1 else c.register q := by
  have hSp : (14 : Word).toNat < 16 := by decide
  simp only [successor, hPush]
  rw [register_goto, register_setWord, register_setRegister c hSp]

theorem word_push (hPush : i.opcode = .push) (hRoom : (c.registers.sp - 1).toNat < 65535)
    (x : Word) :
    (c.successor i).word x =
      if x = c.registers.sp - 1 then (Executed.mk c i).pushed else c.word x := by
  have hBefore : (c.setRegister 14 (c.registers.sp - 1)).word x = c.word x := by
    simp only [word, memory_setRegister]
  rw [← hBefore, ← word_setWord _ hRoom]
  simp only [successor, hPush]
  rfl

theorem register_pop (hPop : i.opcode = .pop) (hTarget : i.a.toNat < 14) (q : Word) :
    (c.successor i).register q =
      if q = 14 then c.registers.sp + 1
      else if q = 15 then c.next
      else if q = i.a then c.word c.registers.sp else c.register q := by
  have hSp : (14 : Word).toNat < 16 := by decide
  have hOther : i.a ≠ 14 := UInt16.ne_of_lt hTarget
  simp only [successor, hPop, if_neg hOther]
  rw [register_setRegister _ hSp, register_assign c (by omega)]

theorem memory_pop (hPop : i.opcode = .pop) : (c.successor i).memory = c.memory := by
  simp only [successor, hPop]
  split
  · exact memory_setRegister ..
  · rw [memory_setRegister, memory_assign]

/-- A push at the program counter and a pop behind it. There is room below the stack pointer, and
the pop names neither the stack pointer nor the program counter. -/
structure PushPop (c : Config) (push pop : Instruction) : Prop where
  listing : c.memory.Lists c.registers.pc.toNat [push, pop]
  isPush : push.opcode = .push
  isPop : pop.opcode = .pop
  source : push.a.toNat < 16
  target : pop.a.toNat < 14
  stack : c.registers.sp ≠ 0

/-- A word is found in a register and below the stack pointer, two instructions later, and nothing
else has changed. -/
structure Copied (c d : Config) (target w : Word) : Prop where
  copy : d.register target = w
  stored : d.word (c.registers.sp - 1) = w
  sp : d.registers.sp = c.registers.sp
  pc : d.registers.pc = c.registers.pc + 8
  registers (q : Word) (hTarget : q ≠ target) (hPc : q ≠ 15) : d.register q = c.register q
  words (x : Word) (h : x ≠ c.registers.sp - 1) : d.word x = c.word x

namespace PushPop

theorem address (h : c.PushPop push pop) : (c.registers.sp - 1).toNat < 65535 := by
  have hWord := c.registers.sp.toNat_lt
  have hStack := h.stack
  rw [← UInt16.toNat_inj.ne] at hStack
  rw [UInt16.toNat_sub]
  simp at hStack ⊢
  omega

theorem leads (h : c.PushPop push pop) : c.Leads 1 (c.successor push) := by
  have hSource := h.source
  refine leads_of_lists h.listing 0 rfl (Nat.add_zero _).symm ?_
  simp [obstacle?, checks, h.isPush, Check.failure?, hSource, h.address]

theorem pc (h : c.PushPop push pop) : (c.successor push).registers.pc = c.next := by
  rw [← register_pc, register_push h.isPush, if_pos rfl]

theorem sp (h : c.PushPop push pop) :
    (c.successor push).registers.sp = c.registers.sp - 1 := by
  rw [← register_sp, register_push h.isPush, if_neg (by decide), if_pos rfl]

theorem top (h : c.PushPop push pop) :
    (c.successor push).word (c.registers.sp - 1) = (Executed.mk c push).pushed := by
  rw [word_push h.isPush h.address, if_pos rfl]

/-- What is fetched behind a push are the words of the pop, but for the one that the push stores. -/
theorem fetch (h : c.PushPop push pop) :
    let now (x w : Word) := if x = c.registers.sp - 1 then (Executed.mk c push).pushed else w
    (c.successor push).fetch =
      .ok (.ofWords (now (c.registers.pc + 4) pop.opcode.toWord) (now (c.registers.pc + 5) pop.a)
        (now (c.registers.pc + 6) pop.b) (now (c.registers.pc + 7) pop.c)) := by
  intro now
  have hRoom := Memory.lt_of_slice (h.listing.slice (k := 0) rfl)
  have hSlice : c.memory.slice c.next.toNat 4 = pop.encode := by
    rw [toNat_next hRoom]
    exact h.listing.slice (k := 1) rfl
  obtain ⟨hOpcode, hA, hB, hC⟩ := words_of_slice hSlice
  have hFetch : (c.successor push).registers.pc.toNat < 65532 := by
    rw [h.pc]
    exact Memory.lt_of_slice hSlice
  rw [fetch_of_lt hFetch, h.pc]
  simp only [word_push h.isPush h.address, hOpcode, hA, hB, hC]
  simp only [next, UInt16.add_assoc]
  rfl

/-- The operands of the pop that are not used may be overwritten. -/
theorem fetch_of_clear (h : c.PushPop push pop)
    (hOpcode : c.registers.sp - 1 ≠ c.registers.pc + 4)
    (hOperand : c.registers.sp - 1 ≠ c.registers.pc + 5) :
    ∃ b k, (c.successor push).fetch = .ok (.instruction ⟨.pop, pop.a, b, k⟩) := by
  have hFetch := h.fetch
  simp only [if_neg hOpcode.symm, if_neg hOperand.symm, h.isPop, Fetched.ofWords_toWord] at hFetch
  exact ⟨_, _, hFetch⟩

theorem fetch_of_operand (h : c.PushPop push pop)
    (hOperand : c.registers.sp - 1 = c.registers.pc + 5) :
    (c.successor push).fetch =
      .ok (.instruction ⟨.pop, (Executed.mk c push).pushed, pop.b, pop.c⟩) := by
  refine h.fetch.trans ?_
  simp [hOperand, h.isPop, Fetched.ofWords_toWord]

theorem fetch_of_opcode (h : c.PushPop push pop)
    (hOpcode : c.registers.sp - 1 = c.registers.pc + 4) :
    (c.successor push).fetch =
      .ok (.ofWords (Executed.mk c push).pushed pop.a pop.b pop.c) := by
  refine h.fetch.trans ?_
  simp [hOpcode]

/-- The address of the pop is that of the push. -/
theorem obstacle?_of_isPop (h : c.PushPop push pop) (hPop : i.opcode = .pop) :
    (c.successor push).obstacle? i = (Check.register i.a).failure? := by
  simp only [obstacle?, checks, hPop, h.sp, List.findSome?_cons, Check.failure?, if_pos h.address]
  split
  · next hFails => exact hFails.symm
  · next hHolds => exact hHolds.symm

/-- A pop that is fetched as it was delivers the word that was pushed. -/
theorem copied (h : c.PushPop push pop) (hPop : i.opcode = .pop) (hTarget : i.a = pop.a) :
    c.Copied ((c.successor push).successor i) pop.a (Executed.mk c push).pushed := by
  have hFits := h.target
  rw [← hTarget] at hFits ⊢
  have hWord (x : Word) :
      ((c.successor push).successor i).word x = (c.successor push).word x := by
    simp only [word, memory_pop hPop]
  have hRegister := register_pop (c := c.successor push) hPop hFits
  have hSp : i.a ≠ 14 := UInt16.ne_of_lt hFits
  have hPc : i.a ≠ 15 := UInt16.ne_of_lt (Nat.lt_succ_of_lt hFits)
  constructor
  · rw [hRegister, if_neg hSp, if_neg hPc, if_pos rfl, h.sp, h.top]
  · rw [hWord, h.top]
  · rw [← register_sp, hRegister, if_pos rfl, h.sp]
    exact UInt16.sub_add_cancel ..
  · rw [← register_pc, hRegister, if_neg (by decide), if_pos rfl, next, h.pc, next,
      UInt16.add_assoc]
    rfl
  · intro q hOther hPc
    rw [hRegister, if_neg hPc, if_neg hOther, register_push h.isPush, if_neg hPc, h.sp]
    split
    · next hSp =>
      rw [hSp]
      exact UInt16.sub_add_cancel ..
    · rfl
  · intro x hOther
    rw [hWord, word_push h.isPush h.address, if_neg hOther]

end PushPop

/-! ## Sums and differences -/

/-- What is left of a sum if the same operand is subtracted again. -/
theorem register_restored {a k : Word} (b : Word) (hTarget : a.toNat < 15) (q : Word) :
    let x := c.register b
    ((c.successor ⟨.add, a, b, k⟩).successor ⟨.subtract, a, a, k⟩).register q =
      if q = 15 then c.registers.pc + 8
      else if q = a then if k = a then 0 else if k = 15 then x - 4 else x
      else c.register q := by
  intro x
  let d := c.successor ⟨.add, a, b, k⟩
  have hOther : a ≠ 15 := UInt16.ne_of_lt hTarget
  have hBehind (r : Word) : d.register r =
      if r = 15 then c.next else if r = a then x + c.register k else c.register r := by
    rw [← register_assign c hTarget, ← successor_add]
  have hSum : d.register a = x + c.register k := by
    rw [hBehind, if_neg hOther, if_pos rfl]
  have hRest : d.register a - d.register k =
      if k = a then 0 else if k = 15 then x - 4 else x := by
    by_cases hSame : k = a
    · rw [hSame, if_pos rfl]
      exact UInt16.sub_self ..
    · rw [if_neg hSame, hSum, hBehind, if_neg hSame]
      split
      · next hPc =>
        rw [hPc, register_pc, next]
        grind
      · exact UInt16.add_sub_cancel ..
  have hNext : d.next = c.registers.pc + 8 := by
    rw [next, ← register_pc, hBehind, if_pos rfl, next, UInt16.add_assoc]
    rfl
  rw [successor_subtract, register_assign _ hTarget, hNext, hRest, hBehind]
  split
  · rfl
  · split <;> rfl

theorem memory_restored (c : Config) (a b k : Word) :
    ((c.successor ⟨.add, a, b, k⟩).successor ⟨.subtract, a, a, k⟩).memory = c.memory := by
  rw [successor_add, successor_subtract, memory_assign, memory_assign]

theorem leads_restored {a b k : Word}
    (hListing : c.memory.Lists c.registers.pc.toNat [⟨.add, a, b, k⟩, ⟨.subtract, a, a, k⟩])
    (ha : a.toNat < 15) (hb : b.toNat < 16) (hk : k.toNat < 16) :
    c.Leads 2 ((c.successor ⟨.add, a, b, k⟩).successor ⟨.subtract, a, a, k⟩) := by
  have hTarget : a.toNat < 16 := Nat.lt_succ_of_lt ha
  have hMemory : (c.successor ⟨.add, a, b, k⟩).memory = c.memory := by
    rw [successor_add, memory_assign]
  have hPc : (c.successor ⟨.add, a, b, k⟩).registers.pc = c.next := by
    rw [← register_pc, successor_add, register_assign c ha, if_pos rfl]
  have hAdd : c.Leads 1 (c.successor ⟨.add, a, b, k⟩) := by
    refine leads_of_lists hListing 0 rfl (Nat.add_zero _).symm ?_
    simp [obstacle?, checks, Check.failure?, hTarget, hb, hk]
  refine hAdd.trans (leads_of_lists (hMemory ▸ hListing) 1 rfl ?_ ?_)
  · rw [hPc]
    exact toNat_next (Memory.lt_of_slice (hListing.slice (k := 0) rfl))
  · simp [obstacle?, checks, Check.failure?, hTarget, hk]

end Config

/-- A new machine, about to push eighteen onto an address near its program. -/
def Machine.overwriting (x : Word) (push pop : Instruction) : Machine :=
  let m := Memory.zero.poke 0 ([push, pop].flatMap Instruction.encode)
  { toConfig := ((boot m).setRegister 0 18).setRegister 14 (x + 1) }

theorem Machine.sp_overwriting (x : Word) (push pop : Instruction) :
    (overwriting x push pop).registers.sp = x + 1 :=
  Registers.get_set_self ..

theorem Machine.below_overwriting (x : Word) (push pop : Instruction) :
    (overwriting x push pop).registers.sp - 1 = (overwriting x push pop).registers.pc + x := by
  have hPc : (overwriting x push pop).registers.pc = 0 := rfl
  rw [sp_overwriting, hPc, UInt16.zero_add]
  exact UInt16.add_sub_cancel ..

namespace Session

variable {σ : Type} {o : Observer σ} {s t : Session σ} {i push pop : Instruction}

/-! ## A push and a pop as two steps -/

/-- A step that comes to an instruction executes it, or faults with the first of its conditions
that fails. -/
structure ComesTo (o : Observer σ) (s : Session σ) (i : Instruction) : Prop where
  fetch : s.machine.fetch = .ok (.instruction i)
  executed (hChecks : s.machine.obstacle? i = none) :
    ∃ t, s.step o = ⟨.ok .executed, t⟩ ∧ t.machine.toConfig = s.machine.successor i
  fault (cause : FaultCause) (hChecks : s.machine.obstacle? i = some cause) :
    (s.step o).answer = .error ⟨s.machine.registers.pc, cause⟩

theorem comesTo_of_fetch (o : Observer σ) (hRunning : s.machine.status = .running)
    (hFetch : s.machine.fetch = .ok (.instruction i)) : s.ComesTo o i := by
  refine ⟨hFetch, fun hChecks => ?_, fun cause hChecks => ?_⟩
  · obtain ⟨t, hStep, hMachine⟩ :=
      step_of_leads o hRunning (.single (Config.upcoming?_eq_some_iff.mpr ⟨hFetch, hChecks⟩))
    exact ⟨t, hStep, by rw [hMachine]⟩
  · rw [answer_step o hRunning]
    exact (Config.verdict_eq_error_iff hFetch).mpr hChecks

/-- Two steps execute instructions, and after them the word that the push stores is found in the
register of the pop. -/
def Copies (o : Observer σ) (s : Session σ) (push pop : Instruction) : Prop :=
  ∃ t, s.after o 2 = some t ∧
    s.machine.Copied t.machine.toConfig pop.a (Executed.mk s.machine.toConfig push).pushed

theorem copies_of_clear (o : Observer σ) (hRunning : s.machine.status = .running)
    (h : s.machine.PushPop push pop)
    (hOpcode : s.machine.registers.sp - 1 ≠ s.machine.registers.pc + 4)
    (hOperand : s.machine.registers.sp - 1 ≠ s.machine.registers.pc + 5) :
    s.Copies o push pop := by
  obtain ⟨b, k, hFetch⟩ := h.fetch_of_clear hOpcode hOperand
  have hTarget := h.target
  have hChecks : (s.machine.successor push).obstacle? ⟨.pop, pop.a, b, k⟩ = none := by
    rw [h.obstacle?_of_isPop rfl, Check.failure?, if_pos (by dsimp only; omega)]
  have hPop := Config.Leads.single (Config.upcoming?_eq_some_iff.mpr ⟨hFetch, hChecks⟩)
  obtain ⟨t, hAfter, hMachine⟩ := after_of_leads o hRunning (h.leads.trans hPop)
  refine ⟨t, hAfter, ?_⟩
  rw [hMachine]
  exact h.copied (i := ⟨.pop, pop.a, b, k⟩) rfl rfl

/-- A machine that does not execute a second instruction does not copy. -/
theorem not_copies_of_step (hFirst : s.step o = ⟨.ok .executed, t⟩)
    (hSecond : (t.step o).answer ≠ .ok .executed) : ¬s.Copies o push pop := by
  rintro ⟨u, hAfter, -⟩
  rw [after_succ_of_executed hFirst] at hAfter
  obtain ⟨v, hStep, -⟩ := after_succ_eq_some_iff.mp hAfter
  exact hSecond (by rw [hStep])

/-- What comes behind a push is decided by the word that it stores, if it stores it where the pop
has its operand or its number. -/
theorem behind_push (o : Observer σ) (hRunning : s.machine.status = .running)
    (h : s.machine.PushPop push pop) :
    let w := (Executed.mk s.machine.toConfig push).pushed
    ∃ t, s.step o = ⟨.ok .executed, t⟩ ∧
      (s.machine.registers.sp - 1 = s.machine.registers.pc + 5 →
        t.ComesTo o ⟨.pop, w, pop.b, pop.c⟩ ∧
          t.machine.obstacle? ⟨.pop, w, pop.b, pop.c⟩ = (Check.register w).failure?) ∧
      (s.machine.registers.sp - 1 = s.machine.registers.pc + 4 →
        (∀ opcode : Opcode, opcode.toWord = w → t.ComesTo o ⟨opcode, pop.a, pop.b, pop.c⟩) ∧
          ((∀ opcode : Opcode, opcode.toWord ≠ w) →
            (t.step o).answer = .ok (.halted ⟨s.machine.registers.pc + 4, w⟩))) := by
  intro w
  obtain ⟨t, hStep, hMachine⟩ := step_of_leads o hRunning h.leads
  have hStill : t.machine.status = .running := by rw [hMachine]
  have hConfig : t.machine.toConfig = s.machine.successor push := by rw [hMachine]
  refine ⟨t, hStep, fun hOperand => ⟨?_, ?_⟩, fun hOpcode => ⟨?_, fun hNone => ?_⟩⟩
  · apply comesTo_of_fetch o hStill
    rw [hConfig, h.fetch_of_operand hOperand]
  · rw [hConfig, h.obstacle?_of_isPop rfl]
  · intro opcode hEq
    apply comesTo_of_fetch o hStill
    rw [hConfig, h.fetch_of_opcode hOpcode, ← Fetched.ofWords_toWord, hEq]
  · have hFetch := h.fetch_of_opcode hOpcode
    rw [Fetched.ofWords_eq_undefined_iff.mpr ⟨rfl, hNone⟩] at hFetch
    rw [answer_step o hStill, hConfig, Config.verdict, hFetch, h.pc]
    rfl

/-- A pop may be overwritten so that nothing is copied: eighteen is neither a register nor the
number of an operation. -/
theorem exists_not_copies (o : Observer σ) (s : Session σ) {x : Word} (hNear : x = 4 ∨ x = 5) :
    ∃ (t : Session σ) (push pop : Instruction),
      t.machine.status = .running ∧ t.machine.PushPop push pop ∧
        t.machine.registers.sp - 1 = t.machine.registers.pc + x ∧ ¬t.Copies o push pop := by
  let push : Instruction := ⟨.push, 0, 0, 0⟩
  let pop : Instruction := ⟨.pop, 1, 0, 0⟩
  let t : Session σ := { s with machine := .overwriting x push pop }
  have hBelow : t.machine.registers.sp - 1 = t.machine.registers.pc + x :=
    Machine.below_overwriting x push pop
  have hStack : t.machine.registers.sp ≠ 0 := by
    rw [Machine.sp_overwriting]
    rcases hNear with rfl | rfl
    · decide
    · decide
  have h : t.machine.PushPop push pop :=
    ⟨Memory.lists_poke .zero (by decide), rfl, rfl, by decide, by decide, hStack⟩
  obtain ⟨u, hStep, hOperand, hOpcode⟩ := behind_push o rfl h
  refine ⟨t, push, pop, rfl, h, hBelow, not_copies_of_step hStep ?_⟩
  rcases hNear with rfl | rfl
  · have hNone (opcode : Opcode) : opcode.toWord ≠ 18 := by cases opcode <;> decide
    rw [(hOpcode hBelow).2 hNone]
    exact nofun
  · obtain ⟨hComes, hChecks⟩ := hOperand hBelow
    rw [hComes.fault _ hChecks]
    exact nofun

/-- A pop behind a push copies the pushed word, and the stack pointer is where it was, if the push
does not overwrite the operation or the operand of the pop. Otherwise the second step goes by the
pushed word: it is the operand of the pop, or the number of the operation that is executed instead.
So there the pair need not copy. -/
theorem push_then_pop_copies (o : Observer σ) (hRunning : s.machine.status = .running)
    (h : s.machine.PushPop push pop) :
    let p := s.machine.registers.pc
    let below := s.machine.registers.sp - 1
    let w := (Executed.mk s.machine.toConfig push).pushed
    (w = if push.a = 15 then p else if push.a = 14 then below else s.machine.register push.a) ∧
      (below ≠ p + 4 → below ≠ p + 5 → s.Copies o push pop) ∧
      (∃ t, s.step o = ⟨.ok .executed, t⟩ ∧
        (below = p + 5 →
          t.ComesTo o ⟨.pop, w, pop.b, pop.c⟩ ∧
            t.machine.obstacle? ⟨.pop, w, pop.b, pop.c⟩ = (Check.register w).failure?) ∧
        (below = p + 4 →
          (∀ opcode : Opcode, opcode.toWord = w → t.ComesTo o ⟨opcode, pop.a, pop.b, pop.c⟩) ∧
            ((∀ opcode : Opcode, opcode.toWord ≠ w) →
              (t.step o).answer = .ok (.halted ⟨p + 4, w⟩)))) ∧
      ∀ x : Word, x = 4 ∨ x = 5 →
        ∃ (t : Session σ) (i j : Instruction),
          t.machine.status = .running ∧ t.machine.PushPop i j ∧
            t.machine.registers.sp - 1 = t.machine.registers.pc + x ∧ ¬t.Copies o i j := by
  refine ⟨?_, copies_of_clear o hRunning h, behind_push o hRunning h,
    fun x => exists_not_copies o s⟩
  unfold Executed.pushed
  split
  · next hSp => rw [hSp, if_neg (by decide)]
  · split
    · next hPc => rw [hPc, Config.register_pc]
    · rfl

/-- A push of the program counter that overwrites an operand of the pop which is not used. -/
theorem push_then_pop_copies_pc :
    let push : Instruction := ⟨.push, 15, 0, 0⟩
    let pop : Instruction := ⟨.pop, 13, 0, 0⟩
    let s : Session Unit :=
      { machine := .overwriting 6 push pop, watch := (), log := { threshold := none } }
    s.machine.status = .running ∧ s.machine.PushPop push pop ∧ s.Copies .idle push pop := by
  intro push pop s
  have h : s.machine.PushPop push pop :=
    ⟨Memory.lists_poke .zero (by decide), rfl, rfl, by decide, by decide, by decide⟩
  obtain ⟨-, hCopies, -⟩ := push_then_pop_copies .idle rfl h
  exact ⟨rfl, h, hCopies (by decide) (by decide)⟩

/-! ## An addition and a subtraction as two steps -/

/-- A subtraction behind an addition restores the word that was added to, whatever registers are
named, unless what was added is no longer there: it is the sum itself, or the program counter, which
has moved. -/
theorem add_then_subtract_restores (o : Observer σ) {i j k : Word}
    (hRunning : s.machine.status = .running)
    (hListing : s.machine.memory.Lists s.machine.registers.pc.toNat
      [⟨.add, i, j, k⟩, ⟨.subtract, i, i, k⟩])
    (hi : i.toNat < 15) (hj : j.toNat < 16) (hk : k.toNat < 16) :
    let p := s.machine.registers.pc
    let x := if j = 15 then p else s.machine.register j
    ∃ t, s.after o 2 = some t ∧ t.machine.memory = s.machine.memory ∧
      t.machine.registers.pc = p + 8 ∧
      (∀ q, q ≠ i → q ≠ 15 → t.machine.register q = s.machine.register q) ∧
      t.machine.register i = if k = i then 0 else if k = 15 then x - 4 else x := by
  intro p x
  have hWord : x = s.machine.register j := by
    by_cases hPc : j = 15
    · exact (if_pos hPc).trans (by rw [hPc]; rfl)
    · exact if_neg hPc
  have hOther : i ≠ 15 := UInt16.ne_of_lt hi
  obtain ⟨t, hAfter, hMachine⟩ :=
    after_of_leads o hRunning (Config.leads_restored hListing hi hj hk)
  have hConfig : t.machine.toConfig = _ := congrArg Machine.toConfig hMachine
  refine ⟨t, hAfter, ?_, ?_, fun q hFree hPc => ?_, ?_⟩
  · rw [hConfig]
    exact Config.memory_restored ..
  · rw [← Config.register_pc, hConfig, Config.register_restored j hi, if_pos rfl]
  · rw [hConfig, Config.register_restored j hi, if_neg hPc, if_neg hFree]
  · rw [hConfig, Config.register_restored j hi, if_neg hOther, if_pos rfl, hWord]

/-- The stack pointer is added to itself, and the sum does not fit. -/
theorem add_then_subtract_restores_sp :
    let program : List Instruction := [⟨.add, 0, 14, 14⟩, ⟨.subtract, 0, 0, 14⟩]
    let s : Session Unit :=
      { machine := .boot (Memory.zero.poke 0 (program.flatMap Instruction.encode))
        watch := ()
        log := { threshold := none } }
    s.machine.status = .running ∧ s.machine.memory.Lists 0 program ∧
      ∃ t, s.after .idle 2 = some t ∧ t.machine.register 0 = 65535 := by
  intro program s
  have hListing : s.machine.memory.Lists 0 program := Memory.lists_poke .zero (by decide)
  obtain ⟨t, hAfter, -, -, -, hRestored⟩ :=
    add_then_subtract_restores .idle rfl hListing (by decide) (by decide) (by decide)
  refine ⟨rfl, hListing, t, hAfter, ?_⟩
  rw [hRestored]
  decide

end Session

end RegisterMachine
