import RegisterMachine.Proofs.Operations

/-!
# What a step answers

The answer to a step of a running machine depends on its configuration alone. It is decided by what
is fetched and by the conditions of the instruction, and so are the records that the step makes when
it executes nothing.

* `fetch_of_lt`, `fetch_of_le`: the four words of an instruction have to lie in memory. If they do
  not, the first address that is missing is always the largest word.
* `answer_step`: the answer to a step.
* `outcome_of_step_is_decided`: when a step faults, halts and executes, and which causes are met.
-/

namespace RegisterMachine

/-- The causes that machines meet: an operand that really names no register, and the only word that
is no address. -/
def FaultCause.Genuine : FaultCause → Prop
  | divisionByZero => True
  | noRegister index => 16 ≤ index.toNat
  | outsideMemory address => address = 65535

theorem FaultCause.genuine_outsideMemory {x : Word} (h : ¬x.toNat < 65535) :
    (outsideMemory x.toNat).Genuine := by
  have hWord := x.toNat_lt
  change x.toNat = 65535
  omega

theorem Address.genuine_of_ofNat {x : Word} {cause : FaultCause}
    (h : ofNat x.toNat = .error cause) : cause.Genuine := by
  unfold ofNat at h
  split at h
  · cases h
  · next hAddress =>
    cases h
    exact FaultCause.genuine_outsideMemory hAddress

theorem Register.genuine_of_ofWord {operand : Word} {cause : FaultCause}
    (h : ofWord operand = .error cause) : cause.Genuine := by
  unfold ofWord at h
  split at h
  · cases h
  · next hOperand =>
    cases h
    exact Nat.not_lt.mp hOperand

theorem Check.genuine_of_failure? {k : Check} {cause : FaultCause}
    (h : k.failure? = some cause) : cause.Genuine := by
  unfold failure? at h
  split at h
  · next operand =>
    split at h
    · cases h
    · next hOperand =>
      cases h
      exact Nat.not_lt.mp hOperand
  · next x =>
    split at h
    · cases h
    · next hAddress =>
      cases h
      exact FaultCause.genuine_outsideMemory hAddress
  · next w =>
    split at h
    · cases h
      trivial
    · cases h

/-! ## Fetching -/

namespace Memory

theorem fetch_of_lt (m : Memory) {start : Nat} (h : start + 3 < 65535) :
    m.fetch start = .ok (.ofWords (m.get ⟨start, by omega⟩) (m.get ⟨start + 1, by omega⟩)
      (m.get ⟨start + 2, by omega⟩) (m.get ⟨start + 3, h⟩)) := by
  rw [fetch, read_of_lt m (by omega), read_of_lt m (by omega), read_of_lt m (by omega),
    read_of_lt m h]
  rfl

/-- A fetch reads in turn, so the first address outside of memory is the one next to it. -/
theorem fetch_of_le (m : Memory) {start : Nat} (h : 65535 ≤ start + 3) (hStart : start ≤ 65535) :
    m.fetch start = .error (.outsideMemory 65535) := by
  have hEnd : m.read 65535 = .error (.outsideMemory 65535) := read_of_le m (Nat.le_refl _)
  obtain rfl | rfl | rfl | rfl :
      start = 65535 ∨ start = 65534 ∨ start = 65533 ∨ start = 65532 := by omega
  · rw [fetch, hEnd]
    rfl
  · rw [fetch, read_of_lt m (by omega), hEnd]
    rfl
  · rw [fetch, read_of_lt m (by omega), read_of_lt m (by omega), hEnd]
    rfl
  · rw [fetch, read_of_lt m (by omega), read_of_lt m (by omega), read_of_lt m (by omega), hEnd]
    rfl

end Memory

theorem Fetched.ofWords_toWord (opcode : Opcode) (a b c : Word) :
    ofWords opcode.toWord a b c = .instruction ⟨opcode, a, b, c⟩ := by
  simp [ofWords, Instruction.decode]

/-- A word that is no number from one to seventeen is no operation. -/
theorem Fetched.ofWords_of_not_opcode {op : Word} (h : ¬(1 ≤ op.toNat ∧ op.toNat ≤ 17))
    (a b c : Word) : ofWords op a b c = .undefined op := by
  have hNone : Opcode.ofWord? op = none := by
    rw [← Option.not_isSome_iff_eq_none, Opcode.isSome_ofWord?]
    simpa using h
  simp [ofWords, Instruction.decode, hNone]

namespace Config

theorem fetch_of_lt {c : Config} (h : c.registers.pc.toNat < 65532) :
    c.fetch = .ok (.ofWords (c.word c.registers.pc) (c.word (c.registers.pc + 1))
      (c.word (c.registers.pc + 2)) (c.word (c.registers.pc + 3))) := by
  have hWord (k : Word) (hk : k.toNat < 4) :
      ∃ hx, c.word (c.registers.pc + k) = c.memory.get ⟨c.registers.pc.toNat + k.toNat, hx⟩ := by
    have hSum : (c.registers.pc + k).toNat = c.registers.pc.toNat + k.toNat := by
      rw [UInt16.toNat_add, Nat.mod_eq_of_lt (by omega)]
    refine ⟨by omega, ?_⟩
    unfold word
    simp only [hSum]
    rw [dif_pos (by omega)]
  obtain ⟨_, h0⟩ := hWord 0 (by decide)
  obtain ⟨_, h1⟩ := hWord 1 (by decide)
  obtain ⟨_, h2⟩ := hWord 2 (by decide)
  obtain ⟨_, h3⟩ := hWord 3 (by decide)
  rw [UInt16.add_zero] at h0
  rw [fetch, Memory.fetch_of_lt c.memory (by omega), h0, h1, h2, h3]
  rfl

theorem fetch_of_le {c : Config} (h : 65532 ≤ c.registers.pc.toNat) :
    c.fetch = .error ⟨c.registers.pc, .outsideMemory 65535⟩ := by
  have := c.registers.pc.toNat_lt
  rw [fetch, Memory.fetch_of_le c.memory (by omega) (by omega)]
  rfl

theorem genuine_of_fetch_error {c : Config} {f : Fault} (h : c.fetch = .error f) :
    f.cause.Genuine := by
  by_cases hEnd : 65532 ≤ c.registers.pc.toNat
  · rw [fetch_of_le hEnd] at h
    cases h
    rfl
  · rw [fetch_of_lt (Nat.not_le.mp hEnd)] at h
    cases h

theorem genuine_of_obstacle? {c : Config} {i : Instruction} {cause : FaultCause}
    (h : c.obstacle? i = some cause) : cause.Genuine := by
  obtain ⟨k, -, hFailure⟩ := List.exists_of_findSome?_eq_some h
  exact Check.genuine_of_failure? hFailure

/-- The answer to a step of a running machine. -/
def verdict (c : Config) : Except Fault Step :=
  match c.fetch with
  | .error f => .error f
  | .ok (.undefined opcode) => .ok (.halted ⟨c.registers.pc, opcode⟩)
  | .ok (.instruction i) =>
    match c.obstacle? i with
    | none => .ok .executed
    | some cause => .error ⟨c.registers.pc, cause⟩

/-- Without room for another instruction a machine faults. -/
theorem verdict_of_le {c : Config} (h : 65532 ≤ c.registers.pc.toNat) :
    c.verdict = .error ⟨c.registers.pc, .outsideMemory 65535⟩ := by
  rw [verdict, fetch_of_le h]

theorem verdict_eq_error_iff {c : Config} {i : Instruction} {cause : FaultCause}
    (hFetch : c.fetch = .ok (.instruction i)) :
    c.verdict = .error ⟨c.registers.pc, cause⟩ ↔ c.obstacle? i = some cause := by
  rw [verdict, hFetch]
  dsimp only
  cases c.obstacle? i <;> simp

end Config

namespace Log

def addAll (log : Log) (rs : List Record) : Log :=
  rs.foldl add log

theorem addAll_append (log : Log) (rs rs' : List Record) :
    log.addAll (rs ++ rs') = (log.addAll rs).addAll rs' :=
  List.foldl_append

/-- A log that records are added to keeps those that are severe enough, in their order. -/
theorem toList_records_addAll (log : Log) (rs : List Record) :
    (log.addAll rs).records.toList = log.records.toList ++ rs.filter (keeps log.threshold) := by
  induction rs generalizing log with
  | nil => simp [addAll]
  | cons r rs ih =>
    change ((log.add r).addAll rs).records.toList = _
    rw [ih, toList_records_add, threshold_add, List.append_assoc, ← List.filter_append]
    rfl

@[simp]
theorem threshold_addAll (log : Log) (rs : List Record) :
    (log.addAll rs).threshold = log.threshold := by
  induction rs generalizing log with
  | nil => rfl
  | cons r rs ih => exact (ih (log.add r)).trans (threshold_add log r)

theorem keeps_trace (r : Record) : keeps (some .trace) r = true := by
  cases r <;> rfl

theorem mem_records_addAll {log : Log} {rs : List Record} {r : Record}
    (h : r ∈ (log.addAll rs).records) : r ∈ log.records ∨ r ∈ rs := by
  rw [← Array.mem_toList_iff, toList_records_addAll, List.mem_append, Array.mem_toList_iff] at h
  exact h.imp_right fun hMem => (List.mem_filter.mp hMem).1

end Log

/-- The records of a step that executes nothing. A machine that has stopped before makes none. -/
def Machine.closing (m : Machine) : List Record :=
  match m.status with
  | .halted _ | .faulted _ => []
  | .running =>
    match m.fetch with
    | .error f => [.faulted f]
    | .ok (.undefined opcode) => [.halted ⟨m.registers.pc, opcode⟩]
    | .ok (.instruction i) =>
      match m.obstacle? i with
      | none => []
      | some cause => [.executing m.registers.pc i, .faulted ⟨m.registers.pc, cause⟩]

namespace Session

variable {σ : Type} {o : Observer σ} {s t : Session σ}

/-! ## Steps -/

theorem answer_step (o : Observer σ) (hRunning : s.machine.status = .running) :
    (s.step o).answer = s.machine.verdict := by
  have hCase := stepOf_step o hRunning
  generalize s.step o = outcome at hCase ⊢
  cases hCase with
  | executed i hFetch hChecks => simp [Config.verdict, hFetch, hChecks]
  | refused i cause hFetch hChecks => simp [Config.verdict, hFetch, hChecks]
  | unfetched f hFetch => simp [Config.verdict, hFetch]
  | halted opcode hFetch => simp [Config.verdict, hFetch]

/-- The failure that an observer reports of an instruction, if there is one. -/
def failure? (o : Observer σ) (i : Instruction) (s : Session σ) : Option Console.Failure :=
  (o.observe (s.machine.complete i) i s.watch).2

theorem log_complete (o : Observer σ) (i : Instruction) (s : Session σ) :
    (s.complete o i).log = s.log.addAll ((s.failure? o i).toList.map .consoleFailed) := by
  unfold complete failure? present advance
  dsimp only
  cases (o.observe (s.machine.complete i) i s.watch).2 <;> rfl

theorem log_step_stopped (hStep : (s.step o).answer ≠ .ok .executed) :
    (s.step o).session.log = s.log.addAll s.machine.closing := by
  cases hStatus : s.machine.status with
  | halted h => simp [step, Machine.closing, hStatus, Log.addAll]
  | faulted f => simp [step, Machine.closing, hStatus, Log.addAll]
  | running =>
    have hCase := stepOf_step o hStatus
    generalize s.step o = outcome at hCase hStep ⊢
    cases hCase with
    | executed i hFetch hChecks => exact absurd rfl hStep
    | refused i cause hFetch hChecks =>
      simp [Machine.closing, hStatus, hFetch, hChecks, Log.addAll, fault, note]
    | unfetched f hFetch => simp [Machine.closing, hStatus, hFetch, Log.addAll, fault]
    | halted opcode hFetch => simp [Machine.closing, hStatus, hFetch, Log.addAll, halt]

/-! ## Causes -/

/-- All faults in the status and in the log have genuine causes, but for those in an earlier log. -/
structure Truthful (earlier : Log) (s : Session σ) : Prop where
  status : ∀ f, s.machine.status = .faulted f → f.cause.Genuine
  log : ∀ f, Record.faulted f ∈ s.log.records →
    Record.faulted f ∈ earlier.records ∨ f.cause.Genuine

/-- Records that name genuine causes only can be added to the log of a truthful session. -/
theorem Truthful.log_addAll {earlier log : Log} (h : Truthful earlier s) (rs : List Record)
    (hNew : ∀ f, Record.faulted f ∈ rs → f.cause.Genuine) (hLog : log = s.log.addAll rs)
    (f : Fault) (hMem : Record.faulted f ∈ log.records) :
    Record.faulted f ∈ earlier.records ∨ f.cause.Genuine := by
  rw [hLog] at hMem
  exact (Log.mem_records_addAll hMem).elim (h.log f) fun hAdded => .inr (hNew f hAdded)

/-- A step keeps a session truthful: it notes at most one fault, which is also its answer. -/
theorem truthful_step {earlier : Log} (s : Session σ) (o : Observer σ) (h : Truthful earlier s) :
    Truthful earlier (s.step o).session := by
  cases hStatus : s.machine.status with
  | halted g =>
    rw [step_of_status_halted hStatus]
    exact h
  | faulted f =>
    rw [step_of_status_faulted hStatus]
    exact h
  | running =>
    have hCase := stepOf_step o hStatus
    generalize s.step o = outcome at hCase ⊢
    cases hCase with
    | executed i hFetch hChecks =>
      constructor
      · intro f hFaulted
        rw [machine_complete] at hFaulted
        exact h.status f hFaulted
      · exact h.log_addAll (.executing _ i :: _) (fun f hMem => by simp at hMem) (log_complete ..)
    | refused i cause hFetch hChecks =>
      have hCause := Config.genuine_of_obstacle? hChecks
      constructor
      · rintro f ⟨⟩
        exact hCause
      · exact h.log_addAll [.executing _ i, .faulted ⟨_, cause⟩] (by simpa using hCause) rfl
    | unfetched f hFetch =>
      have hCause := Config.genuine_of_fetch_error hFetch
      constructor
      · rintro f ⟨⟩
        exact hCause
      · exact h.log_addAll [.faulted f] (by simpa using hCause) rfl
    | halted opcode hFetch =>
      constructor
      · rintro f ⟨⟩
      · exact h.log_addAll [.halted ⟨_, opcode⟩] (fun f hMem => by simp at hMem) rfl

theorem truthful_perform {earlier : Log} (s : Session σ) (op : Operation σ)
    (h : Truthful earlier s) : Truthful earlier (s.perform op) := by
  refine perform_of_edit (fun s c h => ⟨h.status, h.log⟩) (fun s words h => ⟨h.status, ?_⟩) op
    (fun d _ => drive_of_step d (fun s => truthful_step s _) h) h
  exact h.log_addAll [.loaded words] (by simp) rfl

theorem genuine_of_complaint? {earlier : Log} {op : Operation σ} {cause : FaultCause}
    (h : Truthful earlier s) (hComplaint : s.complaint? op = some cause) : cause.Genuine := by
  cases op with
  | read x | write x w =>
    exact Address.genuine_of_ofNat
      (error?_eq_some_iff.mp ((error?_bind_pure ..).symm.trans hComplaint))
  | get operand | set operand w =>
    exact Register.genuine_of_ofWord
      (error?_eq_some_iff.mp ((error?_bind_pure ..).symm.trans hComplaint))
  | fetch =>
    obtain ⟨f, hFetch, rfl⟩ := Option.map_eq_some_iff.mp hComplaint
    exact Config.genuine_of_fetch_error (error?_eq_some_iff.mp hFetch)
  | drive d =>
    obtain ⟨f, hFault, rfl⟩ := Option.map_eq_some_iff.mp hComplaint
    exact (drive_of_step d (fun s => truthful_step s _) h).status f (status_of_fault? hFault)
  | load | overwrite | setStackPointer | setProgramCounter | replaceRegisters => cases hComplaint

/-- A step of a running machine faults, halts or executes by what is in the four words at the
program counter and by the first condition that fails, and a fetch tells which of these comes. No
cause but a genuine one is ever reported, kept or noted, whatever is done with the machine. -/
theorem outcome_of_step_is_decided (o : Observer σ) (s : Session σ)
    (hRunning : s.machine.status = .running) :
    let c := s.machine.toConfig
    let p := c.registers.pc
    let op := c.word p
    (65532 ≤ p.toNat → c.fetch = .error ⟨p, .outsideMemory 65535⟩ ∧
      (s.step o).answer = .error ⟨p, .outsideMemory 65535⟩) ∧
    (p.toNat < 65532 → ¬(1 ≤ op.toNat ∧ op.toNat ≤ 17) → c.fetch = .ok (.undefined op) ∧
      (s.step o).answer = .ok (.halted ⟨p, op⟩)) ∧
    (∀ opcode : Opcode, p.toNat < 65532 → op = opcode.toWord →
      let i : Instruction := ⟨opcode, c.word (p + 1), c.word (p + 2), c.word (p + 3)⟩
      c.fetch = .ok (.instruction i) ∧
        (s.step o).answer =
          match (c.checks i).findSome? Check.failure? with
          | none => .ok .executed
          | some cause => .error ⟨p, cause⟩) ∧
    s.perform .fetch = s ∧
    ∀ ops,
      let t := s.performAll ops
      (∀ op cause, t.complaint? op = some cause → cause.Genuine) ∧
        (∀ f, t.machine.status = .faulted f → f.cause.Genuine) ∧
        ∀ f, Record.faulted f ∈ t.log.records →
          Record.faulted f ∈ s.log.records ∨ f.cause.Genuine := by
  intro c p op
  rw [answer_step o hRunning]
  refine ⟨fun hEnd => ?_, fun hFetch hUndefined => ?_, fun opcode hFetch hOpcode => ?_, rfl,
    fun ops => ?_⟩
  · have hWords := Config.fetch_of_le hEnd
    exact ⟨hWords, by rw [Config.verdict, hWords]⟩
  · have hWords := Config.fetch_of_lt hFetch
    rw [Fetched.ofWords_of_not_opcode hUndefined] at hWords
    exact ⟨hWords, by rw [Config.verdict, hWords]⟩
  · have hWords := Config.fetch_of_lt hFetch
    rw [show c.word p = opcode.toWord from hOpcode, Fetched.ofWords_toWord] at hWords
    exact ⟨hWords, by rw [Config.verdict, hWords]; rfl⟩
  · have hStart : Truthful s.log s := ⟨fun f hFaulted => ?_, fun f hMem => .inl hMem⟩
    · have hTruthful := performAll_of_perform truthful_perform ops hStart
      exact ⟨fun op cause => genuine_of_complaint? hTruthful, hTruthful.status, hTruthful.log⟩
    · rw [hRunning] at hFaulted
      cases hFaulted

/-- Two instructions with two wrong operands each: a load tests its address first, and a store tests
its register first. -/
theorem outcome_of_step_is_decided_twice_wrong :
    let session (i : Instruction) : Session Unit :=
      { machine := .boot (Memory.zero.poke 0 i.encode), watch := (), log := { threshold := none } }
    let s := session ⟨.load, 16, 65535, 0⟩
    let t := session ⟨.store, 65535, 16, 0⟩
    s.machine.status = .running ∧ t.machine.status = .running ∧
      (s.step .idle).answer = .error ⟨0, .outsideMemory 65535⟩ ∧
      (t.step .idle).answer = .error ⟨0, .noRegister 16⟩ := by
  intro session s t
  obtain ⟨-, -, hLoad, -⟩ := outcome_of_step_is_decided .idle s rfl
  obtain ⟨-, -, hStore, -⟩ := outcome_of_step_is_decided .idle t rfl
  exact ⟨rfl, rfl, (hLoad .load (by decide) rfl).2, (hStore .store (by decide) rfl).2⟩

end Session

end RegisterMachine
