import RegisterMachine.CommandLine.Host
import RegisterMachine.Proofs.Reports

/-!
# Programs on a host

A world is a host in memory: its files are those of a function, its terminal is a console, and the
records and errors that are written are kept. A program that runs there one step after another has
in the end written what its answer says, and its exit code is that of the answer.

A session portrays the world in which its machine runs (`Portrait`): the state of the observer tells
the console and whether a debugger pauses there, and the log tells what has been written. A call on
the session and what the host does lead to the same world (`Mirrors`), step by step.

* `present_host`: the debugger does at the terminal of a world what it does at a console.
* `step_host`, `runTo_host`: a step and a run.
* `perform_host`: a request.
* `execute_eq_answer`: a whole program.
-/

namespace RegisterMachine.CommandLine

/-! ## Worlds -/

/-- A host in memory, with what has been written to it. -/
structure World where
  console : Console
  records : List Record := []
  errors : String := ""

namespace World

variable {α β : Type} {w w' : World}

/-- Does at the console of a world what can be done at a console. -/
def atConsole (x : EStateM Console.Failure Console α) :
    ExceptT Console.Failure (StateM World) α :=
  ExceptT.mk fun w =>
    match x w.console with
    | .ok a console => (.ok a, { w with console })
    | .error failure console => (.error failure, { w with console })

def host (files : String → Reading) : Host (StateM World) where
  readFile path := return files path
  terminal :=
    { write := fun text => atConsole (Console.write text)
      readLine := atConsole Console.readLine }
  writeRecord r := modify fun w => { w with records := w.records ++ [r] }
  writeError text := modify fun w => { w with errors := w.errors ++ text }

theorem run_bind_of {x : StateM World α} {f : α → StateM World β} {a : α}
    (h : x.run w = (a, w')) : (x >>= f).run w = (f a).run w' := by
  rw [StateT.run_bind, h]
  rfl

theorem atConsole_bind (x : EStateM Console.Failure Console α)
    (f : α → EStateM Console.Failure Console β) :
    atConsole (x >>= f) = atConsole x >>= fun a => atConsole (f a) := by
  funext w
  dsimp only [bind, EStateM.bind, ExceptT.bind, ExceptT.mk, StateT.bind, atConsole]
  cases x w.console <;> rfl

theorem run_atConsole_of_ok {x : EStateM Console.Failure Console α} {a : α} {console : Console}
    (h : x.run w.console = .ok a console) :
    (atConsole x).run.run w = (.ok a, { w with console }) := by
  rw [EStateM.run] at h
  dsimp only [atConsole, ExceptT.run, ExceptT.mk, StateT.run]
  rw [h]

theorem run_atConsole_of_error {x : EStateM Console.Failure Console α} {failure : Console.Failure}
    {console : Console} (h : x.run w.console = .error failure console) :
    (atConsole x).run.run w = (.error failure, { w with console }) := by
  rw [EStateM.run] at h
  dsimp only [atConsole, ExceptT.run, ExceptT.mk, StateT.run]
  rw [h]

/-- The debugger does at the terminal of a world what it does at a console. -/
theorem present_host (files : String → Reading) (regs : Registers) (i : Instruction)
    (pausing : Bool) :
    Debugger.present (host files).terminal regs i pausing =
      atConsole (Debugger.present Console.terminal regs i pausing) := by
  unfold Debugger.present
  rw [atConsole_bind]
  congr 1
  funext _
  cases pausing with
  | false => rfl
  | true =>
    rw [if_pos rfl, if_pos rfl, atConsole_bind]
    congr 1
    funext _
    rw [atConsole_bind]
    congr 1
    funext line
    cases line with
    | nil => exact (atConsole_bind (Console.write "\n") fun _ => pure false).symm
    | cons => rfl

theorem writeLog_host (files : String → Reading) (log : Log) (w : World) :
    ((host files).writeLog log).run w =
      ((), { w with records := w.records ++ log.records.toList }) := by
  unfold Host.writeLog
  generalize log.records.toList = rs
  induction rs generalizing w with
  | nil =>
    rw [List.append_nil]
    rfl
  | cons r rs ih =>
    have hFirst : ((host files).writeRecord r).run w =
        ((), { w with records := w.records ++ [r] }) := rfl
    rw [List.forM_cons, run_bind_of hFirst, ih, List.append_assoc, List.singleton_append]

end World

/-! ## Sessions as portraits of worlds -/

/-- How an observer appears in a world: its console, and whether it pauses if it is a debugger. A
host presents an instruction to the same effect as the observer sees it. -/
structure Portrait {σ : Type} (o : Observer σ) where
  pausing? : σ → Option Bool
  console : σ → Console
  present_eq (files : String → Reading) (threshold : Option Level) (m : Machine)
    (i : Instruction) (watch : σ) (rs : List Record) :
    let seen := o.observe m i watch
    ((World.host files).present threshold (some (m.registers, i)) (pausing? watch)).run
        { console := console watch, records := rs } =
      (pausing? seen.1,
        { console := console seen.1
          records := rs ++ (seen.2.toList.map .consoleFailed).filter (Log.keeps threshold) })

namespace Portrait

/-- Where nobody looks on, a console is left as it is. -/
def idle (console : Console) : Portrait .idle where
  pausing? _ := none
  console _ := console
  present_eq files threshold m i watch rs := by
    dsimp only [Host.present, Observer.idle]
    rw [Option.toList_none, List.map_nil, List.filter_nil, List.append_nil]
    rfl

def debugger : Portrait Debugger.observer where
  pausing? d := some d.pausing
  console d := d.console
  present_eq files threshold m i d rs := by
    unfold Host.present Debugger.observer
    dsimp only
    rw [World.present_host]
    cases hCase : (Debugger.present Console.terminal m.registers i d.pausing).run d.console with
    | ok pausing console =>
      rw [World.run_bind_of (World.run_atConsole_of_ok hCase)]
      dsimp only
      rw [Option.toList_none, List.map_nil, List.filter_nil, List.append_nil]
      rfl
    | error failure console =>
      rw [World.run_bind_of (World.run_atConsole_of_error hCase)]
      dsimp only
      rw [World.run_bind_of (World.writeLog_host ..), Log.toList_records_add]
      rfl

/-- The world that a session portrays. -/
def world {σ : Type} {o : Observer σ} (p : Portrait o) (s : Session σ) : World where
  console := p.console s.watch
  records := s.log.records.toList

end Portrait

variable {σ τ α β : Type} {o : Observer σ} {s t : Session σ} {p : Portrait o}

/-- Something done on a host that answers as a call on a session does, and leaves the same machine
and the world of the session that the call leaves. -/
structure Mirrors (p : Portrait o) (s : Session σ) (outcome : Outcome σ α)
    (x : StateM World (Except Fault α × Machine)) : Prop where
  run : x.run (p.world s) = ((outcome.answer, outcome.session.machine), p.world outcome.session)
  threshold : outcome.session.log.threshold = s.log.threshold

/-! ## Calls that stop a machine -/

/-- A call on a session that leaves the observer alone, and the same call on a fresh session with
the same machine. -/
structure Renewed (s : Session σ) (outcome : Outcome σ α) (fresh : Outcome τ α) : Prop where
  answer : fresh.answer = outcome.answer
  machine : fresh.session.machine = outcome.session.machine
  watch : outcome.session.watch = s.watch
  log : ∃ rs, outcome.session.log = s.log.addAll rs ∧
    fresh.session.log = Log.addAll { threshold := s.log.threshold } rs

theorem Renewed.withAnswer {outcome : Outcome σ α} {fresh : Outcome τ α}
    (h : Renewed s outcome fresh) (answer : Except Fault β) :
    Renewed s ⟨answer, outcome.session⟩ ⟨answer, fresh.session⟩ :=
  ⟨rfl, h.machine, h.watch, h.log⟩

theorem renewed_step {answer : Except Fault Step} (o' : Observer τ) (watch : τ)
    (hStep : s.step o = ⟨answer, t⟩) (hStop : answer ≠ .ok .executed) :
    ∃ u, (Session.fresh s.machine watch s.log.threshold).step o' = ⟨answer, u⟩ ∧
      Renewed s ⟨answer, t⟩ ⟨answer, u⟩ := by
  let fresh := Session.fresh s.machine watch s.log.threshold
  have hSame : fresh.machine = s.machine := rfl
  obtain ⟨hAnswer, hMachine⟩ := Session.step_congr o' o hSame
  rw [hStep] at hAnswer hMachine
  have hHere : (s.step o).answer ≠ .ok .executed := by rwa [hStep]
  have hThere : (fresh.step o').answer ≠ .ok .executed := by rwa [hAnswer]
  have hWatch := (Session.machine_of_step_stopped hHere).2
  have hLog := Session.log_step_stopped hHere
  rw [hStep] at hWatch hLog
  exact ⟨_, Session.step_eq_of_answer hAnswer, rfl, hMachine, hWatch, s.machine.closing, hLog,
    Session.log_step_stopped hThere⟩

theorem renewed_settle (s : Session σ) (watch : τ) :
    Renewed s s.settle (Session.fresh s.machine watch s.log.threshold).settle := by
  unfold Session.settle Session.fresh
  dsimp only
  cases s.machine.status with
  | halted h => exact ⟨rfl, rfl, rfl, [], rfl, rfl⟩
  | faulted f => exact ⟨rfl, rfl, rfl, [], rfl, rfl⟩
  | running =>
    dsimp only
    split
    · exact ⟨rfl, rfl, rfl, [.halted _], rfl, rfl⟩
    · exact ⟨rfl, rfl, rfl, [], rfl, rfl⟩

/-- A host that reports the call on the fresh session mirrors the other. -/
theorem mirrors_report {outcome : Outcome σ α} {fresh : Outcome τ α} (p : Portrait o)
    (files : String → Reading) (h : Renewed s outcome fresh) :
    Mirrors p s outcome ((World.host files).report fresh) := by
  obtain ⟨rs, hLog, hFresh⟩ := h.log
  constructor
  · rw [Host.report, World.run_bind_of (World.writeLog_host ..), h.answer, h.machine,
      Portrait.world, Portrait.world, h.watch, hLog, hFresh, Log.toList_records_addAll,
      Log.toList_records_addAll]
    rfl
  · rw [hLog, Log.threshold_addAll]

/-! ## Runs -/

namespace Host

variable {m : Type → Type} [Monad m] {host : Host m} {threshold : Option Level} {limit : Nat}
  {pausing? : Option Bool} {machine : Machine} {u : Session (Option (Registers × Instruction))}

theorem runTo_of_executed (hLimit : machine.steps < limit)
    (hStep : (Session.fresh machine none threshold).step .latest = ⟨.ok .executed, u⟩) :
    host.runTo threshold limit pausing? machine = (do
      host.writeLog u.log
      let pausing? ← host.present threshold u.watch pausing?
      host.runTo threshold limit pausing? u.machine) := by
  rw [runTo, if_pos hLimit]
  split <;> simp_all

theorem runTo_of_halted {h : Halt} (hLimit : machine.steps < limit)
    (hStep : (Session.fresh machine none threshold).step .latest = ⟨.ok (.halted h), u⟩) :
    host.runTo threshold limit pausing? machine = host.report ⟨.ok (some h), u⟩ := by
  rw [runTo, if_pos hLimit]
  split <;> simp_all

theorem runTo_of_error {f : Fault} (hLimit : machine.steps < limit)
    (hStep : (Session.fresh machine none threshold).step .latest = ⟨.error f, u⟩) :
    host.runTo threshold limit pausing? machine = host.report ⟨.error f, u⟩ := by
  rw [runTo, if_pos hLimit]
  split <;> simp_all

theorem runTo_of_le (hLimit : limit ≤ machine.steps) :
    host.runTo threshold limit pausing? machine = pure (.ok none, machine) := by
  rw [runTo, if_neg (Nat.not_lt.mpr hLimit)]

end Host

/-- A host writes what an executed instruction has noted, and the debugger presents it. -/
theorem step_host (p : Portrait o) (files : String → Reading)
    (hStep : s.step o = ⟨.ok .executed, t⟩) :
    ∃ u, (Session.fresh s.machine none s.log.threshold).step .latest = ⟨.ok .executed, u⟩ ∧
      u.machine = t.machine ∧ t.log.threshold = s.log.threshold ∧
      ∃ w, ((World.host files).writeLog u.log).run (p.world s) = ((), w) ∧
        ((World.host files).present s.log.threshold u.watch (p.pausing? s.watch)).run w =
          (p.pausing? t.watch, p.world t) := by
  obtain ⟨i, hNext, rfl⟩ := Session.upcoming?_of_step_executed hStep
  let r := Record.executing s.machine.registers.pc i
  let fresh := Session.fresh s.machine (none : Option (Registers × Instruction)) s.log.threshold
  have hFresh : fresh.step .latest = ⟨.ok .executed, (fresh.note r).complete .latest i⟩ :=
    Session.step_of_upcoming? .latest (Session.status_of_step_executed hStep).1 hNext
  have hWatch : ((fresh.note r).complete .latest i).watch =
      some ((s.machine.complete i).registers, i) :=
    Session.watch_complete ..
  have hNoted : (p.world s).records ++ ((fresh.note r).complete .latest i).log.records.toList =
      (s.log.add r).records.toList := by
    rw [Log.toList_records_add]
    exact congrArg _ (Log.toList_records_add ..)
  let seen := o.observe (s.machine.complete i) i s.watch
  have hLast : p.world ((s.note r).complete o i) =
      { console := p.console seen.1
        records := (s.log.add r).records.toList ++
          (seen.2.toList.map .consoleFailed).filter (Log.keeps s.log.threshold) } := by
    rw [Portrait.world, Session.watch_complete, Session.log_complete, Log.toList_records_addAll,
      ← Log.threshold_add s.log r]
    rfl
  refine ⟨_, hFresh, ?_, ?_, _, World.writeLog_host .., ?_⟩
  · rw [Session.machine_complete, Session.machine_complete]
    rfl
  · rw [Session.log_complete, Log.threshold_addAll]
    exact Log.threshold_add ..
  · rw [hWatch, hNoted, hLast, Session.watch_complete]
    exact p.present_eq ..

/-- A run on a host mirrors the run of a session. -/
theorem runTo_host (p : Portrait o) (files : String → Reading) (limit : Nat) (s : Session σ) :
    Mirrors p s (s.runTo o limit)
      ((World.host files).runTo s.log.threshold limit (p.pausing? s.watch) s.machine) := by
  fun_induction Session.runTo o limit s with
  | case1 s hLimit t hStep ih =>
    obtain ⟨u, hFresh, hMachine, hThreshold, w, hLog, hShow⟩ := step_host p files hStep
    rw [hThreshold] at ih
    refine ⟨?_, ih.threshold.trans hThreshold⟩
    rw [Host.runTo_of_executed hLimit hFresh, World.run_bind_of hLog, World.run_bind_of hShow,
      hMachine]
    exact ih.run
  | case2 s hLimit h t hStep =>
    have hStop : Except.ok (Step.halted h) ≠ (.ok .executed : Except Fault Step) := by simp
    obtain ⟨u, hFresh, hRenewed⟩ := renewed_step .latest none hStep hStop
    rw [Host.runTo_of_halted hLimit hFresh]
    exact mirrors_report p files (hRenewed.withAnswer (.ok (some h)))
  | case3 s hLimit f t hStep =>
    have hStop : Except.error f ≠ (.ok .executed : Except Fault Step) := by simp
    obtain ⟨u, hFresh, hRenewed⟩ := renewed_step .latest none hStep hStop
    rw [Host.runTo_of_error hLimit hFresh]
    exact mirrors_report p files (hRenewed.withAnswer (.error f))
  | case4 s hLimit =>
    rw [Host.runTo_of_le (Nat.not_lt.mp hLimit)]
    exact ⟨rfl, rfl⟩

theorem runFor_host (p : Portrait o) (files : String → Reading) (budget : Nat) (s : Session σ) :
    Mirrors p s (s.runFor o budget)
      ((World.host files).runFor s.log.threshold budget (p.pausing? s.watch) s.machine) := by
  have hRun := runTo_host p files (min (s.machine.steps + budget) Session.maxSteps) s
  unfold Host.runFor Session.runFor
  generalize s.runTo o _ = outcome at hRun ⊢
  obtain ⟨answer, t⟩ := outcome
  obtain ⟨hRun, hThreshold⟩ := hRun
  match answer with
  | .ok none =>
    have hSettle := mirrors_report p files (renewed_settle t ())
    dsimp only at hThreshold
    rw [hThreshold] at hSettle
    refine ⟨?_, hSettle.threshold.trans hThreshold⟩
    rw [World.run_bind_of hRun]
    exact hSettle.run
  | .ok (some h) | .error f =>
    refine ⟨?_, hThreshold⟩
    rw [World.run_bind_of hRun]
    rfl

theorem run_host (p : Portrait o) (files : String → Reading) (request : Request) (s : Session σ)
    (hPausing : p.pausing? s.watch = request.mode.pausing?) :
    Mirrors p s (request.run o s) ((World.host files).run s.log.threshold request s.machine) := by
  unfold Host.run Request.run
  rw [← hPausing]
  cases request.limit with
  | some limit => exact runFor_host p files limit s
  | none => exact runTo_host p files (Session.maxSteps + 1) s

/-! ## Programs -/

/-- A host writes of the end what is noted of it in a session. -/
theorem conclude_host (p : Portrait o) (files : String → Reading)
    (outcome : Outcome σ (Option Halt)) :
    let fresh := Session.fresh outcome.session.machine () outcome.session.log.threshold
    ((World.host files).writeLog (conclude ⟨outcome.answer, fresh⟩).log).run
        (p.world outcome.session) =
      ((), p.world (conclude outcome)) := by
  dsimp only
  rw [World.writeLog_host, conclude_eq, conclude_eq, Portrait.world, Portrait.world,
    Log.toList_records_addAll]
  dsimp only [Session.fresh]
  rw [Log.toList_records_addAll]
  rfl

/-- A request is fulfilled on a host as it is reported. -/
theorem perform_host (p : Portrait o) (files : String → Reading) (threshold : Option Level)
    (request : Request) (watch : σ) (hPausing : p.pausing? watch = request.mode.pausing?) :
    let r := perform o watch (fun w => (p.console w).output) request (files request.image) threshold
    ∃ console, console.output = r.output ∧
      ((World.host files).perform threshold request).run { console := p.console watch } =
        (r.failure, { console, records := r.log.toList }) := by
  have hRead (w : World) : ((World.host files).readFile request.image).run w =
      (files request.image, w) := rfl
  unfold perform Host.perform
  rw [World.run_bind_of (hRead _)]
  obtain ⟨image, hFile, hSize⟩ | ⟨-, failure, hRefused⟩ :=
    exists_image_or_failure request.image (files request.image)
  · let log := Log.addAll { threshold } (opening request.image image)
    let s : Session σ := { machine := .ofImage image, watch, log }
    have hOpening : ((World.host files).writeLog log).run { console := p.console watch } =
        ((), p.world s) := World.writeLog_host ..
    have hThreshold : log.threshold = threshold := Log.threshold_addAll ..
    have hMirrors := run_host p files request s hPausing
    rw [hFile, prepare_of_contents request.image hSize, prepare_of_contents request.image hSize]
    refine ⟨p.console (conclude (request.run o s)).watch, rfl, ?_⟩
    have hRun := hMirrors.run
    have hConclude := conclude_host p files (request.run o s)
    rw [hThreshold] at hRun
    dsimp only at hConclude ⊢
    rw [hMirrors.threshold, hThreshold] at hConclude
    rw [World.run_bind_of hOpening, World.run_bind_of hRun, World.run_bind_of hConclude]
    rfl
  · rw [hRefused, hRefused]
    exact ⟨p.console watch, rfl, rfl⟩

/-- A request is fulfilled as it is reported, watched as it asks. -/
theorem perform_request_host (files : String → Reading) (request : Request) (input : List UInt8)
    (threshold : Option Level) :
    let r := request.perform (files request.image) input threshold
    ∃ console, console.output = r.output ∧
      ((World.host files).perform threshold request).run { console := { input } } =
        (r.failure, { console, records := r.log.toList }) := by
  unfold Request.perform
  cases hMode : request.mode with
  | silent =>
    exact perform_host (.idle { input }) files threshold request () (by rw [hMode]; rfl)
  | trace =>
    exact perform_host .debugger files threshold request { console := { input }, pausing := false }
      (by rw [hMode]; rfl)
  | step =>
    exact perform_host .debugger files threshold request { console := { input }, pausing := true }
      (by rw [hMode]; rfl)

/-- A program that runs on a host exits with the code of its answer, and it has then written the
output, the records and the error of that. -/
theorem execute_eq_answer (args : List String) (files : String → Reading) (input : List UInt8)
    (threshold : Option Level) :
    let a := answer args files input threshold
    ∃ console, console.output = a.output ∧
      ((World.host files).execute threshold args).run { console := { input } } =
        (a.exitCode, { console, records := a.log.toList, errors := a.errorText }) := by
  have hWrite (text : String) : ((World.host files).terminal.write text).run.run
      { console := { input } } =
        (.ok (), { console := { input, output := .empty ++ text.toUTF8 } }) :=
    World.run_atConsole_of_ok rfl
  have hFail (text : String) (w : World) : ((World.host files).writeError text).run w =
      ((), { w with errors := w.errors ++ text }) := rfl
  unfold Host.execute answer
  cases Command.ofArguments args with
  | error e =>
    dsimp only
    rw [World.run_bind_of (hFail ..), String.empty_append]
    exact ⟨{ input }, rfl, rfl⟩
  | ok command =>
    cases command with
    | help =>
      dsimp only
      rw [World.run_bind_of (hWrite _)]
      exact ⟨_, ByteArray.empty_append, rfl⟩
    | version =>
      dsimp only
      rw [World.run_bind_of (hWrite _)]
      exact ⟨_, ByteArray.empty_append, rfl⟩
    | run request =>
      obtain ⟨console, hOutput, hRun⟩ := perform_request_host files request input threshold
      refine ⟨console, hOutput, ?_⟩
      dsimp only
      rw [World.run_bind_of hRun]
      generalize request.perform (files request.image) input threshold = r
      unfold Answer.exitCode Answer.errorText Report.errorText
      dsimp only
      cases r.failure with
      | none => rfl
      | some failure =>
        dsimp only
        rw [World.run_bind_of (hFail ..), String.empty_append]
        rfl

end RegisterMachine.CommandLine
