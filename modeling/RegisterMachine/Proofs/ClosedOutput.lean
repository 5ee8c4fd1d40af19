import RegisterMachine.Proofs.Transcript

/-!
# Outputs that fail

An output that takes a limited number of bytes is closed by the first write that does not fit. The
debugger reports it, pauses no more and keeps trying to write, but nothing comes of that. So up to
the limit it does what it does on an output with room for everything, and from then on it only
reports a failure at each instruction.

An action on a console is `Truncated` at a limit if this is so for the action. It holds for one
action behind another unless the first has read and the second writes, for then the read would be
missing from what was done before the output was closed.

* `Truncated.bind`, `truncated_write`, `truncated_readLine`: the actions on consoles.
* `observe_limited_of_le`, `observe_limited_of_lt`, `observe_closed`: the debugger at one
  instruction.
* `attend_limited_of_le`, `attend_limited_of_lt`: some instructions that fit, and some that do not.
* `failing_output_only_truncates`: a machine that is driven with a debugger whose output fails.
-/

namespace RegisterMachine

theorem extract_of_size_le {bytes : ByteArray} {n : Nat} (h : bytes.size ≤ n) :
    bytes.extract 0 n = bytes := by
  rw [← Nat.max_eq_left h]
  exact ByteArray.extract_zero_max_size

/-- What is behind a limit does not matter for what is before it. -/
theorem extract_append_of_le {bytes : ByteArray} (more : ByteArray) {n : Nat} (h : n ≤ bytes.size) :
    (bytes ++ more).extract 0 n = bytes.extract 0 n := by
  rw [ByteArray.extract_append, Nat.sub_eq_zero_of_le h, Nat.zero_sub, ByteArray.extract_same,
    ByteArray.append_empty]

/-- What starts below a limit and ends beyond it crosses it somewhere. -/
theorem exists_crossing {f : Nat → Nat} {limit k : Nat} (hStart : f 0 ≤ limit)
    (hEnd : limit < f k) : ∃ j < k, f j ≤ limit ∧ limit < f (j + 1) := by
  induction k with
  | zero => exact absurd hStart (Nat.not_le_of_lt hEnd)
  | succ k ih =>
    by_cases hLt : limit < f k
    · obtain ⟨j, hj, hCross⟩ := ih hLt
      exact ⟨j, Nat.lt_succ_of_lt hj, hCross⟩
    · exact ⟨k, Nat.lt_succ_self k, Nat.le_of_not_lt hLt, hEnd⟩

/-! ## Consoles -/

namespace Console

variable {α β : Type} {c : Console} {limit : Nat}

/-- A console that has kept as much of its output as a limited number of bytes holds. -/
def limited (limit : Nat) (c : Console) : Console :=
  { c with
    output := c.output.extract 0 limit
    room := some (limit - c.output.size) }

/-- The console that an action leaves behind. -/
def left : EStateM.Result Failure Console α → Console
  | .ok _ next | .error _ next => next

/-- The same result with another console left behind. -/
def leaving (f : Console → Console) :
    EStateM.Result Failure Console α → EStateM.Result Failure Console α
  | .ok a next => .ok a (f next)
  | .error failure next => .error failure (f next)

/-- The result of an action if its output is limited, by the result without a limit. If more is
written than there is room for, the output is closed while some input is still to be read. -/
def curtail (limit : Nat) (input : List UInt8) (result : EStateM.Result Failure Console α) :
    EStateM.Result Failure Console α :=
  if (left result).output.size ≤ limit then
    leaving (limited limit) result
  else
    .error .outputClosed { input, output := (left result).output.extract 0 limit, room := some 0 }

/-- An action goes on as it does without a limit until a write fails, and then no input has been
taken. -/
structure Truncated (limit : Nat) (x : EStateM Failure Console α) (c : Console) : Prop where
  room : (left (x c)).room = none
  output : ∃ more, (left (x c)).output = c.output ++ more
  result : c.output.size ≤ limit → x (c.limited limit) = curtail limit c.input (x c)

theorem curtail_of_le {r : EStateM.Result Failure Console α} (input : List UInt8)
    (h : (left r).output.size ≤ limit) :
    curtail limit input r = leaving (limited limit) r :=
  if_pos h

theorem curtail_of_lt {r : EStateM.Result Failure Console α} (input : List UInt8)
    (h : limit < (left r).output.size) :
    curtail limit input r =
      .error .outputClosed { input, output := (left r).output.extract 0 limit, room := some 0 } :=
  if_neg (Nat.not_le_of_lt h)

theorem truncated_write (text : String) (hRoom : c.room = none) :
    Truncated limit (write text) c := by
  obtain ⟨input, output, room⟩ := c
  cases hRoom
  refine ⟨rfl, ⟨text.toUTF8, rfl⟩, fun hLe => ?_⟩
  dsimp only at hLe
  have hSize : (output ++ text.toUTF8).size = output.size + text.toUTF8.size :=
    ByteArray.size_append
  have hWhole : write text { input, output } = .ok () { input, output := output ++ text.toUTF8 } :=
    rfl
  rw [hWhole]
  unfold write limited
  dsimp only
  by_cases hFits : text.toUTF8.size ≤ limit - output.size
  · have hLe' : (output ++ text.toUTF8).size ≤ limit := by omega
    rw [if_pos hFits, curtail_of_le _ hLe']
    dsimp only [leaving, limited]
    rw [extract_of_size_le hLe, extract_of_size_le hLe', hSize, Nat.sub_sub]
  · have hLt : limit < (output ++ text.toUTF8).size := by omega
    rw [if_neg hFits, curtail_of_lt _ hLt]
    dsimp only [left]
    rw [ByteArray.extract_append, Nat.zero_sub]

theorem input_of_write {text : String} {next : Console} (h : write text c = .ok () next) :
    next.input = c.input := by
  unfold write at h
  dsimp only at h
  split at h
  · cases h
    rfl
  · split at h <;> cases h
    rfl

/-- An empty line is read only at the end of the input. -/
theorem input_of_readLine_nil {next : Console} (h : readLine c = .ok [] next) :
    next.input = c.input := by
  unfold readLine at h
  dsimp only at h
  split at h
  · injection h with hLine hNext
    rw [← hNext, splitLine_fst_eq_nil_iff.mp hLine]
    rfl
  · cases h

theorem truncated_pure (a : α) (hRoom : c.room = none) :
    Truncated limit (pure a : EStateM Failure Console α) c := by
  refine ⟨hRoom, ⟨.empty, ByteArray.append_empty.symm⟩, fun hLe => ?_⟩
  exact (curtail_of_le (r := .ok a c) _ hLe).symm

theorem truncated_readLine (hRoom : c.room = none) : Truncated limit readLine c := by
  have hLeft : left (readLine c) = { c with input := (splitLine c.input).2 } := by
    unfold readLine
    dsimp only
    split <;> rfl
  refine ⟨by rw [hLeft]; exact hRoom, ⟨.empty, by rw [hLeft, ByteArray.append_empty]⟩,
    fun hLe => ?_⟩
  rw [curtail_of_le _ (by rw [hLeft]; exact hLe)]
  unfold readLine limited
  dsimp only
  split <;> rfl

/-- One action behind another. Where the first has taken input, the second writes nothing. -/
theorem Truncated.bind {x : EStateM Failure Console α} {f : α → EStateM Failure Console β}
    (hFirst : Truncated limit x c)
    (hRest : ∀ a next, x c = .ok a next → next.room = none → Truncated limit (f a) next)
    (hOrder : ∀ a next, x c = .ok a next →
      next.input = c.input ∨ (left (f a next)).output = next.output) :
    Truncated limit (x >>= f) c := by
  obtain ⟨hRoom, ⟨more, hOutput⟩, hResult⟩ := hFirst
  cases hx : x c with
  | error failure next =>
    rw [hx] at hRoom hOutput hResult
    have hBind : (x >>= f) c = .error failure next := by
      change EStateM.bind x f c = _
      rw [EStateM.bind, hx]
    refine ⟨by rw [hBind]; exact hRoom, ⟨more, by rw [hBind]; exact hOutput⟩, fun hLe => ?_⟩
    change EStateM.bind x f _ = _
    rw [hBind, EStateM.bind, hResult hLe]
    by_cases hFits : next.output.size ≤ limit
    · rw [curtail_of_le (r := .error failure next) _ hFits,
        curtail_of_le (r := .error failure next) _ hFits]
      rfl
    · have hLt : limit < next.output.size := Nat.lt_of_not_le hFits
      rw [curtail_of_lt (r := .error failure next) _ hLt,
        curtail_of_lt (r := .error failure next) _ hLt]
      rfl
  | ok a next =>
    have hBind : (x >>= f) c = f a next := by
      change EStateM.bind x f c = _
      rw [EStateM.bind, hx]
    rw [hx] at hRoom hOutput hResult
    obtain ⟨hRoom', ⟨more', hOutput'⟩, hResult'⟩ := hRest a next hx hRoom
    refine ⟨by rw [hBind]; exact hRoom', ⟨more ++ more', ?_⟩, fun hLe => ?_⟩
    · rw [hBind, hOutput', ← ByteArray.append_assoc]
      exact congrArg (· ++ more') hOutput
    · change EStateM.bind x f _ = _
      rw [hBind, EStateM.bind, hResult hLe]
      by_cases hFits : next.output.size ≤ limit
      · rw [curtail_of_le (r := .ok a next) _ hFits]
        dsimp only [leaving]
        rw [hResult' hFits]
        obtain hInput | hSame := hOrder a next hx
        · rw [hInput]
        · rw [curtail_of_le _ (hSame ▸ hFits), curtail_of_le _ (hSame ▸ hFits)]
      · have hLt : limit < next.output.size := Nat.lt_of_not_le hFits
        have hLt' : limit < (left (f a next)).output.size := by
          rw [hOutput', ByteArray.size_append]
          omega
        rw [curtail_of_lt (r := .ok a next) _ hLt, curtail_of_lt _ hLt', hOutput',
          extract_append_of_le _ (Nat.le_of_lt hLt)]
        rfl

end Console

/-! ## One instruction -/

namespace Debugger

variable {c : Console} {d : Debugger} {limit : Nat}

/-- A line feed is written behind a read only if there was nothing to read. -/
theorem truncated_wait (hRoom : c.room = none) : Console.Truncated limit wait c := by
  refine (Console.truncated_readLine hRoom).bind (fun line next _ hRoom' => ?_)
    fun line next hLine => ?_
  · cases line with
    | nil =>
      exact (Console.truncated_write "\n" hRoom').bind
        (fun _ _ _ => Console.truncated_pure false) fun _ _ _ => .inr rfl
    | cons b bytes => exact Console.truncated_pure true hRoom'
  · cases line with
    | nil => exact .inl (Console.input_of_readLine_nil hLine)
    | cons b bytes => exact .inr rfl

theorem truncated_present (regs : Registers) (i : Instruction) (pausing : Bool)
    (hRoom : c.room = none) :
    Console.Truncated limit (present Console.terminal regs i pausing) c := by
  have hBlock : Console.Truncated limit (Console.write (block regs i)) c :=
    Console.truncated_write _ hRoom
  rw [present_eq]
  cases pausing with
  | false => exact hBlock.bind (fun _ _ _ => Console.truncated_pure false) fun _ _ _ => .inr rfl
  | true =>
    refine hBlock.bind (fun _ _ _ hRoom' => ?_)
      fun _ _ hWrite => .inl (Console.input_of_write hWrite)
    exact (Console.truncated_write prompt hRoom').bind (fun _ _ _ => truncated_wait)
      fun _ _ hWrite => .inl (Console.input_of_write hWrite)

def limited (limit : Nat) (d : Debugger) : Debugger :=
  { d with console := d.console.limited limit }

/-- A debugger that can write nothing more. -/
def closed (input : List UInt8) (output : ByteArray) : Debugger where
  console := { input, output, room := some 0 }
  pausing := false

/-- What the debugger makes of presenting an instruction. -/
def presented : EStateM.Result Console.Failure Console Bool → Debugger × Option Console.Failure
  | .ok pausing console => ({ console, pausing }, none)
  | .error failure console => ({ console, pausing := false }, some failure)

theorem observe_eq_presented (m : Machine) (i : Instruction) (d : Debugger) :
    observer.observe m i d =
      presented (present Console.terminal m.registers i d.pausing d.console) :=
  rfl

theorem console_presented (result : EStateM.Result Console.Failure Console Bool) :
    (presented result).1.console = Console.left result := by
  cases result <;> rfl

theorem presented_leaving (limit : Nat) (result : EStateM.Result Console.Failure Console Bool) :
    presented (Console.leaving (Console.limited limit) result) =
      ((presented result).1.limited limit, (presented result).2) := by
  cases result <;> rfl

theorem observe_grows (m : Machine) (i : Instruction) (hRoom : d.console.room = none) :
    (observer.observe m i d).1.console.room = none ∧
      d.console.output.size ≤ (observer.observe m i d).1.console.output.size := by
  rw [observe_eq m i hRoom, attended, ByteArray.size_append]
  exact ⟨rfl, Nat.le_add_right _ _⟩

theorem observe_limited_of_le (m : Machine) (i : Instruction) (hRoom : d.console.room = none)
    (hLe : (observer.observe m i d).1.console.output.size ≤ limit) :
    observer.observe m i (d.limited limit) =
      ((observer.observe m i d).1.limited limit, (observer.observe m i d).2) := by
  have hHere := Nat.le_trans (observe_grows m i hRoom).2 hLe
  have hPresent := (truncated_present m.registers i d.pausing hRoom).result hHere
  rw [observe_eq_presented, console_presented] at hLe
  rw [observe_eq_presented, observe_eq_presented, ← presented_leaving,
    ← Console.curtail_of_le _ hLe]
  exact congrArg presented hPresent

/-- The instruction at which the output is closed. The debugger has read nothing at it. -/
theorem observe_limited_of_lt (m : Machine) (i : Instruction) (hRoom : d.console.room = none)
    (hLe : d.console.output.size ≤ limit)
    (hLt : limit < (observer.observe m i d).1.console.output.size) :
    observer.observe m i (d.limited limit) =
      (closed d.console.input ((observer.observe m i d).1.console.output.extract 0 limit),
        some .outputClosed) := by
  have hPresent := (truncated_present m.registers i d.pausing hRoom).result hLe
  rw [observe_eq_presented, console_presented] at hLt
  rw [Console.curtail_of_lt _ hLt] at hPresent
  rw [observe_eq_presented, observe_eq_presented m i d, console_presented]
  exact congrArg presented hPresent

theorem observe_closed (m : Machine) (i : Instruction) (input : List UInt8) (output : ByteArray) :
    observer.observe m i (closed input output) = (closed input output, some .outputClosed) := by
  have hBlock : ¬(block m.registers i).toUTF8.size ≤ 0 := by
    simp [block]
  have hWrite : Console.write (block m.registers i) (closed input output).console =
      .error .outputClosed (closed input output).console := by
    unfold Console.write closed
    dsimp only
    rw [if_neg hBlock, ByteArray.extract_same, ByteArray.append_empty]
  rw [observe_eq_presented, present_eq]
  change presented (EStateM.bind (Console.write (block m.registers i)) _ _) = _
  unfold EStateM.bind
  rw [hWrite]
  rfl

/-- If a block and the question behind it fit, but not all that is written at the instruction, then
there was nothing to read. -/
theorem input_of_question_fits (m : Machine) (i : Instruction) (hRoom : d.console.room = none)
    (hFits : d.console.output.size + (block m.registers i ++ prompt).toUTF8.size ≤ limit)
    (hLt : limit < (observer.observe m i d).1.console.output.size) : d.console.input = [] := by
  rw [observe_eq m i hRoom, attended] at hLt
  dsimp only at hLt
  rw [transcript_singleton, ByteArray.size_append] at hLt
  have hFeed : (Console.lines d.console.input).length ≤ 0 := by
    by_contra hLines
    have hEntry :
        (entry (Console.lines d.console.input) d.reads 0 (block m.registers i)).toUTF8.size ≤
          (block m.registers i ++ prompt).toUTF8.size := by
      unfold entry prompt
      rw [if_neg (fun h : 0 + 1 = d.reads ∧ _ => hLines h.2)]
      split <;> simp
    omega
  rw [← Console.flatten_lines d.console.input, List.eq_nil_of_length_eq_zero (Nat.le_zero.mp hFeed)]
  rfl

/-! ## Many instructions -/

theorem attend_grows (steps : Nat) (es : List Executed) (hRoom : d.console.room = none) :
    (observer.attend steps es d).1.console.room = none ∧
      ∃ more, (observer.attend steps es d).1.console.output = d.console.output ++ more := by
  rw [attend_eq steps es hRoom]
  exact ⟨rfl, _, rfl⟩

theorem attend_limited_of_le (steps : Nat) (es : List Executed) (hRoom : d.console.room = none)
    (hLe : (observer.attend steps es d).1.console.output.size ≤ limit) :
    observer.attend steps es (d.limited limit) =
      ((observer.attend steps es d).1.limited limit, (observer.attend steps es d).2) := by
  induction es generalizing steps d with
  | nil => rfl
  | cons e es ih =>
    unfold Observer.attend at hLe ⊢
    dsimp only at hLe ⊢
    generalize ({ toConfig := e.shown, steps := steps + 1 } : Machine) = m at hLe ⊢
    obtain ⟨hRoom', -⟩ := observe_grows m e.instruction hRoom
    obtain ⟨-, more, hMore⟩ := attend_grows (steps + 1) es hRoom'
    have hFits : (observer.observe m e.instruction d).1.console.output.size ≤ limit := by
      rw [hMore, ByteArray.size_append] at hLe
      omega
    rw [observe_limited_of_le m e.instruction hRoom hFits]
    dsimp only
    rw [ih _ hRoom' hLe]

theorem attend_closed (steps : Nat) (es : List Executed) (input : List UInt8)
    (output : ByteArray) :
    observer.attend steps es (closed input output) =
      (closed input output, List.replicate es.length (some .outputClosed)) := by
  induction es generalizing steps with
  | nil => rfl
  | cons e es ih =>
    unfold Observer.attend
    dsimp only
    rw [observe_closed, ih]
    rfl

/-- The output is closed at the first of some instructions. -/
theorem attend_limited_cons_of_lt (steps : Nat) (e : Executed) (es : List Executed)
    (hRoom : d.console.room = none) (hLe : d.console.output.size ≤ limit)
    (hLt : limit < (observer.attend steps [e] d).1.console.output.size) :
    observer.attend steps (e :: es) (d.limited limit) =
      (closed d.console.input
        ((observer.attend steps (e :: es) d).1.console.output.extract 0 limit),
      List.replicate (es.length + 1) (some .outputClosed)) := by
  unfold Observer.attend at hLt ⊢
  dsimp only at hLt ⊢
  generalize ({ toConfig := e.shown, steps := steps + 1 } : Machine) = m at hLt ⊢
  have hLt' : limit < (observer.observe m e.instruction d).1.console.output.size := hLt
  obtain ⟨hRoom', -⟩ := observe_grows m e.instruction hRoom
  obtain ⟨-, more, hMore⟩ := attend_grows (steps + 1) es hRoom'
  rw [observe_limited_of_lt m e.instruction hRoom hLe hLt']
  dsimp only
  rw [attend_closed, hMore, extract_append_of_le _ (Nat.le_of_lt hLt')]
  rfl

theorem attend_limited_of_lt (steps : Nat) {es : List Executed} {e : Executed}
    (fs : List Executed) (hRoom : d.console.room = none)
    (hLe : (observer.attend steps es d).1.console.output.size ≤ limit)
    (hLt : limit < (observer.attend steps (es ++ [e]) d).1.console.output.size) :
    observer.attend steps (es ++ e :: fs) (d.limited limit) =
      (closed (observer.attend steps es d).1.console.input
        ((observer.attend steps (es ++ e :: fs) d).1.console.output.extract 0 limit),
      (observer.attend steps es d).2 ++
        List.replicate (fs.length + 1) (some .outputClosed)) := by
  obtain ⟨hRoom', -⟩ := attend_grows steps es hRoom
  rw [Observer.attend_append] at hLt ⊢
  rw [Observer.attend_append, attend_limited_of_le steps es hRoom hLe]
  dsimp only at hLt ⊢
  rw [attend_limited_cons_of_lt _ e fs hRoom' hLe hLt]

theorem length_failures (d : Debugger) (n : Nat) : (d.failures n).length = n := by
  simp [failures]

theorem outputClosed_notMem_failures (d : Debugger) (n : Nat) :
    some .outputClosed ∉ d.failures n := by
  unfold failures failureAt
  intro hMem
  obtain ⟨j, -, hFailure⟩ := List.mem_map.mp hMem
  split at hFailure <;> cases hFailure

theorem limited_fresh (limit : Nat) (input : List UInt8) (pausing : Bool) :
    ({ console := { input }, pausing } : Debugger).limited limit =
      { console := { input, room := some limit }, pausing } := by
  have hEmpty : ByteArray.empty.extract 0 limit = .empty :=
    extract_of_size_le (Nat.zero_le limit)
  unfold limited Console.limited
  rw [hEmpty]
  rfl

/-! ## Along a course -/

section Course

variable {config : Config} {steps j k : Nat}

/-- The instruction of a course at which the output is closed. If the debugger has asked its
question there, then there was nothing to read. -/
theorem attend_course_of_crossing (hRoom : d.console.room = none)
    (hLength : (config.course k).length = k) (hj : j < k)
    (hLe : (observer.attend steps (config.course j) d).1.console.output.size ≤ limit)
    (hLt : limit < (observer.attend steps (config.course (j + 1)) d).1.console.output.size) :
    (observer.attend steps (config.course k) (d.limited limit) =
      (closed (observer.attend steps (config.course j) d).1.console.input
        ((observer.attend steps (config.course k) d).1.console.output.extract 0 limit),
      (observer.attend steps (config.course j) d).2 ++
        List.replicate (k - j) (some .outputClosed))) ∧
      ∃ e, config.course (j + 1) = config.course j ++ [e] ∧
        ((observer.attend steps (config.course j) d).1.console.output.size +
            (e.block ++ prompt).toUTF8.size ≤ limit →
          (observer.attend steps (config.course j) d).1.console.input = []) := by
  obtain ⟨e, es, hStep, hCourse, hCount⟩ := Config.exists_course_eq_append_cons hLength hj
  rw [hStep] at hLt
  refine ⟨?_, e, hStep, fun hFits => ?_⟩
  · rw [hCourse, attend_limited_of_lt steps es hRoom hLe hLt, hCount]
  · obtain ⟨hRoom', -⟩ := attend_grows steps (config.course j) hRoom
    rw [Observer.attend_append] at hLt
    rw [← block_eq] at hFits
    let m : Machine := { toConfig := e.shown, steps := steps + (config.course j).length + 1 }
    exact input_of_question_fits m e.instruction hRoom' hFits hLt

theorem exists_crossing_of_course (hStart : d.console.output.size ≤ limit)
    (hEnd : limit < (observer.attend steps (config.course k) d).1.console.output.size) :
    ∃ j < k, (observer.attend steps (config.course j) d).1.console.output.size ≤ limit ∧
      limit < (observer.attend steps (config.course (j + 1)) d).1.console.output.size :=
  exists_crossing (f := fun j => (observer.attend steps (config.course j) d).1.console.output.size)
    hStart hEnd

/-- A limited output has the beginning of the whole output. -/
theorem output_attend_limited (hRoom : d.console.room = none)
    (hStart : d.console.output.size ≤ limit) (hLength : (config.course k).length = k) :
    (observer.attend steps (config.course k) (d.limited limit)).1.console.output =
      (observer.attend steps (config.course k) d).1.console.output.extract 0 limit := by
  by_cases hLe : (observer.attend steps (config.course k) d).1.console.output.size ≤ limit
  · rw [attend_limited_of_le steps _ hRoom hLe]
    rfl
  · obtain ⟨j, hj, hBefore, hAfter⟩ :=
      exists_crossing_of_course hStart (Nat.lt_of_not_le hLe)
    rw [(attend_course_of_crossing hRoom hLength hj hBefore hAfter).1]
    rfl

end Course

end Debugger

/-! ## The whole run -/

namespace Session

/-- A machine is driven in any way with a fresh debugger, once with an output that has room for
everything and once with one that takes a limited number of bytes. The second output has as much of
the first one as there is room for. If that is not all of it, then the limit is crossed at some
instruction. There the debugger fails to write, and it reports so at this and each later
instruction, but at no earlier one. It has read what the first one has read before this instruction;
if it fails only behind the question, then because there was nothing to read any more. -/
theorem failing_output_only_truncates (m : Machine) (log : Log) (input : List UInt8)
    (pausing : Bool) (limit : Nat) {drives : List (Drive Debugger)}
    (hDrives : ∀ d ∈ drives, d.observer = Debugger.observer) :
    let fresh : Debugger := { console := { input }, pausing }
    let driven (room : Option Nat) : Session Debugger :=
      performAll { machine := m, watch := { console := { input, room }, pausing }, log }
        (drives.map .drive)
    let t := driven none
    let u := driven (some limit)
    let shown (j : Nat) := Debugger.observer.attend m.steps (m.course j) fresh
    let written (j : Nat) := (shown j).1.console.output
    u.machine = t.machine ∧
      u.watch.console.output = t.watch.console.output.extract 0 limit ∧
      ∃ k ending, Follows { machine := m, watch := fresh, log } k t ∧ Ending ending ∧
        t.watch = (shown k).1 ∧
        t.log = log.addAll (annotated (m.course k) (shown k).2 ++ ending) ∧
        (∀ j ≤ k, (shown j).2.length = j ∧ some .outputClosed ∉ (shown j).2) ∧
        (t.watch.console.output.size ≤ limit →
          u.watch.console.input = t.watch.console.input ∧ u.log = t.log) ∧
        (limit < t.watch.console.output.size →
          ∃ j < k, (written j).size ≤ limit ∧ limit < (written (j + 1)).size) ∧
        ∀ j < k, (written j).size ≤ limit → limit < (written (j + 1)).size →
          u.watch.console.input = (shown j).1.console.input ∧
          u.log = log.addAll (annotated (m.course k)
            ((shown j).2 ++ List.replicate (k - j) (some .outputClosed)) ++ ending) ∧
          ∃ e, m.course (j + 1) = m.course j ++ [e] ∧
            ((written j).size + (e.block ++ "Press enter to continue...").toUTF8.size ≤ limit →
              (shown j).1.console.input = []) := by
  intro fresh driven t u shown written
  let s : Session Debugger := { machine := m, watch := fresh, log }
  let v : Session Debugger := { machine := m, watch := fresh.limited limit, log }
  have hLimited : u = v.performAll (drives.map .drive) := by
    have hFresh := Debugger.limited_fresh limit input pausing
    exact congrArg (fun watch => performAll { machine := m, watch, log } (drives.map .drive))
      hFresh.symm
  have hMachine : u.machine = t.machine := machine_drives_congr drives rfl
  obtain ⟨k, hAttends, hLog⟩ := log_drives s hDrives
  obtain ⟨k', hAttends', hLog'⟩ := log_drives v hDrives
  rw [← hLimited] at hAttends' hLog'
  obtain rfl : k = k' := by
    have hSteps : t.machine.steps = m.steps + k := hAttends.steps
    have hSteps' : u.machine.steps = m.steps + k' := hAttends'.steps
    rw [hMachine] at hSteps'
    omega
  have hLength : (m.course k).length = k := hAttends.length
  have hRoom : fresh.console.room = none := rfl
  have hStart : fresh.console.output.size ≤ limit := Nat.zero_le limit
  have hWatch : t.watch = (shown k).1 := hAttends.watch
  have hWatch' : u.watch = (Debugger.observer.attend m.steps (m.course k)
      (fresh.limited limit)).1 := hAttends'.watch
  have hFailures (j : Nat) : (shown j).2 = fresh.failures (m.course j).length :=
    congrArg Prod.snd (Debugger.attend_eq m.steps (m.course j) hRoom)
  refine ⟨hMachine, ?_, k, ending m t.machine, ⟨hAttends.length, hAttends.config, hAttends.steps⟩,
    ending_ending _ _, hWatch, hLog, fun j hj => ?_, fun hLe => ?_, fun hLt => ?_,
    fun j hj hLe hLt => ?_⟩
  · rw [hWatch', hWatch]
    exact Debugger.output_attend_limited hRoom hStart hLength
  · rw [hFailures, Config.length_course_of_le hLength hj]
    exact ⟨Debugger.length_failures fresh j, Debugger.outputClosed_notMem_failures fresh j⟩
  · rw [hWatch] at hLe
    have hAll := Debugger.attend_limited_of_le m.steps (m.course k) hRoom hLe
    rw [hAll] at hWatch'
    refine ⟨by rw [hWatch', hWatch]; rfl, ?_⟩
    rw [hLog, hLog', hMachine]
    exact congrArg (fun a => log.addAll (annotated (m.course k) a.2 ++ _)) hAll
  · rw [hWatch] at hLt
    exact Debugger.exists_crossing_of_course hStart hLt
  · obtain ⟨hClosed, hQuestion⟩ :=
      Debugger.attend_course_of_crossing hRoom hLength hj hLe hLt
    refine ⟨?_, ?_, hQuestion⟩
    · rw [hWatch', hClosed]
      rfl
    · rw [hLog', hMachine]
      exact congrArg (fun a => log.addAll (annotated (m.course k) a.2 ++ _)) hClosed

/-- The output takes a few bytes more than are written for the first of three instructions: the
second and the third report a failure, and only one line is read. -/
theorem failing_output_only_truncates_second :
    let i : Instruction := ⟨.constant, 3, 7, 0⟩
    let m : Machine := .boot (Memory.zero.poke 0 (i.encode ++ i.encode ++ i.encode))
    let drives : List (Drive Debugger) := [.step Debugger.observer, .run Debugger.observer]
    let u : Session Debugger := performAll
      { machine := m
        watch := { console := { input := [10, 10, 65], room := some 300 }, pausing := true }
        log := { threshold := some .warn } } (drives.map .drive)
    (∀ d ∈ drives, d.observer = Debugger.observer) ∧
      u.watch.console.input = [10, 65] ∧
      u.log.records.toList = [.consoleFailed .outputClosed, .consoleFailed .outputClosed] := by
  intro i m drives u
  have hDrives : ∀ d ∈ drives, d.observer = Debugger.observer := by
    intro d hMem
    simp only [drives, List.mem_cons, List.not_mem_nil, or_false] at hMem
    obtain rfl | rfl := hMem <;> rfl
  have hTruncates :=
    failing_output_only_truncates m { threshold := some .warn } [10, 10, 65] true 300 hDrives
  extract_lets fresh driven t v shown written at hTruncates
  obtain ⟨-, -, k, ending, hFollows, hEnding, -, -, -, -, -, hCrossing⟩ := hTruncates
  have hSteps : t.machine.steps = 3 := by decide +kernel
  obtain rfl : k = 3 := by
    have hCount : t.machine.steps = 0 + k := hFollows.steps
    omega
  -- The output is told by the transcript, whose blocks are evaluated much faster than the table.
  have hWritten (j : Nat) : written j = (Debugger.transcript (Console.lines [10, 10, 65])
      (Console.lastRead [10, 10, 65]) ((m.course j).map Executed.block)).toUTF8 := by
    have hAttend := congrArg (·.1.console.output) (Debugger.attend_eq m.steps (m.course j)
      (d := fresh) rfl)
    exact hAttend.trans ByteArray.empty_append
  have hFirst : (written 1).size ≤ 300 := by
    rw [hWritten]
    decide +kernel
  have hSecond : 300 < (written (1 + 1)).size := by
    rw [hWritten]
    decide +kernel
  obtain ⟨hInput, hLog, -⟩ := hCrossing 1 (by decide) hFirst hSecond
  have hSame : u = v := rfl
  have hRead : (shown 1).1.console.input = [10, 65] := by decide +kernel
  have hEnd : ending.filter (Log.keeps (some .warn)) = [] := by cases hEnding <;> rfl
  rw [hSame, hInput, hLog, Log.toList_records_addAll, List.filter_append, hEnd]
  exact ⟨hDrives, hRead, by decide +kernel⟩

end Session

end RegisterMachine
