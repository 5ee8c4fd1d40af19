import RegisterMachine.CommandLine.Program
import RegisterMachine.Proofs.Outcomes

/-!
# Requests

A request has a limit of steps or none. A limit is a number of sixty-four bits, so it is one that a
machine can count to, and both kinds of request lead to an outcome that the course of the machine
tells: `Request.reach` is how far a machine goes, and whether it is then stopped.

* `number?_eq_some_iff`: which texts are read as numbers.
* `lt_of_limit`: the bound of the limits that are read from a command line.
* `run_eq_outcomeAt_reach`: the outcome of a request.
-/

namespace RegisterMachine.CommandLine

theorem bind_eq_ok {ε α β : Type} {x : Except ε α} {f : α → Except ε β} {b : β}
    (h : x >>= f = .ok b) : ∃ a, x = .ok a ∧ f a = .ok b := by
  cases x with
  | error e => cases h
  | ok a => exact ⟨a, rfl, h⟩

/-! ## Limits -/

/-- Decimal digits behind at most one plus sign write a number. -/
def Numeral (text : String) (n : Nat) : Prop :=
  ∃ digits : List Char, (text.toList = digits ∨ text.toList = '+' :: digits) ∧ digits ≠ [] ∧
    (∀ c ∈ digits, c.isDigit) ∧ Nat.ofDigitChars 10 digits 0 = n

/-- Limits are read from numerals of numbers less than 2 to the power of 64. -/
theorem number?_eq_some_iff {text : String} {n : Nat} :
    number? text = some n ↔ Numeral text n ∧ n < UInt64.size := by
  unfold number?
  dsimp only
  simp only [Option.ite_none_right_eq_some, Option.some.injEq, List.all_eq_true]
  constructor
  · rintro ⟨⟨hNonempty, hDigits, hBound⟩, rfl⟩
    refine ⟨⟨_, ?_, hNonempty, hDigits, rfl⟩, hBound⟩
    split
    · next hText => exact .inr hText
    · exact .inl rfl
  · rintro ⟨⟨digits, hText, hNonempty, hDigits, rfl⟩, hBound⟩
    rcases hText with hText | hText
    · rw [hText]
      split
      · exact absurd (hDigits '+' List.mem_cons_self) (by decide)
      · exact ⟨⟨hNonempty, hDigits, hBound⟩, rfl⟩
    · rw [hText]
      exact ⟨⟨hNonempty, hDigits, hBound⟩, rfl⟩

namespace Given

/-- A limit that is given is less than 2 to the power of 64. -/
def Bounded (given : Given) : Prop :=
  ∀ n, given.limit = some n → n < UInt64.size

variable {given next : Given}

theorem Bounded.withImage {text : String} (h : given.Bounded)
    (hNext : given.withImage text = .ok next) : next.Bounded := by
  unfold Given.withImage at hNext
  split at hNext
  · cases hNext
  · split at hNext
    · cases hNext
    · cases hNext
      exact h

theorem Bounded.withTrace (h : given.Bounded) (hNext : given.withTrace = .ok next) :
    next.Bounded := by
  unfold Given.withTrace at hNext
  split at hNext
  · cases hNext
  · cases hNext
    exact h

theorem Bounded.withStep (h : given.Bounded) (hNext : given.withStep = .ok next) :
    next.Bounded := by
  unfold Given.withStep at hNext
  split at hNext
  · cases hNext
  · cases hNext
    exact h

theorem bounded_of_withLimit {text : String} (hNext : given.withLimit text = .ok next) :
    next.Bounded := by
  unfold Given.withLimit at hNext
  split at hNext
  · cases hNext
  · split at hNext
    · cases hNext
    · next n hNumber =>
      cases hNext
      rintro _ ⟨⟩
      exact (number?_eq_some_iff.mp hNumber).2

theorem Bounded.finish {request : Request} (h : given.Bounded)
    (hFinish : given.finish = .ok (.run request)) (n : Nat) (hLimit : request.limit = some n) :
    n < UInt64.size := by
  unfold Given.finish at hFinish
  cases hMode : given.mode with
  | error e =>
    rw [hMode] at hFinish
    cases hFinish
  | ok mode =>
    rw [hMode] at hFinish
    cases hImage : given.image with
    | none =>
      rw [hImage] at hFinish
      cases hFinish
    | some image =>
      rw [hImage] at hFinish
      cases hFinish
      exact h n hLimit

theorem Bounded.foldlM {args : List String} (h : given.Bounded)
    (hNext : args.foldlM Given.withImage given = .ok next) : next.Bounded := by
  induction args generalizing given with
  | nil =>
    cases hNext
    exact h
  | cons arg args ih =>
    rw [List.foldlM_cons] at hNext
    obtain ⟨g, hFirst, hRest⟩ := bind_eq_ok hNext
    exact ih (h.withImage hFirst) hRest

theorem Bounded.read {args : List String} {request : Request} (h : given.Bounded)
    (hRead : given.read args = .ok (.run request)) (n : Nat) (hLimit : request.limit = some n) :
    n < UInt64.size := by
  fun_induction Given.read given args with
  | case1 given => exact h.finish hRead n hLimit
  | case2 given _ args text _ ih =>
    obtain ⟨next, hNext, hRest⟩ := bind_eq_ok hRead
    exact ih next (h.withImage hNext) hRest
  | case3 given _ args _ =>
    obtain ⟨next, hNext, hRest⟩ := bind_eq_ok hRead
    exact (h.foldlM hNext).finish hRest n hLimit
  | case8 given _ args _ ih =>
    obtain ⟨next, hNext, hRest⟩ := bind_eq_ok hRead
    exact ih next (h.withTrace hNext) hRest
  | case9 given _ args _ ih =>
    obtain ⟨next, hNext, hRest⟩ := bind_eq_ok hRead
    exact ih next (h.withStep hNext) hRest
  | case10 given _ args text _ ih | case12 given _ _ _ args text _ ih =>
    obtain ⟨next, hNext, hRest⟩ := bind_eq_ok hRead
    exact ih next (bounded_of_withLimit hNext) hRest
  | _ => cases hRead

end Given

/-- The limit of a request has been written as a number of sixty-four bits. -/
theorem lt_of_limit {args : List String} {request : Request} {n : Nat}
    (hArgs : Command.ofArguments args = .ok (.run request)) (hLimit : request.limit = some n) :
    n < UInt64.size := by
  have hNone : Given.Bounded {} := by
    intro n h
    cases h
  exact hNone.read hArgs n hLimit

/-! ## How far a machine goes -/

namespace Request

/-- How many instructions are executed for a request, and whether the machine is then stopped. -/
def reach (request : Request) (c : Config) : Nat × Bool :=
  match request.limit with
  | some n => ((c.course n).length, c.stopsBy n)
  | none => ((c.course UInt64.size).length, (c.course UInt64.size).length < UInt64.size)

/-- What is answered to a request. -/
def answer (request : Request) (c : Config) : Except Fault (Option Halt) :=
  let (k, stopped) := request.reach c
  if stopped then (c.after k).verdict.map Step.toRun else .ok none

/-- A new machine goes as far as its course and the request allow. -/
theorem run_eq_outcomeAt_reach {σ : Type} (request : Request) (o : Observer σ) {s : Session σ}
    (hLimit : ∀ n, request.limit = some n → n < UInt64.size)
    (hRunning : s.machine.status = .running) (hSteps : s.machine.steps = 0) :
    request.run o s =
      s.outcomeAt o (request.reach s.machine.toConfig).1 (request.reach s.machine.toConfig).2 := by
  unfold run reach
  cases hCase : request.limit with
  | some n =>
    have hBound := hLimit n hCase
    exact Session.runFor_eq_outcomeAt o hRunning (by omega)
  | none => exact Session.run_eq_outcomeAt o hRunning (by omega)

end Request

end RegisterMachine.CommandLine
