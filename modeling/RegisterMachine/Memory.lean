import RegisterMachine.Fault

/-!
# Memory

Memory has 65535 words, one for every word-sized address but the largest. An address that an
instruction computes is any number, so it is checked before memory is read or written.

Memory is seen through `get`: writing one address changes what `get` says of that address and of no
other (`get_set`), and two memories that agree on every address are equal (`ext`). `poke` writes a
list of words from an address on, and `slice` reads one (`get_poke`, `getElem_slice`).
-/

namespace RegisterMachine

/-- The address of a word in memory. -/
abbrev Address := Fin 65535

def Address.ofNat (n : Nat) : Except FaultCause Address :=
  if h : n < 65535 then
    .ok ⟨n, h⟩
  else
    .error (.outsideMemory n)

theorem Address.ofNat_of_lt {n : Nat} (h : n < 65535) : Address.ofNat n = .ok ⟨n, h⟩ :=
  dif_pos h

theorem Address.ofNat_of_le {n : Nat} (h : 65535 ≤ n) :
    Address.ofNat n = .error (.outsideMemory n) :=
  dif_neg (Nat.not_lt.mpr h)

structure Memory where
  words : Vector Word 65535

namespace Memory

def capacity : Nat := 65535

def zero : Memory :=
  ⟨Vector.replicate 65535 0⟩

def get (m : Memory) (x : Address) : Word :=
  m.words[x]

def set (m : Memory) (x : Address) (w : Word) : Memory :=
  ⟨m.words.set x w⟩

theorem get_zero (x : Address) : zero.get x = 0 := by
  simp [zero, get]

theorem get_set (m : Memory) (x y : Address) (w : Word) :
    (m.set x w).get y = if x = y then w else m.get y := by
  simp [get, set, Vector.getElem_set, Fin.ext_iff]

@[simp]
theorem get_set_self (m : Memory) (x : Address) (w : Word) : (m.set x w).get x = w := by
  simp [get_set]

theorem get_set_of_ne (m : Memory) {x y : Address} (w : Word) (h : x ≠ y) :
    (m.set x w).get y = m.get y := by
  simp [get_set, h]

@[ext]
theorem ext {m m' : Memory} (h : ∀ x, m.get x = m'.get x) : m = m' := by
  cases m
  cases m'
  congr 1
  apply Vector.ext
  intro i hi
  exact h ⟨i, hi⟩

/-- The word at the address with a given number, if there is such an address. -/
def read (m : Memory) (n : Nat) : Except FaultCause Word := do
  let x ← Address.ofNat n
  return m.get x

/-- Puts a word at the address with a given number, if there is such an address. -/
def write (m : Memory) (n : Nat) (w : Word) : Except FaultCause Memory := do
  let x ← Address.ofNat n
  return m.set x w

theorem read_of_lt (m : Memory) {n : Nat} (h : n < 65535) : m.read n = .ok (m.get ⟨n, h⟩) := by
  rw [read, Address.ofNat_of_lt h]
  rfl

theorem read_of_le (m : Memory) {n : Nat} (h : 65535 ≤ n) :
    m.read n = .error (.outsideMemory n) := by
  rw [read, Address.ofNat_of_le h]
  rfl

theorem write_of_lt (m : Memory) {n : Nat} (h : n < 65535) (w : Word) :
    m.write n w = .ok (m.set ⟨n, h⟩ w) := by
  rw [write, Address.ofNat_of_lt h]
  rfl

theorem write_of_le (m : Memory) {n : Nat} (h : 65535 ≤ n) (w : Word) :
    m.write n w = .error (.outsideMemory n) := by
  rw [write, Address.ofNat_of_le h]
  rfl

/-- Writes words one after another from a number on. Words past the end of memory are lost. -/
def poke (m : Memory) (start : Nat) : List Word → Memory
  | [] => m
  | w :: ws => poke (if h : start < 65535 then m.set ⟨start, h⟩ w else m) (start + 1) ws

theorem get_poke (ws : List Word) (m : Memory) (start : Nat) (x : Address) :
    (m.poke start ws).get x =
      if start ≤ x.val ∧ x.val < start + ws.length then ws.getD (x.val - start) 0
      else m.get x := by
  induction ws generalizing m start with
  | nil =>
    have hOutside : ¬(start ≤ x.val ∧ x.val < start + 0) := by omega
    simp only [poke, List.length_nil, if_neg hOutside]
  | cons w ws ih =>
    simp only [poke, ih, List.length_cons]
    have hx := x.isLt
    by_cases hEq : start = x.val
    · have hHead : (⟨start, hEq ▸ hx⟩ : Address) = x := Fin.ext hEq
      have hBefore : ¬(start + 1 ≤ x.val ∧ x.val < start + 1 + ws.length) := by omega
      have hInside : start ≤ x.val ∧ x.val < start + (ws.length + 1) := by omega
      rw [if_neg hBefore, if_pos hInside, dif_pos (hEq ▸ hx), hHead]
      simp [← hEq]
    · have hOther : (if h : start < 65535 then m.set ⟨start, h⟩ w else m).get x = m.get x := by
        split
        · exact get_set_of_ne m w fun hSame => hEq (congrArg Fin.val hSame)
        · rfl
      rw [hOther]
      by_cases hInside : start + 1 ≤ x.val ∧ x.val < start + 1 + ws.length
      · have hCons : start ≤ x.val ∧ x.val < start + (ws.length + 1) := by omega
        have hIndex : x.val - start = x.val - (start + 1) + 1 := by omega
        rw [if_pos hInside, if_pos hCons, hIndex, List.getD_cons_succ]
      · have hCons : ¬(start ≤ x.val ∧ x.val < start + (ws.length + 1)) := by omega
        rw [if_neg hInside, if_neg hCons]

/-- The words from a number on, as many as asked for and there are. -/
def slice (m : Memory) (start count : Nat) : List Word :=
  (m.words.toArray.extract start (start + count)).toList

theorem getElem_slice (m : Memory) (start count i : Nat) (h : i < (m.slice start count).length) :
    ∃ hx : start + i < 65535, (m.slice start count)[i] = m.get ⟨start + i, hx⟩ := by
  have hBound : start + i < 65535 := by
    simp [slice] at h
    omega
  exact ⟨hBound, by simp [slice, get]⟩

@[simp]
theorem length_slice (m : Memory) (start count : Nat) :
    (m.slice start count).length = min count (65535 - start) := by
  simp [slice]

@[simp]
theorem slice_zero (m : Memory) (start : Nat) : m.slice start 0 = [] := by
  simp [slice]

theorem slice_succ (m : Memory) {start : Nat} (h : start < 65535) (count : Nat) :
    m.slice start (count + 1) = m.get ⟨start, h⟩ :: m.slice (start + 1) count := by
  apply List.ext_getElem
  · simp only [length_slice, List.length_cons]
    omega
  · intro i hi hi'
    obtain ⟨_, hGet⟩ := getElem_slice m start (count + 1) i hi
    rw [hGet]
    cases i with
    | zero => rfl
    | succ i =>
      rw [List.getElem_cons_succ]
      obtain ⟨_, hGet'⟩ := getElem_slice m (start + 1) count i (Nat.lt_of_succ_lt_succ hi')
      rw [hGet']
      congr 2
      omega

theorem read_slice (m : Memory) (start count i : Nat) (h : i < (m.slice start count).length) :
    m.read (start + i) = .ok (m.slice start count)[i] := by
  obtain ⟨hx, hGet⟩ := getElem_slice m start count i h
  rw [hGet, read_of_lt m hx]

/-- What was poked inside of memory is found there. -/
theorem slice_poke (m : Memory) {start : Nat} {ws : List Word} (h : start + ws.length ≤ 65535) :
    (m.poke start ws).slice start ws.length = ws := by
  apply List.ext_getElem
  · rw [length_slice]
    omega
  · intro i hi hi'
    obtain ⟨hx, hGet⟩ := getElem_slice (m.poke start ws) start ws.length i hi
    rw [hGet, get_poke, if_pos ⟨by simp, by simpa using hi'⟩]
    simp [hi']

end Memory

end RegisterMachine
