import Mathlib.Data.List.Basic
import RegisterMachine.Text.Hexadecimal

/-!
# Texts that can be read back

A message is put together from names, numbers and punctuation. A number can be read back from its
digits, whether zeros were filled in or not. The parts of a message can be told apart if each of
them ends before a character that it does not have itself.

* `hexadecimal_inj`: different numbers have different texts.
* `all_decimal`, `all_hexadecimal`: numbers are written with letters and digits only.
* `append_inj_of_all`: the part in front of a separator and the part behind it.
-/

namespace RegisterMachine.Text

/-! ## Numbers -/

/-- The number that a hexadecimal digit stands for. -/
def digitValue (c : Char) : Nat :=
  if c.isDigit then c.toNat - 48 else c.toNat - 87

/-- The number that is written by hexadecimal digits. -/
def value (digits : List Char) : Nat :=
  digits.foldl (fun n c => 16 * n + digitValue c) 0

theorem digitValue_digitChar : ∀ d < 16, digitValue (Nat.digitChar d) = d := by
  decide

@[simp]
theorem value_singleton (c : Char) : value [c] = digitValue c := by
  simp [value]

theorem value_append_singleton (digits : List Char) (c : Char) :
    value (digits ++ [c]) = 16 * value digits + digitValue c := by
  simp [value]

theorem value_toDigits (n : Nat) : value (Nat.toDigits 16 n) = n := by
  induction n using Nat.strongRecOn with
  | ind n ih =>
    by_cases hDigit : n < 16
    · rw [Nat.toDigits_of_lt_base hDigit, value_singleton, digitValue_digitChar n hDigit]
    · have hLast := digitValue_digitChar (n % 16) (Nat.mod_lt n (by decide))
      rw [Nat.toDigits_of_base_le (by decide) (Nat.not_lt.mp hDigit), value_append_singleton,
        ih (n / 16) (by omega), hLast]
      omega

/-- Zeros in front do not change a number. -/
theorem value_leftpad (width : Nat) (digits : List Char) :
    value (List.leftpad width '0' digits) = value digits := by
  have hZeros (k : Nat) :
      (List.replicate k '0').foldl (fun n c => 16 * n + digitValue c) 0 = 0 := by
    induction k with
    | zero => rfl
    | succ k ih => exact ih
  rw [List.leftpad, value, List.foldl_append, hZeros, value]

@[simp]
theorem hexadecimal_inj {m n : Nat} : hexadecimal m = hexadecimal n ↔ m = n := by
  refine ⟨fun h => ?_, congrArg hexadecimal⟩
  have hRead (n : Nat) : value ((hexadecimal n).toList.drop 2) = n := by
    rw [toList_hexadecimal, List.drop_succ_cons, List.drop_succ_cons, List.drop_zero,
      value_leftpad, value_toDigits]
  rw [← hRead m, h, hRead]

@[simp]
theorem decimal_inj {m n : Nat} : toString m = toString n ↔ m = n := by
  refine ⟨fun h => ?_, congrArg toString⟩
  have hRead (n : Nat) : Nat.ofDigitChars 10 (toString n).toList 0 = n := by
    rw [Nat.toString_eq_ofList_toDigits, String.toList_ofList, Nat.ofDigitChars_ten_toDigits]
  rw [← hRead m, h, hRead]

/-! ## Letters and digits -/

theorem exists_digitChar_of_mem_toDigits {n : Nat} {c : Char} (h : c ∈ Nat.toDigits 16 n) :
    ∃ d < 16, c = Nat.digitChar d := by
  induction n using Nat.strongRecOn with
  | ind n ih =>
    by_cases hDigit : n < 16
    · rw [Nat.toDigits_of_lt_base hDigit, List.mem_singleton] at h
      exact ⟨n, hDigit, h⟩
    · rw [Nat.toDigits_of_base_le (by decide) (Nat.not_lt.mp hDigit)] at h
      obtain hFront | hLast := List.mem_append.mp h
      · exact ih (n / 16) (by omega) hFront
      · exact ⟨n % 16, Nat.mod_lt n (by decide), List.mem_singleton.mp hLast⟩

theorem all_decimal (n : Nat) : (toString n).toList.all Char.isAlphanum := by
  rw [Nat.toString_eq_ofList_toDigits, String.toList_ofList, List.all_eq_true]
  intro c hc
  simp [Char.isAlphanum, Nat.isDigit_of_mem_toDigits (by decide) (by decide) hc]

theorem all_hexadecimal (n : Nat) : (hexadecimal n).toList.all Char.isAlphanum := by
  have hDigit : ∀ d < 16, (Nat.digitChar d).isAlphanum := by decide
  rw [toList_hexadecimal, List.all_eq_true]
  intro c hc
  simp only [List.leftpad, List.mem_cons, List.mem_append, List.mem_replicate] at hc
  obtain rfl | rfl | ⟨-, rfl⟩ | hMem := hc
  · rfl
  · rfl
  · rfl
  · obtain ⟨d, hd, rfl⟩ := exists_digitChar_of_mem_toDigits hMem
    exact hDigit d hd

theorem notMem_of_all {p : Char → Bool} {chars : List Char} {c : Char} (h : chars.all p)
    (hc : ¬p c) : c ∉ chars :=
  fun hMem => hc (List.all_eq_true.mp h c hMem)

/-! ## Separators -/

theorem append_cons_inj {p : Char → Bool} {front front' rest rest' : List Char} {sep : Char}
    (hFront : front.all p) (hFront' : front'.all p) (hSep : ¬p sep) :
    front ++ sep :: rest = front' ++ sep :: rest' ↔ front = front' ∧ rest = rest' := by
  have hTake {l : List Char} (r : List Char) (hl : l.all p) :
      (l ++ sep :: r).takeWhile p = l := by
    rw [List.takeWhile_append_of_pos (List.all_eq_true.mp hl), List.takeWhile_cons_of_neg hSep,
      List.append_nil]
  constructor
  · intro h
    have hSame := congrArg (List.takeWhile p) h
    rw [hTake _ hFront, hTake _ hFront'] at hSame
    subst hSame
    exact ⟨rfl, (List.cons.inj (List.append_cancel_left h)).2⟩
  · rintro ⟨rfl, rfl⟩
    rfl

/-- Two texts that go on with the same separator are equal if and only if they are equal in front of
it and behind it. The separator starts with a character that none of the texts in front has. -/
theorem append_inj_of_all (p : Char → Bool) {front front' : String} (sep : String)
    {rest rest' : String} (hFront : front.toList.all p) (hFront' : front'.toList.all p)
    (hSep : sep.toList.head?.any (!p ·)) :
    front ++ (sep ++ rest) = front' ++ (sep ++ rest') ↔ front = front' ∧ rest = rest' := by
  obtain ⟨c, hHead, hSep⟩ := (Option.any_eq_true ..).mp hSep
  obtain ⟨chars, hList⟩ := List.head?_eq_some_iff.mp hHead
  have hRest : chars ++ rest.toList = chars ++ rest'.toList ↔ rest = rest' := by
    rw [List.append_cancel_left_eq, String.toList_inj]
  rw [← String.toList_inj, String.toList_append, String.toList_append, String.toList_append,
    String.toList_append, hList, List.cons_append, List.cons_append,
    append_cons_inj hFront hFront' (by simpa using hSep), String.toList_inj, hRest]

end RegisterMachine.Text
