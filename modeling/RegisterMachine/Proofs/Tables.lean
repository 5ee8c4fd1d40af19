import Mathlib.Data.List.DropRight
import RegisterMachine.Proofs.Texts
import RegisterMachine.Registers.Table

/-!
# Reading the register table

A line of the table is a bar with cells behind it. Each cell has a text with blanks around it, seven
characters in all, and ends with a bar. So a line can be cut at its bars, which stand in the same
places in every line, and the contents of all registers can be read from the second line.

* `toList_line`, `getElem?_line_eq_bar_iff`: where the bars of a line are.
* `cells_line`: what stands between them.
* `Registers.table_is_readable`: the two lines of a table.
-/

namespace RegisterMachine

open Text

namespace Table

/-- What stands between two bars: a text behind one blank, and at least one blank behind it. -/
def slot (text : String) : List Char :=
  ' ' :: (text.toList ++ (List.replicate (5 - text.toList.length) ' ' ++ [' ']))

theorem toList_cell (text : String) : ' ' :: (cell text).toList = slot text ++ ['|', ' '] := by
  simp [cell, slot, Layout.place, Layout.cut, Layout.lead]

/-- Behind a blank, cells are put together with a blank at the end. -/
theorem toList_foldl_cell (texts : List String) {front : String} {chars : List Char}
    (hFront : front.toList = chars ++ [' ']) :
    (texts.foldl (fun line text => line ++ cell text) front).toList =
      chars ++ (texts.flatMap fun text => slot text ++ ['|']) ++ [' '] := by
  induction texts generalizing front chars with
  | nil => simpa using hFront
  | cons text texts ih =>
    have hNext : (front ++ cell text).toList = chars ++ (slot text ++ ['|']) ++ [' '] := by
      rw [String.toList_append, hFront, List.append_assoc, List.singleton_append, toList_cell]
      simp
    rw [List.foldl_cons, ih hNext, List.flatMap_cons]
    simp only [List.append_assoc]

theorem toList_trimEnd (text : String) :
    (trimEnd text).toList = text.toList.rdropWhile Char.isWhitespace := by
  rw [trimEnd, String.toList_ofList, List.rdropWhile]

/-- A line ends with a bar, so trimming takes away the last blank and nothing else. -/
theorem toList_line (texts : List String) :
    (line texts).toList = '|' :: texts.flatMap fun text => slot text ++ ['|'] := by
  have hBar : ∃ front, '|' :: texts.flatMap (fun text => slot text ++ ['|']) = front ++ ['|'] := by
    rcases List.eq_nil_or_concat' texts with rfl | ⟨others, last, rfl⟩
    · exact ⟨[], rfl⟩
    · exact ⟨'|' :: (others.flatMap fun text => slot text ++ ['|']) ++ slot last, by simp⟩
  obtain ⟨front, hFront⟩ := hBar
  have hCells : (texts.foldl (fun line text => line ++ cell text) "| ").toList =
      ['|'] ++ (texts.flatMap fun text => slot text ++ ['|']) ++ [' '] :=
    toList_foldl_cell texts rfl
  rw [List.singleton_append, hFront] at hCells
  rw [line, toList_trimEnd, hCells, List.rdropWhile_concat_pos _ _ _ (by decide),
    List.rdropWhile_concat_neg _ _ _ (by decide), hFront]

/-- A line read from the left: each cell has a bar in front, and there is one more behind the
last. -/
theorem line_eq (texts : List String) : line texts =
    String.join (texts.map fun text => "| " ++ String.ofList (text.toList.rightpad 5 ' ') ++ " ") ++
      "|" := by
  have hTurn : '|' :: texts.flatMap (fun text => slot text ++ ['|']) =
      texts.flatMap (fun text => '|' :: slot text) ++ ['|'] := by
    induction texts with
    | nil => rfl
    | cons text texts ih =>
      rw [List.flatMap_cons, List.flatMap_cons, List.append_assoc, List.singleton_append, ih]
      simp
  have hCell (text : String) : '|' :: slot text =
      ("| " ++ String.ofList (text.toList.rightpad 5 ' ') ++ " ").toList := by
    simp [slot, List.rightpad]
  apply String.toList_injective
  rw [toList_line, hTurn, String.toList_append, String.toList_join, List.flatMap_map]
  simp only [hCell]
  rfl

/-- A text that fits into a cell: it has five characters at most, all of them letters or digits. -/
structure Fits (text : String) : Prop where
  length : text.toList.length ≤ 5
  all : text.toList.all Char.isAlphanum

section

variable {text : String} {texts : List String}

theorem Fits.length_slot (h : Fits text) : (slot text).length = 7 := by
  have hLength := h.length
  simp [slot]
  omega

theorem Fits.notMem_slot (h : Fits text) {c : Char} (hc : ¬c.isAlphanum) (hBlank : c ≠ ' ') :
    c ∉ slot text := by
  simp [slot, notMem_of_all h.all hc, hBlank]

/-- Without its blanks, a cell has just its text. -/
theorem Fits.filter_slot (h : Fits text) : (slot text).filter (· ≠ ' ') = text.toList := by
  have hText : text.toList.filter (· ≠ ' ') = text.toList := by
    refine List.filter_eq_self.mpr fun c hc => decide_eq_true ?_
    rintro rfl
    exact notMem_of_all h.all (by decide) hc
  have hBlanks (k : Nat) : (List.replicate k ' ' ++ [' ']).filter (· ≠ ' ') = [] := by
    simp
  rw [slot, List.filter_cons_of_neg (by decide), List.filter_append, hText, hBlanks,
    List.append_nil]

/-! ## Bars -/

theorem length_line (h : ∀ text ∈ texts, Fits text) :
    (line texts).length = 8 * texts.length + 1 := by
  have hCells : (texts.flatMap fun text => slot text ++ ['|']).length = 8 * texts.length := by
    induction texts with
    | nil => rfl
    | cons text texts ih =>
      obtain ⟨hFirst, hOthers⟩ := List.forall_mem_cons.mp h
      simp only [List.flatMap_cons, List.length_append, hFirst.length_slot, ih hOthers,
        List.length_cons, List.length_nil]
      omega
  rw [← String.length_toList, toList_line, List.length_cons, hCells]

/-- Among the cells, every eighth character is a bar and no other one is. -/
theorem getElem?_cells_eq_bar_iff (h : ∀ text ∈ texts, Fits text) (i : Nat) :
    (texts.flatMap fun text => slot text ++ ['|'])[i]? = some '|' ↔
      i % 8 = 7 ∧ i < 8 * texts.length := by
  induction texts generalizing i with
  | nil => simp
  | cons text texts ih =>
    obtain ⟨hFirst, hOthers⟩ := List.forall_mem_cons.mp h
    have hLength := hFirst.length_slot
    rw [List.flatMap_cons, List.append_assoc, List.length_cons]
    rcases Nat.lt_trichotomy i 7 with hInside | hBar | hBehind
    · have hNone : (slot text)[i]? ≠ some '|' := fun hBar =>
        hFirst.notMem_slot (by decide) (by decide) (List.mem_of_getElem? hBar)
      rw [List.getElem?_append_left (by omega)]
      refine iff_of_false hNone ?_
      omega
    · rw [List.getElem?_append_right (by omega), hLength, hBar]
      refine iff_of_true rfl ?_
      omega
    · obtain ⟨j, rfl⟩ : ∃ j, i = j + 1 + 7 := ⟨i - 8, by omega⟩
      rw [List.getElem?_append_right (by omega), hLength, Nat.add_sub_cancel, List.singleton_append,
        List.getElem?_cons_succ, ih hOthers]
      omega

theorem getElem?_line_eq_bar_iff (h : ∀ text ∈ texts, Fits text) (i : Nat) :
    (line texts).toList[i]? = some '|' ↔ i % 8 = 0 ∧ i ≤ 8 * texts.length := by
  rw [toList_line]
  cases i with
  | zero => simp
  | succ i =>
    rw [List.getElem?_cons_succ, getElem?_cells_eq_bar_iff h]
    omega

/-! ## Cells -/

/-- The texts between the bars of a line, without blanks. -/
def cells (line : String) : List String :=
  (line.toList.splitOn '|').map fun piece => String.ofList (piece.filter (· ≠ ' '))

/-- A line is cut into its cells. Nothing stands before its first bar and behind its last one. -/
theorem splitOn_line (h : ∀ text ∈ texts, Fits text) :
    (line texts).toList.splitOn '|' = [] :: (texts.map slot ++ [[]]) := by
  have hCells : (texts.flatMap fun text => slot text ++ ['|']).splitOn '|' =
      texts.map slot ++ [[]] := by
    induction texts with
    | nil => rfl
    | cons text texts ih =>
      obtain ⟨hFirst, hOthers⟩ := List.forall_mem_cons.mp h
      have hPiece :=
        List.splitOn_eq_singleton (hFirst.notMem_slot (c := '|') (by decide) (by decide))
      rw [List.flatMap_cons, List.append_assoc, List.singleton_append,
        List.splitOn_append_cons_self, hPiece, ih hOthers]
      rfl
  have hFront := List.splitOn_append_cons_self (a := '|') []
    (texts.flatMap fun text => slot text ++ ['|'])
  rw [toList_line]
  exact hFront.trans (congrArg ([] :: ·) hCells)

theorem cells_line (h : ∀ text ∈ texts, Fits text) :
    cells (line texts) = "" :: (texts ++ [""]) := by
  have hTexts : (texts.map slot).map (fun piece => String.ofList (piece.filter (· ≠ ' '))) =
      texts := by
    rw [List.map_map]
    refine (List.map_congr_left fun text hText => ?_).trans (List.map_id texts)
    rw [Function.comp_apply, (h text hText).filter_slot, String.ofList_toList]
    rfl
  rw [cells, splitOn_line h, List.map_cons, List.map_append, hTexts]
  rfl

theorem notMem_line (h : ∀ text ∈ texts, Fits text) : '\n' ∉ (line texts).toList := by
  rw [toList_line]
  intro hMem
  simp only [List.mem_cons, List.mem_flatMap, List.mem_append, List.not_mem_nil, or_false] at hMem
  rcases hMem with hBar | ⟨text, hText, hSlot | hBar⟩
  · cases hBar
  · exact (h text hText).notMem_slot (by decide) (by decide) hSlot
  · cases hBar

end

/-- A line of the table: sixteen cells with a bar in front, and with nothing behind the last bar. -/
structure Framed (line : String) : Prop where
  length : line.length = 129
  start : ['|', ' '] <+: line.toList
  last : line.toList.getLast? = some '|'
  bars : ∀ i, line.toList[i]? = some '|' ↔ i % 8 = 0 ∧ i ≤ 128

theorem framed_line {texts : List String} (hCount : texts.length = 16)
    (h : ∀ text ∈ texts, Fits text) : Framed (line texts) := by
  have hLength : (line texts).length = 129 := by
    rw [length_line h, hCount]
  have hBars (i : Nat) : (line texts).toList[i]? = some '|' ↔ i % 8 = 0 ∧ i ≤ 128 := by
    rw [getElem?_line_eq_bar_iff h, hCount]
  refine ⟨hLength, ?_, ?_, hBars⟩
  · cases texts with
    | nil => cases hCount
    | cons text texts =>
      rw [toList_line]
      exact ⟨_, rfl⟩
  · rw [List.getLast?_eq_getElem?, String.length_toList, hLength, hBars]
    decide

end Table

/-! ## Registers -/

namespace Registers

open Table

theorem fits_decimal (w : Word) : Fits (toString w.toNat) := by
  refine ⟨?_, all_decimal _⟩
  have hWord := w.toNat_lt
  rw [Nat.toString_eq_ofList_toDigits, String.toList_ofList,
    Nat.length_toDigits_le_iff (by decide) (by decide)]
  omega

theorem fits_name (r : Register) : Fits r.name.text := by
  have hLength : ∀ r : Register, r.name.text.toList.length ≤ 5 := by decide
  have hAll : ∀ r : Register, r.name.text.toList.all Char.isAlphanum := by decide
  exact ⟨hLength r, hAll r⟩

/-- The texts of the first line, in the order of the registers. -/
def names : List String :=
  (List.finRange 16).map fun r => (Register.name r).text

/-- The texts of the second line. -/
def values (regs : Registers) : List String :=
  (List.finRange 16).map fun r => toString (regs.get r).toNat

theorem names_eq : names = ["R0", "R1", "R2", "R3", "R4", "R5", "R6", "R7", "R8", "R9", "R10",
    "R11", "R12", "R13", "SP", "PC"] := by
  decide

theorem table_eq (regs : Registers) : regs.table = line names ++ "\n" ++ line regs.values := by
  rw [table, named, List.map_map, List.map_map]
  rfl

theorem fits_of_mem_names (text : String) (h : text ∈ names) : Fits text := by
  obtain ⟨r, -, rfl⟩ := List.mem_map.mp h
  exact fits_name r

theorem fits_of_mem_values (regs : Registers) (text : String) (h : text ∈ regs.values) :
    Fits text := by
  obtain ⟨r, -, rfl⟩ := List.mem_map.mp h
  exact fits_decimal _

/-- A table has two lines. -/
theorem splitOn_table (regs : Registers) :
    regs.table.toList.splitOn '\n' = [(line names).toList, (line regs.values).toList] := by
  have hNames := List.splitOn_eq_singleton (notMem_line fits_of_mem_names)
  have hValues := List.splitOn_eq_singleton (notMem_line regs.fits_of_mem_values)
  rw [table_eq, String.toList_append, String.toList_append, List.append_assoc]
  change ((line names).toList ++ '\n' :: (line regs.values).toList).splitOn '\n' = _
  rw [List.splitOn_append_cons_self, hNames, hValues]
  rfl

/-- The contents of all registers can be read from the table. -/
theorem table_inj {regs regs' : Registers} : regs.table = regs'.table ↔ regs = regs' := by
  refine ⟨fun h => ?_, congrArg table⟩
  have hLines := regs.splitOn_table.symm.trans ((congrArg (·.toList.splitOn '\n') h).trans
    regs'.splitOn_table)
  have hLine : line regs.values = line regs'.values :=
    String.toList_injective (List.cons.inj (List.cons.inj hLines).2).1
  have hCells := congrArg cells hLine
  rw [cells_line regs.fits_of_mem_values, cells_line regs'.fits_of_mem_values] at hCells
  have hValues : regs.values = regs'.values := List.append_cancel_right (List.cons.inj hCells).2
  ext r
  have hText := List.map_inj_left.mp hValues r (List.mem_finRange r)
  exact decimal_inj.mp hText

/-- The table of a register file has two lines of the same layout. The first line has the names of
the registers and the second one their contents, so no other register file has the same table. -/
theorem table_is_readable (regs : Registers) :
    (∃ first second : String,
      regs.table.toList.splitOn '\n' = [first.toList, second.toList] ∧
      Framed first ∧ Framed second ∧
      cells first = "" :: (["R0", "R1", "R2", "R3", "R4", "R5", "R6", "R7", "R8", "R9", "R10",
        "R11", "R12", "R13", "SP", "PC"] ++ [""]) ∧
      cells second = "" :: ((List.finRange 16).map (fun r => toString (regs.get r).toNat) ++
        [""])) ∧
      ∀ regs' : Registers, regs.table = regs'.table ↔ regs = regs' := by
  refine ⟨⟨line names, line regs.values, regs.splitOn_table, ?_, ?_, ?_, ?_⟩, fun _ => table_inj⟩
  · exact framed_line rfl fits_of_mem_names
  · exact framed_line rfl regs.fits_of_mem_values
  · rw [cells_line fits_of_mem_names, names_eq]
  · exact cells_line regs.fits_of_mem_values

end Registers

end RegisterMachine
