import RegisterMachine.Registers.Name
import RegisterMachine.Text.Layout

/-!
# The register table

A register file is shown as a table of two lines, the names of the registers above their contents.
Every cell is five characters wide, which is enough for the decimal text of any word, so the bars
between the cells of both lines stand below each other. A line is put together cell by cell, with a
bar and a blank behind each, and loses the last blank.
-/

namespace RegisterMachine

/-- A text without the blanks at its end. -/
def Text.trimEnd (text : String) : String :=
  String.ofList (text.toList.reverse.dropWhile Char.isWhitespace).reverse

namespace Table

/-- The text of a cell with the bar behind it. -/
def cell (text : String) : String :=
  Text.Layout.place { width := 5 } text ++ " | "

def line (texts : List String) : String :=
  Text.trimEnd (texts.foldl (fun line text => line ++ cell text) "| ")

end Table

/-- The table of a register file: names in the first line, contents in the second. -/
def Registers.table (regs : Registers) : String :=
  Table.line (regs.named.map fun entry => entry.1.text) ++ "\n" ++
    Table.line (regs.named.map fun entry => toString entry.2.toNat)

end RegisterMachine
