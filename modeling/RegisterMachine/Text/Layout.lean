/-!
# Laying out a text in a field

A field has a width and an alignment. A text shorter than the width is filled up with the fill
character, a longer one keeps its length. Centring puts the odd fill character on the right. A
field may also have a limit, to which the text is cut before it is filled.
-/

namespace RegisterMachine.Text

inductive Alignment where
  | left
  | right
  | centre
deriving DecidableEq

structure Layout where
  width : Nat := 0
  alignment : Alignment := .left
  fill : Char := ' '
  limit : Option Nat := none
deriving DecidableEq

namespace Layout

/-- The text as far as the limit allows. -/
def cut (layout : Layout) (text : List Char) : List Char :=
  match layout.limit with
  | none => text
  | some n => text.take n

/-- The number of fill characters in front of a text with `missing` characters to fill. -/
def lead (layout : Layout) (missing : Nat) : Nat :=
  match layout.alignment with
  | .left => 0
  | .right => missing
  | .centre => missing / 2

def place (layout : Layout) (text : String) : String :=
  let shown := layout.cut text.toList
  let missing := layout.width - shown.length
  let lead := layout.lead missing
  String.ofList
    (List.replicate lead layout.fill ++ shown ++ List.replicate (missing - lead) layout.fill)

theorem lead_le (layout : Layout) (missing : Nat) : layout.lead missing ≤ missing := by
  unfold lead
  split <;> omega

/-- A placed text is exactly as long as its field, unless it is too long for it. -/
theorem length_place (layout : Layout) (text : String) :
    (layout.place text).length = max layout.width (layout.cut text.toList).length := by
  have hLead := layout.lead_le (layout.width - (layout.cut text.toList).length)
  simp [place]
  omega

end Layout

end RegisterMachine.Text
