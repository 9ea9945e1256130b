import Pipework.Yaml.Character

set_option autoImplicit false

/-! # Gaps between words

Between two words of a scalar there may be spaces, tabs and line breaks. A `Gap` is such a stretch;
what it contributes to the scalar is `Gap.text`: spaces as they are if there is no line break, a
single space for one line break, and one line break less than there are for several. -/

namespace Pipework.Yaml

/-- A stretch of spaces, tabs and line breaks. -/
structure Gap where
  /-- Spaces and tabs before the first line break. -/
  spaces : List Char
  /-- Line breaks, each as what it counts as. -/
  breaks : List Char
  /-- How many characters come after the last line break. -/
  column : Nat
  /-- The least column of a tab after a line break. -/
  tabColumn : Option Nat

namespace Gap

/-- Nothing. -/
def empty : Gap := ⟨[], [], 0, none⟩

/-- The gap holds a line break. -/
def isBroken (gap : Gap) : Bool := !gap.breaks.isEmpty

/-- The gap with one more line break. -/
def addBreak (gap : Gap) (c : Char) : Gap := { gap with breaks := gap.breaks ++ [c], column := 0 }

/-- The gap with one more space or tab. -/
def addSpacing (gap : Gap) (c : Char) : Gap :=
  if gap.isBroken then
    let tabColumn :=
      if c == '\t' then some ((gap.tabColumn.getD gap.column).min gap.column) else gap.tabColumn
    { gap with column := gap.column + 1, tabColumn }
  else { gap with spaces := gap.spaces ++ [c] }

/-- The gap that a text starts with, added to `gap`, and what follows it. -/
def read (gap : Gap) : List Char → Gap × List Char
  | [] => (gap, [])
  | '\r' :: '\n' :: rest => read (gap.addBreak '\n') rest
  | c :: rest =>
    if isSpacing c then read (gap.addSpacing c) rest
    else
      match lineBreak? c with
      | some b => read (gap.addBreak b) rest
      | none => (gap, c :: rest)

/-- Line breaks as they count within a scalar. -/
def folded : List Char → List Char
  | [] => []
  | ['\n'] => [' ']
  | '\n' :: more => more
  | breaks => breaks

/-- What the gap contributes to a scalar. -/
def text (gap : Gap) : List Char := if gap.isBroken then folded gap.breaks else gap.spaces

end Gap

end Pipework.Yaml
