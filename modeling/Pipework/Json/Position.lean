import Pipework.Text.Utf8

set_option autoImplicit false

/-! # Where reading stops

A reader of JSON that fails knows what it has not read yet. `Stop` records that as a number of
bytes, and `Stop.position` turns it into a line and a column of the whole text. -/

namespace Pipework.Json

/-- A failure, seen from within the text. -/
structure Stop where
  /-- The text ends too early; otherwise something stands in the wrong place. -/
  isEarly : Bool
  /-- How many bytes lie behind the place that the failure is reported at. -/
  left : Nat

namespace Stop

/-- The text ends too early. -/
def early : Stop := ⟨true, 0⟩

/-- What was just read is wrong; `rest` follows it. -/
def here (rest : List Char) : Stop := ⟨false, Utf8.byteLength rest⟩

/-- The byte that `s` begins with is wrong. -/
def atFirst (s : List Char) : Stop := ⟨false, Utf8.byteLength s - 1⟩

end Stop

/-- Why a text is not JSON, with the place where that shows. -/
structure ParseError where
  /-- The text ends too early; otherwise something stands in the wrong place. -/
  isEarly : Bool
  /-- The line, counted from one. -/
  line : Nat
  /-- How many bytes of the line had been read. -/
  column : Nat
deriving DecidableEq, Repr

/-- The line and the column behind the first `read` bytes of `text`. -/
def ParseError.ofStop (text : String) (stop : Stop) : ParseError :=
  let before := (Utf8.encode text).take (text.utf8ByteSize - stop.left)
  { isEarly := stop.isEarly
    line := 1 + before.count 0x0A
    column := (before.reverse.takeWhile (· != 0x0A)).length }

end Pipework.Json
