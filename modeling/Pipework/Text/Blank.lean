import Pipework.Text.Ranges

set_option autoImplicit false

/-! # Blank characters

The characters with the Unicode property White_Space, and trimming by them. -/

namespace Pipework.Text

/-- The ranges of code points with the property White_Space. -/
def blankRanges : List (Nat × Nat) :=
  [(0x09, 0x0D), (0x20, 0x20), (0x85, 0x85), (0xA0, 0xA0), (0x1680, 0x1680), (0x2000, 0x200A),
    (0x2028, 0x2029), (0x202F, 0x202F), (0x205F, 0x205F), (0x3000, 0x3000)]

/-- A character with the property White_Space. -/
def isBlank (c : Char) : Bool := inRanges blankRanges c

/-- `chars` without the blanks at its end. -/
def trimEnd (chars : List Char) : List Char := (chars.reverse.dropWhile isBlank).reverse

/-- `chars` without the blanks at either end. -/
def trim (chars : List Char) : List Char := trimEnd (chars.dropWhile isBlank)

end Pipework.Text
