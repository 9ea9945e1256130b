import Pipework.Codec.Hex

set_option autoImplicit false

/-! # Numbers in a radix

Whole numbers written with digits of any radix up to sixteen. -/

namespace Pipework.Radix

/-- The value of a digit, of either case, in a notation with `radix` digits. -/
def digit? (radix : Nat) (c : Char) : Option Nat := (Hex.digitValue? c).filter (· < radix)

/-- The number that digits spell; no digits spell zero. -/
def number? (radix : Nat) (digits : List Char) : Option Nat :=
  digits.foldlM (fun n c => do return radix * n + (← digit? radix c)) 0

end Pipework.Radix
