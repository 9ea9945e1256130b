import Pipework.Binary64

set_option autoImplicit false

/-! # Decimal numbers

A `Decimal` is a whole number times a power of ten, the form in which numbers are written. -/

namespace Pipework

/-- The magnitude `digits * 10 ^ exponent`. -/
structure Decimal where
  digits : Nat
  exponent : Int
deriving DecidableEq, Repr

namespace Decimal

/-- The digits of `n`. -/
def digitChars (n : Nat) : List Char := Nat.toDigits 10 n

/-- The digits of `n` behind its sign; only a negative number shows one. -/
def intChars (n : Int) : List Char :=
  if n < 0 then '-' :: digitChars n.natAbs else digitChars n.natAbs

/-- How many digits `n` is written with. -/
def digitCount (n : Nat) : Nat := (digitChars n).length

/-- The exponent of the power of ten just above the magnitude: where the point stands, counted from
    the first digit. -/
def pointPosition (d : Decimal) : Int := digitCount d.digits + d.exponent

/-- The binary number nearest to `d`. Magnitudes far outside the range of finite numbers are decided
    by `pointPosition` alone. -/
def toBinary64 (d : Decimal) : Binary64 :=
  if d.digits = 0 then .zero
  else if 310 < d.pointPosition then .infinity
  else if d.pointPosition < -330 then .zero
  else .ofRatio (d.digits * Nat.pow 10 d.exponent.toNat) (Nat.pow 10 (-d.exponent).toNat)

/-- The same magnitude without zeros at the end of its digits. -/
def trimmed (d : Decimal) : Decimal := go d (digitCount d.digits)
where
  /-- Drops at most `count` zeros. -/
  go (d : Decimal) : Nat → Decimal
    | 0 => d
    | count + 1 =>
      if d.digits % 10 = 0 then go ⟨d.digits / 10, d.exponent + 1⟩ count else d

end Decimal

end Pipework
