import Pipework.Decimal.Basic

set_option autoImplicit false

/-! # The fewest digits that read back

A finite binary number stands for every real number that rounds to it, an interval around it whose
ends belong to it exactly when its significand is even. `Decimal.shortest` takes the coarsest
decimal grid that has a point in that interval, and of the points there the one nearest to the
number. Only the two grid points next to the number need a look: if any point of the grid lies in
the interval, one of those two does. -/

namespace Pipework.Decimal

/-- Which neighbour is taken when a number lies halfway between two decimals. -/
inductive Tie
  /-- The neighbour with the greater magnitude. -/
  | up
  /-- The neighbour whose last digit is even. -/
  | even
deriving DecidableEq

/-- The reals that round to a positive binary number, as ratios over one denominator. -/
structure Interval where
  low : Nat
  value : Nat
  high : Nat
  den : Nat
  /-- The ends belong to the interval. -/
  closed : Bool

/-- The interval of a finite positive number. Below a power of two, numbers lie twice as close. -/
def intervalOf (x : Binary64) : Interval :=
  let m := x.significand
  let below := if x.fraction = 0 && 1 < x.exponentField then 1 else 2
  let scale := Nat.pow 2 (x.exponent - 2).toNat
  { low := (4 * m - below) * scale
    value := 4 * m * scale
    high := (4 * m + 2) * scale
    den := Nat.pow 2 (2 - x.exponent).toNat
    closed := m % 2 == 0 }

namespace Interval

/-- The decimal lies in the interval. -/
def contains (i : Interval) (d : Decimal) : Bool :=
  let num := d.digits * Nat.pow 10 d.exponent.toNat * i.den
  let den := Nat.pow 10 (-d.exponent).toNat
  if i.closed then i.low * den ≤ num && num ≤ i.high * den
  else i.low * den < num && num < i.high * den

/-- The exponent of the power of ten just above the value. No value is below `10 ^ -340`. -/
def pointPosition (i : Interval) : Int :=
  (digitCount (i.value * Nat.pow 10 340 / i.den) : Int) - 340

/-- The point of the grid `10 ^ exponent` that is taken for the interval, if one lies in it. -/
def onGrid (tie : Tie) (i : Interval) (exponent : Int) : Option Decimal :=
  let num := i.value * Nat.pow 10 (-exponent).toNat
  let den := i.den * Nat.pow 10 exponent.toNat
  let below : Decimal := ⟨num / den, exponent⟩
  let above : Decimal := ⟨num / den + 1, exponent⟩
  match i.contains below, i.contains above with
  | false, false => none
  | true, false => some below
  | false, true => some above
  | true, true =>
    let twice := 2 * (num % den)
    if twice < den then some below
    else if den < twice then some above
    else
      match tie with
      | .up => some above
      | .even => some (if below.digits % 2 = 0 then below else above)

end Interval

/-- The shortest decimal that reads back as the finite number `x`, whatever its sign. Seventeen
    digits always do. -/
def shortest (tie : Tie) (x : Binary64) : Decimal :=
  if x.isZero then ⟨0, 0⟩
  else
    let i := intervalOf x
    let position := i.pointPosition
    match (List.range 17).findSome? fun (n : Nat) => i.onGrid tie (position - (n + 1)) with
    | some d => d.trimmed
    | none => ⟨0, 0⟩

end Pipework.Decimal
