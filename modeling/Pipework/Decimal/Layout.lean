import Pipework.Decimal.Shortest

set_option autoImplicit false

/-! # How floating-point numbers are written

Three layouts of the shortest digits: positional throughout (`plainText`), positional with one place
for whole numbers of moderate size (`scalarText`), and the layout of JSON (`jsonText`), which
changes to an exponent for very small and very large numbers. -/

namespace Pipework

namespace Decimal

/-- `count` zeros. -/
def zeros (count : Nat) : List Char := List.replicate count '0'

/-- The decimal in positional notation, with a point only if there is something behind it. -/
def positional (d : Decimal) : List Char :=
  let digits := digitChars d.digits
  if 0 ≤ d.exponent then digits ++ zeros d.exponent.toNat
  else
    let point := d.pointPosition
    if 0 < point then digits.take point.toNat ++ '.' :: digits.drop point.toNat
    else '0' :: '.' :: zeros (-point).toNat ++ digits

/-- The decimal with one digit before the point and an exponent with its sign. -/
def exponential (d : Decimal) : List Char :=
  let mantissa :=
    match digitChars d.digits with
    | [] => []
    | [digit] => [digit]
    | digit :: more => digit :: '.' :: more
  let power := d.pointPosition - 1
  mantissa ++ 'e' :: (if power < 0 then '-' else '+') :: digitChars power.natAbs

end Decimal

namespace Binary64

/-- `text` behind the sign of `x`. -/
def signed (x : Binary64) (text : List Char) : String :=
  String.ofList (if x.isNegative then '-' :: text else text)

/-- The shortest digits in positional notation however large the number is. -/
def plainText (x : Binary64) : String :=
  if x.isNaN then "NaN"
  else if x.isFinite then x.signed (Decimal.shortest .up x).positional
  else x.signed "inf".toList

/-- As `plainText`, but a whole number below `10 ^ 16` is written with one place, all its digits
    exact. -/
def scalarText (x : Binary64) : String :=
  let (num, den) := x.ratio
  if x.isWhole && num < Nat.pow 10 16 * den then
    x.signed (Decimal.digitChars (num / den) ++ ['.', '0'])
  else x.plainText

/-- The shortest digits as a JSON number: positional, with at least one place, from `10 ^ -5` up to
    `10 ^ 16`, and with an exponent outside. -/
def jsonText (x : Binary64) : String :=
  let d := Decimal.shortest .even x
  let point := d.pointPosition
  if d.digits = 0 then x.signed ['0', '.', '0']
  else if -5 < point && point ≤ 16 then
    x.signed (if 0 ≤ d.exponent then d.positional ++ ['.', '0'] else d.positional)
  else x.signed d.exponential

end Binary64

end Pipework
