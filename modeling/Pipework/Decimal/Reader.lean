import Pipework.Decimal.Basic
import Pipework.Text.Split

set_option autoImplicit false

/-! # Reading decimals

A decimal without a sign: digits with a point before, among or behind them and perhaps an exponent.
-/

namespace Pipework.Decimal

/-- The exponent that a text is: nothing, or a letter and a whole number that may have a sign. -/
def readExponent? : List Char → Option Int
  | [] => some 0
  | letter :: rest =>
    if letter == 'e' || letter == 'E' then
      let (isNegative, digits) :=
        match rest with
        | '-' :: digits => (true, digits)
        | '+' :: digits => (false, digits)
        | digits => (false, digits)
      if digits.isEmpty then none
      else (Text.digitsValue? 0 digits).map fun n => if isNegative then -(n : Int) else n
    else none

/-- The decimal that a text is. There is at least one digit before or behind the point. -/
def read? (chars : List Char) : Option Decimal := do
  let whole := chars.takeWhile Char.isDigit
  let rest := chars.dropWhile Char.isDigit
  let (fraction, rest) :=
    match rest with
    | '.' :: rest => (rest.takeWhile Char.isDigit, rest.dropWhile Char.isDigit)
    | rest => ([], rest)
  if whole.isEmpty && fraction.isEmpty then none
  let exponent ← readExponent? rest
  let digits ← Text.digitsValue? 0 (whole ++ fraction)
  return ⟨digits, exponent - fraction.length⟩

end Pipework.Decimal
