import Pipework.Json.Basic
import Pipework.Json.Position

set_option autoImplicit false

/-! # Reading JSON numbers

A number is read into a significand of 64 bits and a power of ten. Digits that no longer fit the
significand are dropped: those before the point raise the power, those behind it count for nothing.
The significand becomes a floating-point number and is then multiplied or divided by a power of ten
that is one too, so a fraction with many digits may end up beside the number nearest to it. -/

namespace Pipework.Json

/-- The value of a decimal digit. -/
def digit? (c : Char) : Option Nat :=
  if '0' ≤ c ∧ c ≤ '9' then some (c.toNat - '0'.toNat) else none

/-- A decimal digit. -/
def isDigit (c : Char) : Bool := (digit? c).isSome

/-! ## Scaling -/

/-- The number nearest to `10 ^ power`. -/
def powerOfTen (power : Nat) : Binary64 := .ofNat (Nat.pow 10 power)

/-- The magnitude `x` divided by `10 ^ power`, at most `10 ^ 308` at a time. -/
def divideByPower (x : Binary64) (power : Nat) : Binary64 :=
  if power ≤ 308 then x.divMagnitude (powerOfTen power)
  else if x.isZero then x
  else divideByPower (x.divMagnitude (powerOfTen 308)) (power - 308)
termination_by power
decreasing_by omega

/-- `significand * 10 ^ power` as far as it is finite. -/
def scale? (significand : Nat) (power : Int) : Option Binary64 :=
  let x := Binary64.ofNat significand
  if power < 0 then some (divideByPower x power.natAbs)
  else if power ≤ 308 then
    let y := x.mulMagnitude (powerOfTen power.toNat)
    if y.isFinite then some y else none
  else if x.isZero then some x
  else none

/-- The number with the given sign and magnitude, which stands before `rest`. -/
def finish (negative : Bool) (significand : Nat) (power : Int) (rest : List Char) :
    Except Stop (Number × List Char) :=
  match scale? significand power with
  | none => .error (.here rest)
  | some x =>
    let x := if negative then x.neg else x
    if h : x.isFinite = true then .ok (.float x h, rest) else .error (.here rest)

/-! ## Digits -/

/-- The greatest significand. -/
def maxSignificand : Nat := 0xFFFFFFFFFFFFFFFF

/-- `value` extended by digits as long as it stays within `limit`, how many there were, and what
    follows. -/
def takeDigits (limit value count : Nat) : List Char → Nat × Nat × List Char
  | [] => (value, count, [])
  | c :: rest =>
    match digit? c with
    | none => (value, count, c :: rest)
    | some d =>
      if value * 10 + d ≤ limit then takeDigits limit (value * 10 + d) (count + 1) rest
      else (value, count, c :: rest)

/-! ## Parts of a number -/

/-- The exponent, which begins behind its letter. An exponent that does not fit 31 bits decides the
    number at once: it is zero or out of range. -/
def exponentPart (negative : Bool) (significand : Nat) (power : Int) (s : List Char) :
    Except Stop (Number × List Char) :=
  let (down, s) :=
    match s with
    | '+' :: rest => (false, rest)
    | '-' :: rest => (true, rest)
    | s => (false, s)
  match s with
  | [] => .error .early
  | c :: _ =>
    if isDigit c then
      let (value, _, rest) := takeDigits 0x7FFFFFFF 0 0 s
      match rest with
      | c :: after =>
        if isDigit c then
          if significand ≠ 0 ∧ !down then .error (.here after)
          else finish negative 0 0 (rest.dropWhile isDigit)
        else finish negative significand (if down then power - value else power + value) rest
      | [] => finish negative significand (if down then power - value else power + value) rest
    else .error (.atFirst s)

/-- What may follow the digits of a fraction. -/
def afterFraction (negative : Bool) (significand : Nat) (power : Int) (s : List Char) :
    Except Stop (Number × List Char) :=
  match s with
  | 'e' :: rest | 'E' :: rest => exponentPart negative significand power rest
  | s => finish negative significand power s

/-- The fraction, which begins behind the point. -/
def fractionPart (negative : Bool) (significand : Nat) (power : Int) (s : List Char) :
    Except Stop (Number × List Char) :=
  match s with
  | [] => .error .early
  | c :: _ =>
    if isDigit c then
      let (value, count, rest) := takeDigits maxSignificand significand 0 s
      afterFraction negative value (power - count) (rest.dropWhile isDigit)
    else .error (.atFirst s)

/-- The number whose digits before the point make up `significand * 10 ^ power`; a whole number
    keeps its exact value, but there is no negative whole zero. -/
def afterInteger (negative : Bool) (significand power : Nat) (s : List Char) :
    Except Stop (Number × List Char) :=
  match s with
  | '.' :: rest => fractionPart negative significand power rest
  | 'e' :: rest | 'E' :: rest => exponentPart negative significand power rest
  | s =>
    if power = 0 then
      if negative then
        if 0 < significand ∧ significand ≤ 0x8000000000000000 then
          .ok (.int (Int64.ofInt (-significand)), s)
        else finish true significand 0 s
      else .ok (.ofUInt64 (UInt64.ofNat significand), s)
    else finish negative significand power s

/-- The number that `s`, behind the sign, begins with. -/
def magnitude (negative : Bool) (s : List Char) : Except Stop (Number × List Char) :=
  match s with
  | [] => .error .early
  | '0' :: rest =>
    match rest with
    | c :: _ => if isDigit c then .error (.atFirst rest) else afterInteger negative 0 0 rest
    | [] => afterInteger negative 0 0 rest
  | c :: _ =>
    if isDigit c then
      let (value, _, rest) := takeDigits maxSignificand 0 0 s
      let more := rest.takeWhile isDigit
      afterInteger negative value more.length (rest.drop more.length)
    else .error (.atFirst s)

end Pipework.Json
