import Pipework.Decimal.Reader
import Pipework.Text.Radix

set_option autoImplicit false

/-! # Numbers of TOML

Integers have 64 bits with a sign and may be written in decimal, hexadecimal, octal or binary;
decimal ones have no zeros in front. Floating-point numbers have a fraction, an exponent or both.
Underscores may stand between digits. -/

namespace Pipework.Toml.Number

/-! ## Digits -/

/-- The characters without the underscores among them, each of which has to stand between two
    digits. -/
def joinDigits? (isDigit : Char → Bool) : List Char → Option (List Char)
  | [] => some []
  | before :: '_' :: after :: rest =>
    if isDigit before && isDigit after then
      (joinDigits? isDigit (after :: rest)).map (before :: ·)
    else none
  | c :: rest => if c == '_' then none else (joinDigits? isDigit rest).map (c :: ·)

/-- Digits before a point: one at least, and no zero in front of others. -/
def isWhole (digits : List Char) : Bool :=
  match digits with
  | [] => false
  | '0' :: _ :: _ => false
  | digits => digits.all Char.isDigit

/-- Whether a text starts with a minus sign, and what follows its sign. -/
def splitSign : List Char → Bool × List Char
  | '-' :: rest => (true, rest)
  | '+' :: rest => (false, rest)
  | chars => (false, chars)

/-! ## Integers -/

/-- The number that digits of a radix spell. -/
def digits? (radix : Nat) (chars : List Char) : Option Nat := do
  let digits ← joinDigits? (fun c => (Radix.digit? radix c).isSome) chars
  if digits.isEmpty then none else Radix.number? radix digits

/-- The whole number that a text is. -/
def whole? (chars : List Char) : Option Int :=
  match chars with
  | '0' :: 'x' :: digits => (digits? 16 digits).map Int.ofNat
  | '0' :: 'o' :: digits => (digits? 8 digits).map Int.ofNat
  | '0' :: 'b' :: digits => (digits? 2 digits).map Int.ofNat
  | chars => do
    let (isNegative, chars) := splitSign chars
    let digits ← joinDigits? Char.isDigit chars
    let n ← if isWhole digits then Radix.number? 10 digits else none
    return if isNegative then -(n : Int) else n

/-- The integer that a text is, if it has at most 64 bits. -/
def int? (chars : List Char) : Option Int :=
  (whole? chars).filter fun n => -0x8000000000000000 ≤ n && n < 0x8000000000000000

/-! ## Floating-point numbers -/

/-- The magnitude that a text without a sign is; there is a fraction or an exponent. -/
def decimal? (chars : List Char) : Option Decimal := do
  let chars ← joinDigits? Char.isDigit chars
  let fits :=
    match chars.dropWhile Char.isDigit with
    | [] => false
    | '.' :: rest => rest.head?.any Char.isDigit
    | _ => true
  if fits && isWhole (chars.takeWhile Char.isDigit) then Decimal.read? chars else none

/-- The floating-point number that a text is. Only a negative one may be too large to be finite. -/
def float? (chars : List Char) : Option Binary64 := do
  let (isNegative, chars) := splitSign chars
  let x ←
    match chars with
    | ['i', 'n', 'f'] => some Binary64.infinity
    | ['n', 'a', 'n'] => some Binary64.nan
    | chars => do
      let x := (← decimal? chars).toBinary64
      if x.isFinite || isNegative then some x else none
  return if isNegative then x.neg else x

end Pipework.Toml.Number
